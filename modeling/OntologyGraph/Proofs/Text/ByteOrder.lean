import Mathlib.Data.String.Basic
import Mathlib.Tactic.SplitIfs

/-!
The order of texts. Texts are compared character by character, by code points, and that is the
order of their bytes in UTF-8 too: of two characters the lesser has the lesser code, however long
the codes are, and no code begins another.
-/

namespace OntologyGraph.Text

def bytes (text : String) : List UInt8 :=
  text.toUTF8.data.toList

/-- The bytes of one text come before those of the other, byte by byte. -/
def BytesBefore (first second : String) : Prop :=
  bytes first < bytes second

theorem bytes_eq_flatMap (text : String) :
    bytes text = text.toList.flatMap String.utf8EncodeChar := by
  have hencode : text.toByteArray = text.toList.utf8Encode := by
    rw [← String.toByteArray_ofList, String.ofList_toList]
  rw [bytes, String.toUTF8_eq_toByteArray, hencode, List.utf8Encode, List.data_toByteArray]

private theorem ofNat_cons_lt_iff {a b : Nat} (ha : a < 256) (hb : b < 256) {as bs : List UInt8} :
    UInt8.ofNat a :: as < UInt8.ofNat b :: bs ↔ a < b ∨ a = b ∧ as < bs := by
  rw [List.cons_lt_cons_iff, UInt8.lt_iff_toNat_lt, ← UInt8.toNat_inj,
    UInt8.toNat_ofNat_of_lt' ha, UInt8.toNat_ofNat_of_lt' hb]

/-- Codes are compared before what follows them. -/
private theorem utf8EncodeChar_append_lt {c d : Char} (h : c < d) (as bs : List UInt8) :
    String.utf8EncodeChar c ++ as < String.utf8EncodeChar d ++ bs := by
  have hlt : c.val.toNat < d.val.toNat := UInt32.lt_iff_toNat_lt.mp h
  have hmax : d.val.toNat < 0x110000 := by
    have hvalid := d.valid
    simp only [UInt32.isValidChar, Nat.isValidChar] at hvalid
    omega
  unfold String.utf8EncodeChar
  generalize c.val.toNat = v at *
  generalize d.val.toNat = w at *
  dsimp only
  -- A digit of the code point decides unless those above it do.
  have hlow : v / 64 < w / 64 ∨ v / 64 = w / 64 ∧ v % 64 < w % 64 := by omega
  have hmiddle : v / 4096 < w / 4096 ∨ v / 4096 = w / 4096 ∧ v / 64 % 64 ≤ w / 64 % 64 := by
    omega
  have hhigh : v / 262144 < w / 262144 ∨
      v / 262144 = w / 262144 ∧ v / 4096 % 64 ≤ w / 4096 % 64 := by omega
  have hv : v / 262144 % 8 = v / 262144 := Nat.mod_eq_of_lt (by omega)
  have hw : w / 262144 % 8 = w / 262144 := Nat.mod_eq_of_lt (by omega)
  split_ifs <;>
    simp (disch := omega) only [List.cons_append, List.nil_append, ofNat_cons_lt_iff] <;> omega

private theorem utf8EncodeChar_ne_nil (c : Char) : String.utf8EncodeChar c ≠ [] := by
  have hlength := String.length_utf8EncodeChar c
  have hpos := c.utf8Size_pos
  intro hnil
  rw [hnil, List.length_nil] at hlength
  omega

theorem bytesBefore_of_lt {first second : String} (h : first < second) :
    BytesBefore first second := by
  rw [String.lt_iff, ← List.lex_lt] at h
  rw [BytesBefore, bytes_eq_flatMap, bytes_eq_flatMap]
  generalize first.toList = cs at h
  generalize second.toList = ds at h
  induction h with
  | @nil d ds =>
    obtain ⟨b, bs, hcode⟩ := List.exists_cons_of_ne_nil (utf8EncodeChar_ne_nil d)
    rw [List.flatMap_nil, List.flatMap_cons, hcode]
    exact List.nil_lt_cons b _
  | cons _ ih =>
    rw [List.flatMap_cons, List.flatMap_cons]
    exact List.append_left_lt ih
  | rel hlt =>
    rw [List.flatMap_cons, List.flatMap_cons]
    exact utf8EncodeChar_append_lt hlt _ _

/-- Texts are in the order of their bytes. -/
theorem lt_iff_bytesBefore {first second : String} :
    first < second ↔ BytesBefore first second := by
  refine ⟨bytesBefore_of_lt, fun h => ?_⟩
  rcases lt_trichotomy first second with hlt | rfl | hlt
  · exact hlt
  · exact absurd h (List.lt_irrefl _)
  · exact absurd h (List.lt_asymm (bytesBefore_of_lt hlt))

end OntologyGraph.Text
