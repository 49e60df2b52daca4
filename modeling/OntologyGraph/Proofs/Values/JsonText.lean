import OntologyGraph.Proofs.Decimal.Integers
import OntologyGraph.Proofs.Values.Parts

/-!
The characters of JSON texts. Whatever the names and the texts in a JSON value hold, its own text
holds no control character: no NUL, no tab and no end of line.
-/

namespace OntologyGraph

def NoControls (cs : List Char) : Prop :=
  ∀ c ∈ cs, 0x20 ≤ c.toNat

instance (cs : List Char) : Decidable (NoControls cs) :=
  List.decidableBAll (fun c : Char => 0x20 ≤ c.toNat) cs

theorem noControls_nil : NoControls [] :=
  fun _ hmem => absurd hmem List.not_mem_nil

theorem noControls_cons_iff (c : Char) (cs : List Char) :
    NoControls (c :: cs) ↔ 0x20 ≤ c.toNat ∧ NoControls cs :=
  List.forall_mem_cons

theorem noControls_append_iff (cs cs' : List Char) :
    NoControls (cs ++ cs') ↔ NoControls cs ∧ NoControls cs' :=
  List.forall_mem_append

theorem NoControls.nul_not_mem {cs : List Char} (h : NoControls cs) : '\x00' ∉ cs :=
  fun hmem => absurd (h _ hmem) (by decide)

private theorem noControls_replicate (n : Nat) {c : Char} (h : 0x20 ≤ c.toNat) :
    NoControls (List.replicate n c) := by
  intro c' hmem
  rwa [List.eq_of_mem_replicate hmem]

namespace Decimal

theorem noControls_digitsOf (n : Nat) : NoControls (digitsOf n) := by
  intro c hmem
  have hbounds : 48 ≤ c.toNat ∧ c.toNat ≤ 57 :=
    Char.isDigit_iff_toNat.mp (isDigit_of_mem_digitsOf hmem)
  omega

theorem noControls_integerText (n : Int) : NoControls (integerText n) := by
  cases n with
  | ofNat n => exact noControls_digitsOf n
  | negSucc n => exact (noControls_cons_iff _ _).mpr ⟨by decide, noControls_digitsOf (n + 1)⟩

theorem noControls_positionalText {digits : List Char} (h : NoControls digits) (exponent : Int)
    (pointZero : Bool) : NoControls (positionalText digits exponent pointZero) := by
  have hzeros (n : Nat) : NoControls (List.replicate n '0') := noControls_replicate n (by decide)
  have htake (n : Nat) : NoControls (digits.take n) := fun c hmem => h c (List.mem_of_mem_take hmem)
  have hdrop (n : Nat) : NoControls (digits.drop n) := fun c hmem => h c (List.mem_of_mem_drop hmem)
  have hfraction : NoControls (if pointZero then ['.', '0'] else []) := by
    cases pointZero <;> decide
  unfold positionalText
  split
  · simp only [noControls_append_iff]
    exact ⟨⟨h, hzeros _⟩, hfraction⟩
  · dsimp only
    split
    · simp only [noControls_append_iff, noControls_cons_iff]
      exact ⟨htake _, by decide, hdrop _⟩
    · simp only [noControls_append_iff, noControls_cons_iff]
      exact ⟨by decide, by decide, hzeros _, h⟩

theorem noControls_exponentText {digits : List Char} (h : NoControls digits) (first : Int) :
    NoControls (exponentText digits first) := by
  have hsign : NoControls (if 0 ≤ first then ['+'] else []) := by
    split <;> decide
  unfold exponentText
  simp only [noControls_append_iff, noControls_cons_iff]
  refine ⟨?_, by decide, hsign, noControls_integerText first⟩
  split
  · simp only [noControls_cons_iff] at h ⊢
    exact ⟨h.1, by decide, h.2⟩
  · exact h

/-- A float is written without control characters, in any format. -/
theorem FloatFormat.noControls_text (format : FloatFormat) (x : Float) :
    NoControls (format.text x) := by
  have hsign : NoControls (if x.toBits >>> 63 = 1 then ['-'] else []) := by
    split <;> decide
  unfold FloatFormat.text
  dsimp only
  split
  · exact (noControls_append_iff _ _).mpr
      ⟨hsign, noControls_positionalText (noControls_digitsOf _) _ _⟩
  · exact (noControls_append_iff _ _).mpr
      ⟨hsign, noControls_exponentText (noControls_digitsOf _) _⟩

end Decimal

namespace Json

private theorem digitChar_ge : ∀ n < 16, 0x20 ≤ (Nat.digitChar n).toNat := by decide

private theorem noControls_escape (c : Char) : NoControls (escape c) := by
  unfold escape
  -- Seven characters have short escapes.
  iterate 7
    split
    · decide
  split
  · next hcontrol =>
    have hhigh : 0x20 ≤ (Nat.digitChar (c.toNat / 16)).toNat := digitChar_ge _ (by omega)
    have hlow : 0x20 ≤ (Nat.digitChar (c.toNat % 16)).toNat := digitChar_ge _ (by omega)
    simp only [noControls_cons_iff]
    exact ⟨by decide, by decide, by decide, by decide, hhigh, hlow, noControls_nil⟩
  · next hcontrol =>
    exact (noControls_cons_iff c []).mpr ⟨Nat.not_lt.mp hcontrol, noControls_nil⟩

theorem noControls_quoted (s : String) : NoControls (quoted s) := by
  have hbody : NoControls (s.toList.flatMap escape) := by
    intro c hmem
    obtain ⟨c', -, hmem⟩ := List.mem_flatMap.mp hmem
    exact noControls_escape c' c hmem
  simp only [quoted, noControls_cons_iff, noControls_append_iff]
  exact ⟨by decide, hbody, by decide, noControls_nil⟩

theorem noControls_numberChars (n : JsonNumber) : NoControls (numberChars n) := by
  cases n with
  | int n => exact Decimal.noControls_integerText n.toInt
  | large n above => exact Decimal.noControls_digitsOf n.toNat
  | float x finite => exact floatFormat.noControls_text x

private theorem noControls_commas :
    ∀ {parts : List (List Char)}, (∀ part ∈ parts, NoControls part) →
    NoControls (parts.intersperse [',']).flatten
  | [], _ => noControls_nil
  | [part], h => by simpa using h
  | part :: next :: parts, h => by
    obtain ⟨hpart, hrest⟩ := List.forall_mem_cons.mp h
    have hcommas := noControls_commas hrest
    simp only [List.intersperse_cons_cons, List.flatten_cons, noControls_append_iff,
      noControls_cons_iff]
    exact ⟨hpart, ⟨by decide, noControls_nil⟩, hcommas⟩

theorem noControls_bracketed {opening closing : Char} (hopening : 0x20 ≤ opening.toNat)
    (hclosing : 0x20 ≤ closing.toNat) {parts : List (List Char)}
    (h : ∀ part ∈ parts, NoControls part) : NoControls (bracketed opening closing parts) := by
  simp only [bracketed, noControls_cons_iff, noControls_append_iff]
  exact ⟨hopening, noControls_commas h, hclosing, noControls_nil⟩

private theorem itemChars_eq_map (items : List Json) : itemChars items = items.map chars := by
  induction items with
  | nil => rw [itemChars, List.map_nil]
  | cons item items ih => rw [itemChars, ih, List.map_cons]

private theorem membersChars_eq_map (members : List (String × Json)) :
    membersChars members = members.map fun e => memberChars e.1 e.2.chars := by
  induction members with
  | nil => rw [membersChars, List.map_nil]
  | cons e members ih => rw [membersChars, ih, List.map_cons]

/-- JSON is written without control characters, by induction on its parts. -/
theorem noControls_chars (j : Json) : NoControls j.chars := by
  induction j using partsInduction with
  | null => decide
  | bool b => cases b <;> decide
  | number n => exact noControls_numberChars n
  | text s => exact noControls_quoted s
  | array items ih =>
    rw [chars, itemChars_eq_map]
    apply noControls_bracketed (by decide) (by decide)
    intro part hmem
    obtain ⟨item, hitem, rfl⟩ := List.mem_map.mp hmem
    exact ih item hitem
  | object members ih =>
    rw [chars, membersChars_eq_map]
    apply noControls_bracketed (by decide) (by decide)
    intro part hmem
    obtain ⟨e, he, rfl⟩ := List.mem_map.mp hmem
    rw [memberChars, noControls_append_iff, noControls_cons_iff]
    exact ⟨noControls_quoted e.1, by decide, ih e he⟩

end Json

end OntologyGraph
