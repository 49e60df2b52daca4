import Mathlib.Data.List.Sort
import OntologyGraph.Proofs.Text.ByteOrder
import OntologyGraph.SortedMap

/-!
Entries in the order of their keys. Inserting entries with distinct keys at their places, one after
the other, comes to sorting them by the bytes of their keys.
-/

namespace OntologyGraph

variable {α β : Type}

def sortedByKey (entries : List (String × α)) : List (String × α) :=
  entries.mergeSort fun a b => decide (Text.bytes a.1 ≤ Text.bytes b.1)

/-- The keys of the entries rise byte by byte, so that none occurs twice. -/
def KeyBytesRise (entries : List (String × α)) : Prop :=
  entries.Pairwise fun a b => Text.BytesBefore a.1 b.1

/-- Rising keys rise by their bytes: the order of strings is that of their encodings. -/
theorem keysRise_iff (entries : List (String × α)) : KeysRise entries ↔ KeyBytesRise entries := by
  unfold KeysRise KeyBytesRise
  simp only [Text.lt_iff_bytesBefore]

theorem bytes_le_iff (a b : String) : Text.bytes a ≤ Text.bytes b ↔ a ≤ b := by
  rw [← List.not_lt, ← not_lt, Text.lt_iff_bytesBefore, Text.BytesBefore]

/-- Sorting by the bytes of keys is sorting by the order of strings. -/
theorem sortedByKey_eq (entries : List (String × α)) :
    sortedByKey entries = entries.mergeSort fun a b => decide (a.1 ≤ b.1) := by
  unfold sortedByKey
  simp only [bytes_le_iff]

theorem sortedByKey_perm (entries : List (String × α)) : (sortedByKey entries).Perm entries :=
  List.mergeSort_perm _ _

theorem sortedByKey_pairwise (entries : List (String × α)) :
    (sortedByKey entries).Pairwise fun a b => a.1 ≤ b.1 := by
  rw [sortedByKey_eq]
  refine (List.pairwise_mergeSort ?_ ?_ entries).imp fun h => of_decide_eq_true h
  · intro a b c hab hbc
    exact decide_eq_true (le_trans (of_decide_eq_true hab) (of_decide_eq_true hbc))
  · intro a b
    simpa using le_total a.1 b.1

/-- Sorted entries without repeated keys have rising keys. -/
theorem keysRise_sortedByKey {entries : List (String × α)} (h : (entries.map (·.1)).Nodup) :
    KeysRise (sortedByKey entries) := by
  have hkeys : ((sortedByKey entries).map (·.1)).Nodup :=
    ((sortedByKey_perm entries).map _).nodup_iff.mpr h
  have hne : (sortedByKey entries).Pairwise fun a b => a.1 ≠ b.1 := List.pairwise_map.mp hkeys
  exact (sortedByKey_pairwise entries).imp₂ (fun a b hle hne => lt_of_le_of_ne hle hne) hne

/-- There is one way only to put entries in rising order. -/
theorem eq_of_perm_of_keysRise {entries entries' : List (String × α)}
    (hperm : entries.Perm entries') (h : KeysRise entries) (h' : KeysRise entries') :
    entries = entries' :=
  hperm.eq_of_pairwise (fun _ _ _ _ hlt hgt => absurd hgt (lt_asymm hlt)) h h'

theorem nodup_keys_of_keysRise {entries : List (String × α)} (h : KeysRise entries) :
    (entries.map (·.1)).Nodup :=
  List.pairwise_map.mpr (h.imp fun hlt => ne_of_lt hlt)

/-- Entries with rising keys are what any rearrangement of them is sorted to. -/
theorem sortedByKey_eq_of_perm {entries entries' : List (String × α)}
    (hperm : entries.Perm entries') (h : KeysRise entries') : sortedByKey entries = entries' := by
  have hkeys : (entries.map (·.1)).Nodup :=
    (hperm.map _).nodup_iff.mpr (nodup_keys_of_keysRise h)
  exact eq_of_perm_of_keysRise ((sortedByKey_perm entries).trans hperm)
    (keysRise_sortedByKey hkeys) h

theorem sortedByKey_of_keysRise {entries : List (String × α)} (h : KeysRise entries) :
    sortedByKey entries = entries :=
  sortedByKey_eq_of_perm (.refl _) h

theorem sortedByKey_idem (entries : List (String × α)) :
    sortedByKey (sortedByKey entries) = sortedByKey entries := by
  rw [sortedByKey_eq (sortedByKey entries)]
  exact List.mergeSort_of_pairwise ((sortedByKey_pairwise entries).imp fun h => decide_eq_true h)

theorem keysRise_map (f : α → β) {entries : List (String × α)} (h : KeysRise entries) :
    KeysRise (entries.map fun e => (e.1, f e.2)) :=
  List.pairwise_map.mpr h

/-- Only keys are looked at, so values can be changed before or after. -/
theorem map_sortedByKey (f : α → β) (entries : List (String × α)) :
    (sortedByKey entries).map (fun e => (e.1, f e.2)) =
      sortedByKey (entries.map fun e => (e.1, f e.2)) :=
  List.map_mergeSort fun _ _ _ _ => rfl

theorem insertSorted_perm {key : String} (value : α) {entries : List (String × α)}
    (h : key ∉ entries.map (·.1)) :
    (insertSorted key value entries).Perm ((key, value) :: entries) := by
  induction entries with
  | nil => exact .refl _
  | cons e entries ih =>
    obtain ⟨k, v⟩ := e
    rw [List.map_cons, List.mem_cons, not_or] at h
    rw [insertSorted]
    split
    · exact .refl _
    · rw [if_neg h.1]
      exact ((ih h.2).cons _).trans (.swap _ _ _)

def insertAllSorted (entries : List (String × α)) : List (String × α) :=
  entries.foldl (fun sorted e => insertSorted e.1 e.2 sorted) []

/-- A sorted map filled with entries, no key twice, has them sorted by key. -/
theorem insertAllSorted_eq {entries : List (String × α)} (h : (entries.map (·.1)).Nodup) :
    insertAllSorted entries = sortedByKey entries := by
  have hfold : ∀ (es sorted : List (String × α)), KeysRise sorted →
      ((sorted ++ es).map (·.1)).Nodup →
      KeysRise (es.foldl (fun sorted e => insertSorted e.1 e.2 sorted) sorted) ∧
        (es.foldl (fun sorted e => insertSorted e.1 e.2 sorted) sorted).Perm (sorted ++ es) := by
    intro es
    induction es with
    | nil => exact fun sorted hrise _ => ⟨hrise, by simp⟩
    | cons e es ih =>
      intro sorted hrise hnodup
      obtain ⟨-, -, hdisjoint⟩ := List.nodup_append.mp (List.map_append ▸ hnodup)
      have hnew : e.1 ∉ sorted.map (·.1) :=
        fun hmem => hdisjoint e.1 hmem e.1 List.mem_cons_self rfl
      have hnext : (insertSorted e.1 e.2 sorted ++ es).Perm (sorted ++ e :: es) :=
        ((insertSorted_perm e.2 hnew).append_right es).trans List.perm_middle.symm
      obtain ⟨hrise', hperm⟩ := ih _ (keysRise_insertSorted e.1 e.2 hrise)
        ((hnext.map _).nodup_iff.mpr hnodup)
      exact ⟨hrise', hperm.trans hnext⟩
  obtain ⟨hrise, hperm⟩ := hfold entries [] .nil h
  exact eq_of_perm_of_keysRise (hperm.trans (sortedByKey_perm entries).symm) hrise
    (keysRise_sortedByKey h)

end OntologyGraph
