/-!
Maps with text keys in rising order. Texts are ordered by the code points of their characters,
which is also the order of their bytes.
-/

namespace OntologyGraph

variable {α : Type}

/-- Inserts an entry at its place in a sorted list, over an entry with the same key. -/
def insertSorted (key : String) (value : α) : List (String × α) → List (String × α)
  | [] => [(key, value)]
  | (k, v) :: es =>
    if key < k then (key, value) :: (k, v) :: es
    else if key = k then (key, value) :: es
    else (k, v) :: insertSorted key value es

/-- Keys rise from entry to entry, so that none occurs twice. -/
def KeysRise (entries : List (String × α)) : Prop :=
  entries.Pairwise fun a b => a.1 < b.1

theorem mem_insertSorted {key : String} {value : α} {es : List (String × α)} {e : String × α}
    (h : e ∈ insertSorted key value es) : e = (key, value) ∨ e ∈ es := by
  induction es with
  | nil => simpa [insertSorted] using h
  | cons head es ih =>
    obtain ⟨k, v⟩ := head
    simp only [insertSorted] at h
    split at h
    · simpa using h
    · split at h
      · simp only [List.mem_cons] at h ⊢
        exact h.imp_right .inr
      · simp only [List.mem_cons] at h ⊢
        rcases h with h | h
        · exact .inr (.inl h)
        · exact (ih h).imp_right .inr

theorem keysRise_insertSorted (key : String) (value : α) {es : List (String × α)}
    (h : KeysRise es) : KeysRise (insertSorted key value es) := by
  induction es with
  | nil => simp [insertSorted, KeysRise]
  | cons head es ih =>
    obtain ⟨k, v⟩ := head
    simp only [KeysRise, List.pairwise_cons] at h
    simp only [insertSorted]
    split
    · next hlt =>
      simp only [KeysRise, List.pairwise_cons, List.mem_cons]
      refine ⟨?_, h⟩
      rintro e (rfl | he)
      · exact hlt
      · exact String.lt_trans hlt (h.1 e he)
    · next hlt =>
      split
      · next heq =>
        simp only [KeysRise, List.pairwise_cons]
        exact ⟨fun e he => heq ▸ h.1 e he, h.2⟩
      · next hne =>
        simp only [KeysRise, List.pairwise_cons]
        refine ⟨fun e he => ?_, ih h.2⟩
        rcases mem_insertSorted he with rfl | he
        · exact Std.lt_of_le_of_ne (Std.not_lt.mp hlt) (fun h => hne h.symm)
        · exact h.1 e he

theorem lookup_cons_eq_ite (k key : String) (value : α) (es : List (String × α)) :
    ((key, value) :: es).lookup k = if k = key then some value else es.lookup k := by
  by_cases h : k = key
  · rw [h, List.lookup_cons_self, if_pos rfl]
  · rw [List.lookup_cons, beq_false_of_ne h, if_neg h]

theorem lookup_insertSorted (key : String) (value : α) (es : List (String × α)) (k : String) :
    (insertSorted key value es).lookup k = if k = key then some value else es.lookup k := by
  induction es with
  | nil => exact lookup_cons_eq_ite k key value []
  | cons head es ih =>
    obtain ⟨k', v'⟩ := head
    simp only [insertSorted]
    split
    · exact lookup_cons_eq_ite k key value _
    · split
      · next heq =>
        subst heq
        rw [lookup_cons_eq_ite, lookup_cons_eq_ite]
        split <;> rfl
      · next hne =>
        rw [lookup_cons_eq_ite, lookup_cons_eq_ite, ih]
        split
        · next heq => rw [if_neg (heq ▸ Ne.symm hne)]
        · rfl

/-- The keys of the entries behind one that keeps the keys rising are not its key. -/
theorem lookup_eq_none_of_rise {k : String} {v : α} {es : List (String × α)}
    (h : KeysRise ((k, v) :: es)) {k' : String} (hle : k' ≤ k) : es.lookup k' = none := by
  rw [List.lookup_eq_none_iff]
  intro e he
  have hlt : k < e.1 := (List.pairwise_cons.mp h).1 e he
  rw [bne_iff_ne]
  rintro rfl
  exact hle hlt

structure SortedMap (α : Type) where
  entries : List (String × α) := []
  rising : KeysRise entries := by exact List.Pairwise.nil

namespace SortedMap

instance [DecidableEq α] : DecidableEq (SortedMap α) := fun a b =>
  decidable_of_iff (a.entries = b.entries) (by cases a; cases b; simp)

def empty : SortedMap α := {}

instance : Inhabited (SortedMap α) := ⟨empty⟩

def keys (m : SortedMap α) : List String :=
  m.entries.map (·.1)

def isEmpty (m : SortedMap α) : Bool :=
  m.entries.isEmpty

def get? (m : SortedMap α) (key : String) : Option α :=
  m.entries.lookup key

def contains (m : SortedMap α) (key : String) : Bool :=
  (m.get? key).isSome

/-- Inserts an entry; of two values for one key the later stays. -/
def insert (m : SortedMap α) (key : String) (value : α) : SortedMap α :=
  ⟨insertSorted key value m.entries, keysRise_insertSorted key value m.rising⟩

/-- Inserts an entry unless the key has one; of two values for one key the earlier stays. -/
def insertNew (m : SortedMap α) (key : String) (value : α) : SortedMap α :=
  if m.contains key then m else m.insert key value

def ofList (entries : List (String × α)) : SortedMap α :=
  entries.foldl (fun m e => m.insert e.1 e.2) empty

theorem get?_insert (m : SortedMap α) (key : String) (value : α) (k : String) :
    (m.insert key value).get? k = if k = key then some value else m.get? k :=
  lookup_insertSorted key value m.entries k

theorem get?_insertNew (m : SortedMap α) (key : String) (value : α) (k : String) :
    (m.insertNew key value).get? k = (m.get? k).or (if k = key then some value else none) := by
  unfold insertNew contains
  split
  · next hkey =>
    split
    · next heq =>
      rw [heq, Option.or_of_isSome hkey]
    · rw [Option.or_none]
  · next hkey =>
    rw [get?_insert]
    split
    · next heq =>
      rw [heq, Option.not_isSome_iff_eq_none.mp hkey, Option.none_or]
    · rw [Option.or_none]

theorem mem_keys_iff (m : SortedMap α) (key : String) :
    key ∈ m.keys ↔ (m.get? key).isSome = true := by
  rw [get?, List.lookup_isSome_iff, keys, List.mem_map]
  simp only [beq_iff_eq]
  exact exists_congr fun _ => and_congr_right fun _ => eq_comm

theorem mem_entries_iff (m : SortedMap α) (key : String) (value : α) :
    (key, value) ∈ m.entries ↔ m.get? key = some value := by
  rw [get?, List.lookup_eq_some_iff]
  constructor
  · intro hmem
    obtain ⟨before, after, hentries⟩ := List.append_of_mem hmem
    refine ⟨before, after, hentries, fun e he => ?_⟩
    have hrise : KeysRise (before ++ (key, value) :: after) := hentries ▸ m.rising
    have hlt : e.1 < key := (List.pairwise_append.mp hrise).2.2 e he _ List.mem_cons_self
    rw [bne_iff_ne]
    rintro rfl
    exact String.lt_irrefl _ hlt
  · rintro ⟨before, after, hentries, -⟩
    rw [hentries]
    exact List.mem_append_right before List.mem_cons_self

/-- Maps that hold the same are the same: the lesser of two first keys stands in both. -/
theorem eq_of_get?_eq {m m' : SortedMap α} (h : ∀ k, m.get? k = m'.get? k) : m = m' := by
  obtain ⟨es, hrise⟩ := m
  obtain ⟨es', hrise'⟩ := m'
  congr 1
  change ∀ k, es.lookup k = es'.lookup k at h
  induction es generalizing es' with
  | nil =>
    match es' with
    | [] => rfl
    | (k, v) :: _ =>
      have hk := h k
      rw [List.lookup_cons_self] at hk
      cases hk
  | cons head es ih =>
    obtain ⟨k, v⟩ := head
    match es' with
    | [] =>
      have hk := h k
      rw [List.lookup_cons_self] at hk
      cases hk
    | (k', v') :: es' =>
      have hkey : k = k' := by
        refine Classical.byContradiction fun hne => ?_
        rcases Std.le_total (a := k) (b := k') with hle | hle
        · have hk := h k
          rw [List.lookup_cons_self, lookup_cons_eq_ite, if_neg hne,
            lookup_eq_none_of_rise hrise' hle] at hk
          cases hk
        · have hk := h k'
          rw [List.lookup_cons_self, lookup_cons_eq_ite, if_neg (Ne.symm hne),
            lookup_eq_none_of_rise hrise hle] at hk
          cases hk
      subst hkey
      have hvalue := h k
      rw [List.lookup_cons_self, List.lookup_cons_self, Option.some.injEq] at hvalue
      subst hvalue
      rw [ih (List.pairwise_cons.mp hrise).2 es' (List.pairwise_cons.mp hrise').2]
      intro k'
      by_cases heq : k' = k
      · have hle : k' ≤ k := heq ▸ Std.le_refl k
        rw [lookup_eq_none_of_rise hrise hle, lookup_eq_none_of_rise hrise' hle]
      · have hrest := h k'
        rwa [lookup_cons_eq_ite, lookup_cons_eq_ite, if_neg heq, if_neg heq] at hrest

end SortedMap

end OntologyGraph
