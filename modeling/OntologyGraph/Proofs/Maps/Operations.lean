import OntologyGraph.Proofs.Maps.Insertions
import OntologyGraph.PropertyMap

/-!
Property maps under all that can be done to them. Nothing in the type of maps keeps a key from
occurring twice, but no operation makes one do so, and on maps without repeated keys each operation
changes the entries that it is about and leaves the others in their order.
-/

namespace OntologyGraph

namespace TextMap

variable {α : Type}

/-- The entries after a key is taken out, and what the key held before. Its entry is gone, and those
before and behind it are as they were. -/
inductive Takes (key : String) :
    List (String × α) → Option α → List (String × α) → Prop where
  | found {before after : List (String × α)} {old : α} : key ∉ before.map (·.1) →
      key ∉ after.map (·.1) → Takes key (before ++ (key, old) :: after) (some old) (before ++ after)
  | absent {entries : List (String × α)} : key ∉ entries.map (·.1) → Takes key entries none entries

private theorem takes_cons {key : String} {e : String × α} (hne : e.1 ≠ key)
    {entries entries' : List (String × α)} {old : Option α} (h : Takes key entries old entries') :
    Takes key (e :: entries) old (e :: entries') := by
  cases h with
  | found hbefore hafter => exact .found (not_mem_keys_cons hne hbefore) hafter
  | absent hkey => exact .absent (not_mem_keys_cons hne hkey)

private theorem takes_drop (key : String) {entries : List (String × α)}
    (h : (entries.map (·.1)).Nodup) : Takes key entries (find? key entries) (drop key entries) := by
  induction entries with
  | nil => exact .absent List.not_mem_nil
  | cons e entries ih =>
    rw [List.map_cons, List.nodup_cons] at h
    rw [find?, drop]
    by_cases hkey : e.1 = key
    · subst hkey
      rw [if_pos rfl, if_pos rfl]
      have hbefore : e.1 ∉ ([] : List (String × α)).map (·.1) := List.not_mem_nil
      exact .found hbefore h.1
    · rw [if_neg hkey, if_neg hkey]
      exact takes_cons hkey (ih h.2)

structure Inserts (m : TextMap α) (key : String) (value : α) (old : Option α) (m' : TextMap α) :
    Prop where
  entries : Puts key value m.entries old m'.entries
  set : m'.get? key = some value
  kept : ∀ other, other ≠ key → m'.get? other = m.get? other

theorem inserts_exchange (m : TextMap α) (key : String) (value : α) :
    m.Inserts key value (m.exchange key value).1 (m.exchange key value).2 where
  entries := puts_put key value m.entries
  set := get?_insert_self m key value
  kept _ hne := get?_insert_of_ne m hne value

structure Removes (m : TextMap α) (key : String) (old : Option α) (m' : TextMap α) : Prop where
  entries : Takes key m.entries old m'.entries
  gone : m'.get? key = none
  kept : ∀ other, other ≠ key → m'.get? other = m.get? other

/-- Taking a key out gives back its value and leaves the other entries in their order. -/
theorem removes_extract {m : TextMap α} (h : m.Unique) (key : String) :
    m.Removes key (m.extract key).1 (m.extract key).2 where
  entries := takes_drop key h
  gone := get?_erase_self h key
  kept _ hne := get?_erase_of_ne m hne

/-- A map after entries are put into another. The old keys stand first, and the new ones behind them
in the order in which they first occur. A key of the entries has its last value among them. -/
structure Extends (m : TextMap α) (es : List (String × α)) (m' : TextMap α) : Prop where
  unique : m'.Unique
  keys : m'.keys = m.keys ++ ((es.map (·.1)).filter fun key => key ∉ m.keys).eraseDups
  given : ∀ key value, LastUnder key value es → m'.get? key = some value
  kept : ∀ key, key ∉ es.map (·.1) → m'.get? key = m.get? key

/-- New keys go behind the old ones, and a key given again has the last value given. -/
theorem extends_insertAll {m : TextMap α} (h : m.Unique) (es : List (String × α)) :
    m.Extends es (m.insertAll es) where
  unique := h.insertAll es
  keys := keys_insertAll m es
  given key value hlast := (get?_insertAll_eq_some_iff m es key value).mpr (.inl hlast)
  kept key hkey := by
    apply Option.ext
    intro value
    have hnone : ¬ LastUnder key value es := fun hlast => hkey hlast.mem
    simp [get?_insertAll_eq_some_iff, hnone, hkey]

theorem extends_ofList (es : List (String × α)) : Extends empty es (ofList es) :=
  extends_insertAll (m := empty) List.nodup_nil es

private theorem mem_keys_ofList (es : List (String × α)) (key : String) :
    key ∈ (ofList es).keys ↔ key ∈ es.map (·.1) := by
  rw [keys_ofList, List.mem_eraseDups]

/-- The entries of a map that others with their keys do not push out. -/
def others (m : TextMap α) (es : List (String × α)) : List (String × α) :=
  m.entries.filter fun e => e.1 ∉ es.map (·.1)

/-- The entries that are to stand first do so, and the other entries keep their order behind. -/
theorem entries_withFirst_others {m : TextMap α} (h : m.Unique) (first : List (String × α)) :
    (m.withFirst first).entries = (ofList first).entries ++ m.others first := by
  have hothers : m.entries.filter (fun e => !(ofList first).contains e.1) = m.others first := by
    apply List.filter_congr
    intro e _
    rw [Bool.eq_iff_iff, Bool.not_eq_true', ← Bool.not_eq_true, contains_iff_mem_keys,
      mem_keys_ofList, decide_eq_true_eq]
  rw [entries_withFirst h, hothers]

theorem Unique.withFirst {m : TextMap α} (h : m.Unique) (first : List (String × α)) :
    (m.withFirst first).Unique := by
  have hothers : ((m.others first).map (·.1)).Nodup :=
    (List.filter_sublist.map Prod.fst).nodup h
  have hdisjoint : ∀ key ∈ (ofList first).keys, ∀ other ∈ (m.others first).map (·.1),
      key ≠ other := by
    rintro key hkey other hother rfl
    obtain ⟨e, hmem, rfl⟩ := List.mem_map.mp hother
    have hnot : e.1 ∉ first.map (·.1) := of_decide_eq_true (List.mem_filter.mp hmem).2
    exact hnot ((mem_keys_ofList first e.1).mp hkey)
  rw [Unique, keys, entries_withFirst_others h, List.map_append, List.nodup_append]
  exact ⟨unique_ofList first, hothers, hdisjoint⟩

end TextMap

namespace PropertyMap

open TextMap

/-- Collecting the texts of the values loses no entry. -/
theorem stringified_eq_ofList {m : PropertyMap} (h : m.Unique) :
    m.stringified = .ofList (m.entries.map fun e => (e.1, .text e.2.toText)) :=
  (ofList_entries (h.mapValues fun v => Value.text v.toText)).symm

/-- What can be done to a map. Collecting makes a new one, whatever the old one was. -/
inductive Operation where
  | insert (key : String) (value : Value)
  | remove (key : String)
  | extend (entries : List (String × Value))
  | collect (entries : List (String × Value))
  | putFirst (first : List (String × Value))
  | stringify

def Operation.apply : Operation → PropertyMap → PropertyMap
  | .insert key value, m => (m.exchange key value).2
  | .remove key, m => (m.extract key).2
  | .extend entries, m => m.insertAll entries
  | .collect entries, _ => .ofList entries
  | .putFirst first, m => m.withFirst first
  | .stringify, m => m.stringified

def madeBy (operations : List Operation) : PropertyMap :=
  operations.foldl (fun m operation => operation.apply m) .empty

/-- No operation on a map repeats a key. -/
theorem Operation.unique_apply (operation : Operation) {m : PropertyMap} (h : m.Unique) :
    (operation.apply m).Unique := by
  cases operation with
  | insert key value => exact h.insert key value
  | remove key => exact h.erase key
  | extend entries => exact h.insertAll entries
  | collect entries => exact unique_ofList entries
  | putFirst first => exact h.withFirst first
  | stringify => exact h.mapValues fun v => Value.text v.toText

/-- By induction on the operations, a map never repeats a key. -/
theorem unique_madeBy (operations : List Operation) : (madeBy operations).Unique := by
  have hfold : ∀ (operations : List Operation) (m : PropertyMap), m.Unique →
      (operations.foldl (fun m operation => operation.apply m) m).Unique := by
    intro operations
    induction operations with
    | nil => exact fun m h => h
    | cons operation operations ih => exact fun m h => ih _ (operation.unique_apply h)
  exact hfold operations .empty List.nodup_nil

/-- A map in which every entry can be looked up by its key, with what each operation makes of the
map and gives back. -/
structure InOrder (m : PropertyMap) : Prop where
  unique : m.keys.Nodup
  held : ∀ key value, m.get? key = some value ↔ (key, value) ∈ m.entries
  contained : ∀ key, m.contains key = true ↔ key ∈ m.keys
  inserted : ∀ key value, m.Inserts key value (m.exchange key value).1 (m.exchange key value).2
  removed : ∀ key, m.Removes key (m.extract key).1 (m.extract key).2
  extended : ∀ entries, m.Extends entries (m.insertAll entries)
  collected : ∀ entries : List (String × Value), Extends .empty entries (.ofList entries)
  putFirst : ∀ first, ∃ front, Extends .empty first front ∧
    (m.withFirst first).entries = front.entries ++ m.others first
  stringified : m.stringified.entries = m.entries.map fun e => (e.1, .text e.2.toText)
  /-- The texts can as well be collected one after the other. -/
  recollected : m.stringified = .ofList (m.entries.map fun e => (e.1, .text e.2.toText))

/-- What is said of maps in order holds of any map without repeated keys. -/
theorem inOrder_of_unique {m : PropertyMap} (h : m.Unique) : m.InOrder where
  unique := h
  held key value := (mem_entries_iff h key value).symm
  contained := contains_iff_mem_keys m
  inserted key value := inserts_exchange m key value
  removed key := removes_extract h key
  extended entries := extends_insertAll h entries
  collected := extends_ofList
  putFirst first := ⟨.ofList first, extends_ofList first, entries_withFirst_others h first⟩
  stringified := rfl
  recollected := stringified_eq_ofList h

/-- Whatever has been done to a map that was empty at first, no key occurs in it twice, and every
operation that may come next keeps the order of the entries. -/
theorem madeBy_inOrder (operations : List Operation) : (madeBy operations).InOrder :=
  inOrder_of_unique (unique_madeBy operations)

example :
    (madeBy [.insert "b" .null, .extend [("a", .null), ("b", .null)], .putFirst [("c", .null)],
      .remove "b", .insert "b" .null]).keys = ["c", "a", "b"] := by decide

end PropertyMap

end OntologyGraph
