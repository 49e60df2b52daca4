import OntologyGraph.Proofs.Maps.Entries

/-!
Maps after insertions, one or many, whatever keys are repeated among them: which keys such a map
has and in which order, and which values it holds.
-/

namespace OntologyGraph.TextMap

variable {α : Type}

/-- A new key comes last; an old one stays where it is. -/
theorem keys_insert (m : TextMap α) (key : String) (value : α) :
    (m.insert key value).keys = if key ∈ m.keys then m.keys else m.keys ++ [key] := by
  split
  · next hkey => exact put_keys_of_mem hkey
  · next hkey =>
    have hentries : (m.insert key value).entries = m.entries ++ [(key, value)] :=
      put_keys_of_not_mem hkey
    rw [keys, hentries, List.map_append]
    rfl

/-- The entries after a value is put under a key, and what the key held before. The first entry of
the key gives way in its place; if there is none, there is a new entry at the end. -/
inductive Puts (key : String) (value : α) :
    List (String × α) → Option α → List (String × α) → Prop where
  | replace {before after : List (String × α)} {old : α} : key ∉ before.map (·.1) →
      Puts key value (before ++ (key, old) :: after) (some old) (before ++ (key, value) :: after)
  | add {entries : List (String × α)} : key ∉ entries.map (·.1) →
      Puts key value entries none (entries ++ [(key, value)])

theorem not_mem_keys_cons {key : String} {e : String × α} (hne : e.1 ≠ key)
    {es : List (String × α)} (h : key ∉ es.map (·.1)) : key ∉ (e :: es).map (·.1) := by
  rw [List.map_cons, List.mem_cons, not_or]
  exact ⟨Ne.symm hne, h⟩

private theorem puts_cons {key : String} {value : α} {e : String × α} (hne : e.1 ≠ key)
    {entries entries' : List (String × α)} {old : Option α}
    (h : Puts key value entries old entries') :
    Puts key value (e :: entries) old (e :: entries') := by
  cases h with
  | replace hbefore => exact .replace (not_mem_keys_cons hne hbefore)
  | add hkey => exact .add (not_mem_keys_cons hne hkey)

/-- Putting a value under a key replaces the first entry of the key, or adds one at the end. -/
theorem puts_put (key : String) (value : α) (entries : List (String × α)) :
    Puts key value entries (find? key entries) (put key value entries) := by
  induction entries with
  | nil => exact .add List.not_mem_nil
  | cons e entries ih =>
    rw [find?, put]
    by_cases hkey : e.1 = key
    · subst hkey
      rw [if_pos rfl, if_pos rfl]
      have hbefore : e.1 ∉ ([] : List (String × α)).map (·.1) := List.not_mem_nil
      exact .replace hbefore
    · rw [if_neg hkey, if_neg hkey]
      exact puts_cons hkey ih

/-- Old keys keep their order. Behind them come the new ones, in the order of their first
entries. -/
theorem keys_insertAll (m : TextMap α) (es : List (String × α)) :
    (m.insertAll es).keys =
      m.keys ++ ((es.map (·.1)).filter fun key => key ∉ m.keys).eraseDups := by
  induction es generalizing m with
  | nil => simp [insertAll]
  | cons e es ih =>
    change ((m.insert e.1 e.2).insertAll es).keys = _
    rw [ih, keys_insert, List.map_cons]
    by_cases hkey : e.1 ∈ m.keys
    · rw [if_pos hkey, List.filter_cons_of_neg (by simpa using hkey)]
    · have hothers : (es.map (·.1)).filter (fun key => key ∉ m.keys ++ [e.1]) =
          ((es.map (·.1)).filter fun key => key ∉ m.keys).filter fun key => !key == e.1 := by
        rw [List.filter_filter]
        apply List.filter_congr
        intro key _
        rw [Bool.eq_iff_iff]
        simp [and_comm]
      rw [if_neg hkey, hothers, List.filter_cons_of_pos (by simpa using hkey),
        List.eraseDups_cons, List.append_assoc, List.singleton_append]

def LastUnder (key : String) (value : α) (es : List (String × α)) : Prop :=
  ∃ before after, es = before ++ (key, value) :: after ∧ key ∉ after.map (·.1)

private theorem lastUnder_cons_iff (key : String) (value : α) (e : String × α)
    (es : List (String × α)) :
    LastUnder key value (e :: es) ↔
      LastUnder key value es ∨ (e = (key, value) ∧ key ∉ es.map (·.1)) := by
  constructor
  · rintro ⟨before, after, hes, hkey⟩
    cases before with
    | nil =>
      cases hes
      exact .inr ⟨rfl, hkey⟩
    | cons first before =>
      cases hes
      exact .inl ⟨before, after, rfl, hkey⟩
  · rintro (⟨before, after, rfl, hkey⟩ | ⟨rfl, hkey⟩)
    · exact ⟨e :: before, after, rfl, hkey⟩
    · exact ⟨[], es, rfl, hkey⟩

theorem LastUnder.mem {key : String} {value : α} {es : List (String × α)}
    (h : LastUnder key value es) : key ∈ es.map (·.1) := by
  obtain ⟨before, after, rfl, -⟩ := h
  simp

/-- A key has the last value that is put under it, or the one it had if none is. -/
theorem get?_insertAll_eq_some_iff (m : TextMap α) (es : List (String × α)) (key : String)
    (value : α) :
    (m.insertAll es).get? key = some value ↔
      LastUnder key value es ∨ (key ∉ es.map (·.1) ∧ m.get? key = some value) := by
  induction es generalizing m with
  | nil =>
    have hnone : ¬ LastUnder key value [] := fun h => nomatch h.mem
    simp [insertAll, hnone]
  | cons e es ih =>
    change ((m.insert e.1 e.2).insertAll es).get? key = some value ↔ _
    rw [ih, lastUnder_cons_iff, List.map_cons, List.mem_cons, not_or, or_assoc]
    refine or_congr_right ?_
    by_cases hkey : key = e.1
    · subst hkey
      simp [get?_insert_self, and_comm, Prod.ext_iff]
    · have hne : e ≠ (key, value) := fun heq => hkey (congrArg Prod.fst heq).symm
      simp [get?_insert_of_ne m hkey, hkey, hne]

/-- A map made of entries has their keys, each where it first occurs. -/
theorem keys_ofList (es : List (String × α)) : (ofList es).keys = (es.map (·.1)).eraseDups := by
  have hkeys := keys_insertAll empty es
  have hall : (es.map (·.1)).filter (fun key => key ∉ (empty : TextMap α).keys) =
      es.map (·.1) :=
    List.filter_eq_self.mpr fun key _ => by simp [empty, keys]
  rw [hall] at hkeys
  exact hkeys

/-- A map made of entries holds under a key the last value given for it. -/
theorem get?_ofList_eq_some_iff (es : List (String × α)) (key : String) (value : α) :
    (ofList es).get? key = some value ↔ LastUnder key value es := by
  have hnone : (empty : TextMap α).get? key = none := rfl
  rw [ofList, get?_insertAll_eq_some_iff, hnone]
  simp

/-- Maps without repeated keys are the same if they have the same keys in the same order and hold
the same values. -/
theorem eq_of_keys_eq {m m' : TextMap α} (h : m.Unique) (hkeys : m.keys = m'.keys)
    (hvalues : ∀ key value, m.get? key = some value → m'.get? key = some value) : m = m' := by
  have h' : m'.Unique := by rwa [Unique, ← hkeys]
  have hlength : m.entries.length = m'.entries.length := by
    simpa [keys] using congrArg List.length hkeys
  apply eq_of_entries_eq
  apply List.ext_getElem hlength
  intro i hi hi'
  have hkey : m.entries[i].1 = m'.entries[i].1 := by
    have hget := List.getElem_of_eq hkeys (i := i) (by simpa [keys] using hi)
    simpa [keys] using hget
  have hvalue := hvalues _ _ (get?_of_mem h (List.getElem_mem hi))
  rw [hkey, get?_of_mem h' (List.getElem_mem hi')] at hvalue
  exact Prod.ext hkey (Option.some.inj hvalue).symm

end OntologyGraph.TextMap
