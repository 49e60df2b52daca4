import OntologyGraph.TextMap

/-!
Maps without repeated keys: what a lookup gives after one map is put into another, an entry is taken
out, or an entry is put in front.
-/

namespace OntologyGraph.TextMap

variable {α β : Type}

/-- Entries with keys that are all new are added behind those that are there. -/
theorem entries_insertAll {m : TextMap α} {es : List (String × α)}
    (h : (m.keys ++ es.map (·.1)).Nodup) : (m.insertAll es).entries = m.entries ++ es := by
  induction es generalizing m with
  | nil => exact (List.append_nil _).symm
  | cons e es ih =>
    obtain ⟨-, -, hdisjoint⟩ := List.nodup_append.mp h
    have hnew : e.1 ∉ m.entries.map (·.1) :=
      fun hmem => hdisjoint e.1 hmem e.1 List.mem_cons_self rfl
    have hentries : (m.insert e.1 e.2).entries = m.entries ++ [e] := put_keys_of_not_mem hnew
    have hnext : ((m.insert e.1 e.2).keys ++ es.map (·.1)).Nodup := by
      rw [keys, hentries, List.map_append, List.append_assoc]
      exact h
    change ((m.insert e.1 e.2).insertAll es).entries = _
    rw [ih hnext, hentries, List.append_assoc, List.singleton_append]

/-- A map without repeated keys is made of its own entries. -/
theorem ofList_entries {m : TextMap α} (h : m.Unique) : ofList m.entries = m := by
  obtain ⟨entries⟩ := m
  exact congrArg mk (entries_insertAll (m := empty) h)

theorem Unique.mapValues {m : TextMap α} (h : m.Unique) (f : α → β) : (m.mapValues f).Unique := by
  have hkeys : (m.mapValues f).keys = m.keys := by simp [keys, TextMap.mapValues]
  rw [Unique, hkeys]
  exact h

theorem Unique.insertAll {m : TextMap α} (h : m.Unique) (es : List (String × α)) :
    (m.insertAll es).Unique := by
  induction es generalizing m with
  | nil => exact h
  | cons e es ih => exact ih (h.insert e.1 e.2)

theorem unique_ofList (es : List (String × α)) : (ofList es).Unique :=
  Unique.insertAll (m := empty) List.nodup_nil es

private theorem find?_eq_none {key : String} {es : List (String × α)} (h : key ∉ es.map (·.1)) :
    find? key es = none := by
  induction es with
  | nil => rfl
  | cons e es ih =>
    rw [List.map_cons, List.mem_cons, not_or] at h
    rw [find?, if_neg (Ne.symm h.1), ih h.2]

theorem find?_of_mem {es : List (String × α)} (h : (es.map (·.1)).Nodup) {e : String × α}
    (hmem : e ∈ es) : find? e.1 es = some e.2 := by
  induction es with
  | nil => cases hmem
  | cons first es ih =>
    rw [List.map_cons, List.nodup_cons] at h
    rcases List.mem_cons.mp hmem with rfl | hmem
    · rw [find?, if_pos rfl]
    · have hne : first.1 ≠ e.1 := fun heq => h.1 (heq ▸ List.mem_map_of_mem hmem)
      rw [find?, if_neg hne, ih h.2 hmem]

theorem get?_of_mem {m : TextMap α} (h : m.Unique) {e : String × α} (hmem : e ∈ m.entries) :
    m.get? e.1 = some e.2 :=
  find?_of_mem h hmem

theorem mem_of_find? {key : String} {value : α} {es : List (String × α)}
    (h : find? key es = some value) : (key, value) ∈ es := by
  induction es with
  | nil => cases h
  | cons e es ih =>
    rw [find?] at h
    split at h
    · next hkey =>
      cases h
      exact hkey ▸ List.mem_cons_self
    · exact List.mem_cons_of_mem e (ih h)

/-- Without repeated keys, the entries of a map are what its keys hold. -/
theorem mem_entries_iff {m : TextMap α} (h : m.Unique) (key : String) (value : α) :
    (key, value) ∈ m.entries ↔ m.get? key = some value :=
  ⟨get?_of_mem h, mem_of_find?⟩

/-- Where both maps hold a key, the one that is put in wins. -/
theorem get?_insertAll (m : TextMap α) {es : List (String × α)} (h : (es.map (·.1)).Nodup)
    (key : String) : (m.insertAll es).get? key = (find? key es).or (m.get? key) := by
  induction es generalizing m with
  | nil => rfl
  | cons e es ih =>
    rw [List.map_cons, List.nodup_cons] at h
    change ((m.insert e.1 e.2).insertAll es).get? key = _
    rw [ih _ h.2, find?]
    by_cases hkey : e.1 = key
    · subst hkey
      rw [if_pos rfl, find?_eq_none h.1, get?_insert_self, Option.none_or, Option.some_or]
    · rw [if_neg hkey, get?_insert_of_ne _ (Ne.symm hkey)]

/-- Of two maps put together, the one put in last decides what a key holds. -/
theorem get?_insertAll_entries (m : TextMap α) {more : TextMap α} (h : more.Unique)
    (key : String) : (m.insertAll more.entries).get? key = (more.get? key).or (m.get? key) :=
  get?_insertAll m h key

private theorem drop_sublist (key : String) (es : List (String × α)) :
    (drop key es).Sublist es := by
  induction es with
  | nil => exact .slnil
  | cons e es ih =>
    rw [drop]
    split
    · exact List.sublist_cons_self _ _
    · exact ih.cons_cons _

theorem Unique.erase {m : TextMap α} (h : m.Unique) (key : String) : (m.erase key).Unique :=
  ((drop_sublist key m.entries).map Prod.fst).nodup h

private theorem find?_drop_of_ne {key other : String} (h : other ≠ key) (es : List (String × α)) :
    find? other (drop key es) = find? other es := by
  induction es with
  | nil => rfl
  | cons e es ih =>
    rw [drop]
    by_cases hkey : e.1 = key
    · rw [if_pos hkey, find?, if_neg fun heq => h (heq.symm.trans hkey)]
    · rw [if_neg hkey, find?, find?, ih]

private theorem find?_drop_self {key : String} {es : List (String × α)} (h : (es.map (·.1)).Nodup) :
    find? key (drop key es) = none := by
  induction es with
  | nil => rfl
  | cons e es ih =>
    rw [List.map_cons, List.nodup_cons] at h
    rw [drop]
    by_cases hkey : e.1 = key
    · subst hkey
      rw [if_pos rfl, find?_eq_none h.1]
    · rw [if_neg hkey, find?, if_neg hkey, ih h.2]

theorem get?_erase_of_ne (m : TextMap α) {key other : String} (h : other ≠ key) :
    (m.erase key).get? other = m.get? other :=
  find?_drop_of_ne h m.entries

theorem get?_erase_self {m : TextMap α} (h : m.Unique) (key : String) :
    (m.erase key).get? key = none :=
  find?_drop_self h

private theorem mem_put {key : String} {value : α} {e : String × α} {es : List (String × α)}
    (h : e ∈ put key value es) : e = (key, value) ∨ e ∈ es := by
  induction es with
  | nil => exact .inl (List.mem_singleton.mp h)
  | cons first es ih =>
    rw [put] at h
    split at h
    · next hkey =>
      rcases List.mem_cons.mp h with rfl | h
      · exact .inl (by rw [hkey])
      · exact .inr (List.mem_cons_of_mem _ h)
    · rcases List.mem_cons.mp h with rfl | h
      · exact .inr List.mem_cons_self
      · exact (ih h).imp_right (List.mem_cons_of_mem _)

/-- No entry comes from elsewhere when entries are put into a map. -/
theorem mem_of_mem_insertAll {m : TextMap α} {e : String × α} {es : List (String × α)}
    (h : e ∈ (m.insertAll es).entries) : e ∈ m.entries ∨ e ∈ es := by
  induction es generalizing m with
  | nil => exact .inl h
  | cons first es ih =>
    rcases ih h with hmem | hmem
    · rcases mem_put hmem with rfl | hold
      · exact .inr List.mem_cons_self
      · exact .inl hold
    · exact .inr (List.mem_cons_of_mem _ hmem)

/-- Behind the entry that comes first there are entries of the map with other keys. -/
theorem mem_of_mem_withFirst {m : TextMap α} {e first : String × α}
    (h : e ∈ (m.withFirst [first]).entries) : e = first ∨ (e ∈ m.entries ∧ e.1 ≠ first.1) := by
  have hfold : ∀ (es : List (String × α)) (acc : TextMap α), first ∈ acc.entries →
      e ∈ (es.foldl (fun acc e => if acc.contains e.1 then acc else acc.insert e.1 e.2)
        acc).entries → e ∈ acc.entries ∨ (e ∈ es ∧ e.1 ≠ first.1) := by
    intro es
    induction es with
    | nil => exact fun acc _ hmem => .inl hmem
    | cons next es ih =>
      intro acc hfirst hmem
      rw [List.foldl_cons] at hmem
      split at hmem
      · exact (ih acc hfirst hmem).imp_right fun ⟨hes, hne⟩ => ⟨List.mem_cons_of_mem _ hes, hne⟩
      · next hcontains =>
        have hne : next.1 ≠ first.1 := fun heq => hcontains (heq ▸ contains_of_mem hfirst)
        rcases ih _ (mem_put_of_ne (Ne.symm hne) hfirst) hmem with hput | ⟨hes, hother⟩
        · rcases mem_put hput with rfl | hold
          · exact .inr ⟨List.mem_cons_self, hne⟩
          · exact .inl hold
        · exact .inr ⟨List.mem_cons_of_mem _ hes, hother⟩
  rcases hfold m.entries (.ofList [first]) List.mem_cons_self h with hmem | hmem
  · exact .inl (List.mem_singleton.mp hmem)
  · exact .inr hmem

theorem eq_of_entries_eq {m m' : TextMap α} (h : m.entries = m'.entries) : m = m' := by
  cases m
  cases m'
  exact congrArg mk h

theorem contains_iff_mem_keys (m : TextMap α) (key : String) :
    m.contains key = true ↔ key ∈ m.keys := by
  constructor
  · intro hcontains
    by_cases hkey : key ∈ m.keys
    · exact hkey
    · have hnone : m.get? key = none := find?_eq_none hkey
      simp [contains, hnone] at hcontains
  · intro hkey
    obtain ⟨e, hmem, rfl⟩ := List.mem_map.mp hkey
    exact contains_of_mem hmem

/-- Putting a value under one key makes no other key appear or vanish. -/
theorem contains_insert_of_ne (m : TextMap α) {key other : String} (h : other ≠ key) (value : α) :
    (m.insert key value).contains other = m.contains other := by
  simp only [contains, get?_insert_of_ne m h]

/-- A new key goes behind all others. -/
theorem entries_insert_of_new {m : TextMap α} {key : String} (h : m.contains key = false)
    (value : α) : (m.insert key value).entries = m.entries ++ [(key, value)] := by
  apply put_keys_of_not_mem
  intro hkey
  rw [(contains_iff_mem_keys m key).mpr hkey] at h
  cases h

/-- Behind the entries that come first stand those of the map with other keys, in their order. -/
theorem entries_withFirst {m : TextMap α} (h : m.Unique) (first : List (String × α)) :
    (m.withFirst first).entries =
      (ofList first).entries ++ m.entries.filter fun e => !(ofList first).contains e.1 := by
  have hfold : ∀ (es : List (String × α)) (acc : TextMap α), (es.map (·.1)).Nodup →
      (es.foldl (fun acc e => if acc.contains e.1 then acc else acc.insert e.1 e.2) acc).entries =
        acc.entries ++ es.filter fun e => !acc.contains e.1 := by
    intro es
    induction es with
    | nil => simp
    | cons next es ih =>
      intro acc hnodup
      rw [List.map_cons, List.nodup_cons] at hnodup
      rw [List.foldl_cons, List.filter_cons]
      cases hcontains : acc.contains next.1 with
      | true => simpa [hcontains] using ih acc hnodup.2
      | false =>
        -- The keys behind are other keys, so what is added makes no difference to them.
        have hsame : es.filter (fun e => !(acc.insert next.1 next.2).contains e.1) =
            es.filter fun e => !acc.contains e.1 := by
          apply List.filter_congr
          intro e hmem
          have hne : e.1 ≠ next.1 := fun heq => hnodup.1 (heq ▸ List.mem_map_of_mem hmem)
          rw [contains_insert_of_ne acc hne]
        have hentries := ih (acc.insert next.1 next.2) hnodup.2
        rw [hsame, entries_insert_of_new hcontains] at hentries
        simpa using hentries
  exact hfold m.entries (ofList first) h

/-- Erasing a key takes its entry out and leaves the others in their order. -/
theorem entries_erase {m : TextMap α} (h : m.Unique) (key : String) :
    (m.erase key).entries = m.entries.filter fun e => e.1 ≠ key := by
  obtain ⟨es⟩ := m
  change (es.map (·.1)).Nodup at h
  change drop key es = _
  induction es with
  | nil => rfl
  | cons e es ih =>
    rw [List.map_cons, List.nodup_cons] at h
    rw [drop]
    by_cases hkey : e.1 = key
    · have hothers : ∀ e' ∈ es, e'.1 ≠ key := by
        rintro e' hmem rfl
        exact h.1 (hkey ▸ List.mem_map_of_mem hmem)
      have hkeep : es.filter (fun e => e.1 ≠ key) = es :=
        List.filter_eq_self.mpr fun e' hmem => decide_eq_true (hothers e' hmem)
      rw [if_pos hkey, List.filter_cons_of_neg (by simp [hkey]), hkeep]
    · simp [hkey, ih h.2]

theorem not_mem_keys_erase {m : TextMap α} (h : m.Unique) (key : String) :
    key ∉ (m.erase key).keys := by
  rw [keys, entries_erase h, List.mem_map]
  rintro ⟨e, hmem, hkey⟩
  exact of_decide_eq_true (List.mem_filter.mp hmem).2 hkey

theorem erase_of_not_mem {m : TextMap α} {key : String} (h : key ∉ m.keys) : m.erase key = m := by
  obtain ⟨es⟩ := m
  change key ∉ es.map (·.1) at h
  apply congrArg mk
  induction es with
  | nil => rfl
  | cons e es ih =>
    rw [List.map_cons, List.mem_cons, not_or] at h
    rw [drop, if_neg (Ne.symm h.1), ih h.2]

/-- One entry in front of a map takes the place of the map's own entry with its key. -/
theorem entries_withFirst_singleton {m : TextMap α} (h : m.Unique) (e : String × α) :
    (m.withFirst [e]).entries = e :: (m.erase e.1).entries := by
  have hothers : m.entries.filter (fun other => !(ofList [e]).contains other.1) =
      m.entries.filter fun other => other.1 ≠ e.1 := by
    apply List.filter_congr
    intro other _
    rw [Bool.eq_iff_iff, Bool.not_eq_true', ← Bool.not_eq_true, contains_iff_mem_keys]
    simp [keys, ofList, insertAll, insert, empty, put]
  rw [entries_withFirst h, entries_erase h, hothers]
  rfl

end OntologyGraph.TextMap
