/-!
Maps with text keys that remember the order of insertion. A key keeps the place of its first
insertion and holds the value of its last. Equality of maps is that of their entries, order
included.
-/

namespace OntologyGraph

structure TextMap (α : Type) where
  entries : List (String × α) := []
deriving Repr, DecidableEq

namespace TextMap

variable {α β : Type}

/-- The value of the first entry with a key. -/
def find? (key : String) : List (String × α) → Option α
  | [] => none
  | (k, v) :: es => if k = key then some v else find? key es

/-- Replaces the value of the first entry with a key, or adds an entry at the end. -/
def put (key : String) (value : α) : List (String × α) → List (String × α)
  | [] => [(key, value)]
  | (k, v) :: es => if k = key then (k, value) :: es else (k, v) :: put key value es

/-- Removes the first entry with a key. -/
def drop (key : String) : List (String × α) → List (String × α)
  | [] => []
  | (k, v) :: es => if k = key then es else (k, v) :: drop key es

def empty : TextMap α := ⟨[]⟩

instance : EmptyCollection (TextMap α) := ⟨empty⟩

instance : Inhabited (TextMap α) := ⟨empty⟩

def keys (m : TextMap α) : List String :=
  m.entries.map (·.1)

def size (m : TextMap α) : Nat :=
  m.entries.length

def isEmpty (m : TextMap α) : Bool :=
  m.entries.isEmpty

def get? (m : TextMap α) (key : String) : Option α :=
  find? key m.entries

def contains (m : TextMap α) (key : String) : Bool :=
  (m.get? key).isSome

def insert (m : TextMap α) (key : String) (value : α) : TextMap α :=
  ⟨put key value m.entries⟩

def erase (m : TextMap α) (key : String) : TextMap α :=
  ⟨drop key m.entries⟩

/-- Inserts an entry, and gives back the value that the key held before. -/
def exchange (m : TextMap α) (key : String) (value : α) : Option α × TextMap α :=
  (m.get? key, m.insert key value)

/-- Removes a key, and gives back the value that it held. -/
def extract (m : TextMap α) (key : String) : Option α × TextMap α :=
  (m.get? key, m.erase key)

/-- Inserts entries one after the other. -/
def insertAll (m : TextMap α) (entries : List (String × α)) : TextMap α :=
  entries.foldl (fun m e => m.insert e.1 e.2) m

def ofList (entries : List (String × α)) : TextMap α :=
  empty.insertAll entries

/-- The given entries first, then every entry of the map whose key is not among them. -/
def withFirst (m : TextMap α) (first : List (String × α)) : TextMap α :=
  m.entries.foldl (fun acc e => if acc.contains e.1 then acc else acc.insert e.1 e.2) (ofList first)

def mapValues (f : α → β) (m : TextMap α) : TextMap β :=
  ⟨m.entries.map fun (k, v) => (k, f v)⟩

theorem find?_put_self (key : String) (value : α) (es : List (String × α)) :
    find? key (put key value es) = some value := by
  induction es with
  | nil => simp [put, find?]
  | cons e es ih =>
    obtain ⟨k, v⟩ := e
    by_cases h : k = key
    · simp [put, find?, h]
    · simp [put, find?, h, ih]

theorem find?_put_of_ne {key other : String} (h : other ≠ key) (value : α)
    (es : List (String × α)) : find? other (put key value es) = find? other es := by
  induction es with
  | nil => simp [put, find?, Ne.symm h]
  | cons e es ih =>
    obtain ⟨k, v⟩ := e
    by_cases hk : k = key
    · subst hk
      simp [put, find?, Ne.symm h]
    · by_cases ho : k = other
      · subst ho
        simp [put, find?, hk]
      · simp [put, find?, hk, ho, ih]

theorem get?_insert_self (m : TextMap α) (key : String) (value : α) :
    (m.insert key value).get? key = some value :=
  find?_put_self key value m.entries

theorem get?_insert_of_ne (m : TextMap α) {key other : String} (h : other ≠ key) (value : α) :
    (m.insert key value).get? other = m.get? other :=
  find?_put_of_ne h value m.entries

/-- No key occurs twice. -/
def Unique (m : TextMap α) : Prop :=
  m.keys.Nodup

theorem put_keys_of_mem {key : String} {value : α} {es : List (String × α)}
    (h : key ∈ es.map (·.1)) : (put key value es).map (·.1) = es.map (·.1) := by
  induction es with
  | nil => simp at h
  | cons e es ih =>
    obtain ⟨k, v⟩ := e
    by_cases hk : k = key
    · simp [put, hk]
    · rw [List.map_cons, List.mem_cons] at h
      have hmem := h.resolve_left fun h' => hk h'.symm
      simp [put, hk, ih hmem]

theorem put_keys_of_not_mem {key : String} {value : α} {es : List (String × α)}
    (h : key ∉ es.map (·.1)) : put key value es = es ++ [(key, value)] := by
  induction es with
  | nil => rfl
  | cons e es ih =>
    obtain ⟨k, v⟩ := e
    simp only [List.map_cons, List.mem_cons, not_or] at h
    have hk : ¬ k = key := fun h' => h.1 h'.symm
    simp [put, hk, ih h.2]

theorem Unique.insert {m : TextMap α} (h : m.Unique) (key : String) (value : α) :
    (m.insert key value).Unique := by
  by_cases hk : key ∈ m.entries.map (·.1)
  · simpa [Unique, keys, TextMap.insert, put_keys_of_mem hk] using h
  · have h' : (m.entries.map (·.1)).Nodup := h
    simp only [Unique, keys, TextMap.insert, put_keys_of_not_mem hk, List.map_append,
      List.map_cons, List.map_nil]
    rw [List.nodup_append]
    refine ⟨h', by simp, ?_⟩
    intro a ha b hb hab
    simp only [List.mem_singleton] at hb
    exact hk (hb ▸ hab ▸ ha)

theorem mem_put_of_ne {key : String} {value : α} {e : String × α} (hne : e.1 ≠ key)
    {es : List (String × α)} (hmem : e ∈ es) : e ∈ put key value es := by
  induction es with
  | nil => cases hmem
  | cons head es ih =>
    obtain ⟨k, v⟩ := head
    unfold put
    split
    · next hkey =>
      rcases List.mem_cons.mp hmem with rfl | hmem
      · exact absurd hkey hne
      · exact List.mem_cons_of_mem _ hmem
    · rcases List.mem_cons.mp hmem with rfl | hmem
      · exact List.mem_cons_self
      · exact List.mem_cons_of_mem _ (ih hmem)

theorem contains_of_mem {m : TextMap α} {e : String × α} (hmem : e ∈ m.entries) :
    m.contains e.1 = true := by
  obtain ⟨entries⟩ := m
  change (find? e.1 entries).isSome = true
  change e ∈ entries at hmem
  induction entries with
  | nil => cases hmem
  | cons head es ih =>
    obtain ⟨k, v⟩ := head
    unfold find?
    split
    · rfl
    · next hkey =>
      rcases List.mem_cons.mp hmem with rfl | hmem
      · exact absurd rfl hkey
      · exact ih hmem

/-- Later entries do not take the place of one that is there. -/
theorem mem_withFirst (m : TextMap α) (e : String × α) :
    e ∈ (m.withFirst [e]).entries := by
  have hfold : ∀ (es : List (String × α)) (acc : TextMap α), e ∈ acc.entries →
      e ∈ (es.foldl (fun acc e => if acc.contains e.1 then acc else acc.insert e.1 e.2)
        acc).entries := by
    intro es
    induction es with
    | nil => exact fun acc hmem => hmem
    | cons next es ih =>
      intro acc hmem
      apply ih
      dsimp only
      split
      · exact hmem
      · next hcontains =>
        apply mem_put_of_ne _ hmem
        intro hkey
        exact hcontains (hkey ▸ contains_of_mem hmem)
  exact hfold m.entries (.ofList [e]) List.mem_cons_self

end TextMap

end OntologyGraph
