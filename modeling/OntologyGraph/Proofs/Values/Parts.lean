import OntologyGraph.Value

/-!
Values and JSON values by their parts. Both hold lists of themselves and entries with themselves,
so induction on them needs a rule of its own, by which what is proved of a list or a map may be
assumed of all that it holds.
-/

namespace OntologyGraph

private theorem sizeOf_snd_lt_of_mem {α : Type} [SizeOf α] {e : String × α}
    {entries : List (String × α)} (h : e ∈ entries) : sizeOf e.2 < sizeOf entries := by
  have hmem := List.sizeOf_lt_of_mem h
  obtain ⟨key, value⟩ := e
  simp only [Prod.mk.sizeOf_spec] at hmem ⊢
  omega

namespace Value

@[elab_as_elim]
theorem partsInduction {motive : Value → Prop} (null : motive .null)
    (bool : ∀ b, motive (.bool b)) (int : ∀ n, motive (.int n)) (float : ∀ x, motive (.float x))
    (text : ∀ s, motive (.text s)) (instant : ∀ t, motive (.instant t))
    (list : ∀ items, (∀ item ∈ items, motive item) → motive (.list items))
    (map : ∀ m : TextMap Value, (∀ e ∈ m.entries, motive e.2) → motive (.map m)) :
    ∀ v, motive v
  | .null => null
  | .bool b => bool b
  | .int n => int n
  | .float x => float x
  | .text s => text s
  | .instant t => instant t
  | .list items => list items fun item _ =>
    partsInduction null bool int float text instant list map item
  | .map ⟨entries⟩ => map ⟨entries⟩ fun e _ =>
    partsInduction null bool int float text instant list map e.2
termination_by v => sizeOf v
decreasing_by
  · have := List.sizeOf_lt_of_mem ‹item ∈ items›
    simp only [Value.list.sizeOf_spec]
    omega
  · have := sizeOf_snd_lt_of_mem ‹e ∈ entries›
    simp only [Value.map.sizeOf_spec, TextMap.mk.sizeOf_spec]
    omega

/-- What a value holds, at any depth, the value itself included. -/
inductive PartOf : Value → Value → Prop where
  | refl (v : Value) : PartOf v v
  | item {part item : Value} {items : List Value} : item ∈ items → PartOf part item →
      PartOf part (.list items)
  | entry {part : Value} {e : String × Value} {m : TextMap Value} : e ∈ m.entries →
      PartOf part e.2 → PartOf part (.map m)

def UniqueKeys (v : Value) : Prop :=
  ∀ m, PartOf (.map m) v → m.Unique

theorem uniqueKeys_list_iff (items : List Value) :
    UniqueKeys (.list items) ↔ ∀ item ∈ items, item.UniqueKeys := by
  constructor
  · intro h item hmem m hpart
    exact h m (.item hmem hpart)
  · intro h m hpart
    cases hpart with
    | item hmem hpart => exact h _ hmem m hpart

theorem uniqueKeys_map_iff (m : TextMap Value) :
    UniqueKeys (.map m) ↔ m.Unique ∧ ∀ e ∈ m.entries, e.2.UniqueKeys := by
  constructor
  · intro h
    exact ⟨h m (.refl _), fun e hmem m' hpart => h m' (.entry hmem hpart)⟩
  · rintro ⟨hm, hentries⟩ m' hpart
    cases hpart with
    | refl => exact hm
    | entry hmem hpart => exact hentries _ hmem m' hpart

end Value

namespace Json

@[elab_as_elim]
theorem partsInduction {motive : Json → Prop} (null : motive .null)
    (bool : ∀ b, motive (.bool b)) (number : ∀ n, motive (.number n))
    (text : ∀ s, motive (.text s))
    (array : ∀ items, (∀ item ∈ items, motive item) → motive (.array items))
    (object : ∀ members : List (String × Json), (∀ e ∈ members, motive e.2) →
      motive (.object members)) : ∀ j, motive j
  | .null => null
  | .bool b => bool b
  | .number n => number n
  | .text s => text s
  | .array items => array items fun item _ =>
    partsInduction null bool number text array object item
  | .object members => object members fun e _ =>
    partsInduction null bool number text array object e.2
termination_by j => sizeOf j
decreasing_by
  · have := List.sizeOf_lt_of_mem ‹item ∈ items›
    simp only [Json.array.sizeOf_spec]
    omega
  · have := sizeOf_snd_lt_of_mem ‹e ∈ members›
    simp only [Json.object.sizeOf_spec]
    omega

/-- What a JSON value holds, at any depth, the value itself included. -/
inductive PartOf : Json → Json → Prop where
  | refl (j : Json) : PartOf j j
  | item {part item : Json} {items : List Json} : item ∈ items → PartOf part item →
      PartOf part (.array items)
  | member {part : Json} {e : String × Json} {members : List (String × Json)} : e ∈ members →
      PartOf part e.2 → PartOf part (.object members)

end Json

end OntologyGraph
