import OntologyGraph.Proofs.Schema.Lookups

/-!
The walk on a steady store, where it is a function of the rows that belong to its queries.
-/

namespace OntologyGraph.Schema

open Store Action

variable (answers : Query → List Row)

def parentLabels (label : String) : List String :=
  (answers (aboutClass parentQuery label)).map (cleanLabel · "label")

def declaredRules (label : String) : List (String × Rule) :=
  (answers (aboutClass propertyQuery label)).filterMap (ruleOfRow? label)

def declaredRelationships (label : String) : List Relationship :=
  (answers (aboutClass outgoingQuery label)).map (relationshipOfRow .outgoing label) ++
    (answers (aboutClass incomingQuery label)).map (relationshipOfRow .incoming label)

/-- Rules for properties that have none yet are added in order. -/
def addRules (rules : Rules) (declared : List (String × Rule)) : Rules :=
  declared.foldl (fun rules e => rules.insertNew e.1 e.2) rules

/-- A lineage with one more class, and what that class declares. -/
def Lineage.extend (l : Lineage) (label : String) : Lineage where
  classes := l.classes ++ [label]
  rules := addRules l.rules (declaredRules answers label)
  relationships := l.relationships ++ declaredRelationships answers label

def climb (single : Bool) : Nat → Lineage → String → Except OntologyFault Lineage
  | 0, before, label => .error (.cycle label (before.classes ++ [label]))
  | left + 1, before, label =>
    if before.classes.contains label then .error (.cycle label (before.classes ++ [label]))
    else
      match chooseParent single label (parentLabels answers label) with
      | .error fault => .error fault
      | .ok none => .ok (before.extend answers label)
      | .ok (some parent) => climb single left (before.extend answers label) parent

def lineageOf (settings : OntologySettings) (label : String) : Except OntologyFault Lineage :=
  match (answers (aboutClass classQuery label)).length with
  | 0 => .error (.notFound "ontology node" label)
  | 1 => climb answers settings.singleInheritance settings.maxLineageDepth ⟨[], .empty, []⟩ label
  | n => .error (.multipleFound "ontology node" label n)

/-- A property that has a rule keeps it. -/
theorem get?_addRules (rules : Rules) (declared : List (String × Rule)) (property : String) :
    (addRules rules declared).get? property =
      (rules.get? property).or (declared.lookup property) := by
  induction declared generalizing rules with
  | nil => rw [List.lookup_nil, Option.or_none]; rfl
  | cons e declared ih =>
    obtain ⟨key, rule⟩ := e
    change (addRules (rules.insertNew key rule) declared).get? property = _
    rw [ih, SortedMap.get?_insertNew, lookup_cons_eq_ite, Option.or_assoc]
    split
    · rw [Option.some_or]
    · rw [Option.none_or]

variable {answers}

private theorem rulesOf_endOn (label : String) :
    (rulesOf label).endOn (given answers) = .ok (declaredRules answers label) :=
  rfl

private theorem relationshipsOf_endOn (label : String) :
    (relationshipsOf label).endOn (given answers) = .ok (declaredRelationships answers label) :=
  rfl

private theorem parentOf_endOn (single : Bool) (label : String) :
    (parentOf single label).endOn (given answers) =
      chooseParent single label (parentLabels answers label) :=
  rfl

/-- By induction on the classes left, as both sides recurse. -/
theorem walkFrom_endOn (single : Bool) (left : Nat) (before : Lineage) (label : String) :
    (walkFrom single left before label).endOn (given answers) =
      climb answers single left before label := by
  induction left generalizing before label with
  | zero => rfl
  | succ left ih =>
    simp only [walkFrom, climb]
    split
    · rfl
    · simp only [endOn_bind, rulesOf_endOn, relationshipsOf_endOn, parentOf_endOn, Except.bind]
      cases chooseParent single label (parentLabels answers label) with
      | error fault => rfl
      | ok parent? =>
        cases parent? with
        | none => rfl
        | some parent => exact ih _ parent

/-- Against a store that keeps its answers the walk comes to the lineage these answers give. -/
theorem walk_endOn (settings : OntologySettings) (label : String) :
    (walk settings label).endOn (given answers) = lineageOf answers settings label := by
  have hclasses : (ask classQuery label).endOn (given answers) =
      .ok (answers (aboutClass classQuery label)) := rfl
  have hclimb : _ = climb answers _ _ _ _ := walkFrom_endOn settings.singleInheritance
    settings.maxLineageDepth ⟨[], .empty, []⟩ label
  unfold walk resolve lineageOf
  rw [bind_assoc, endOn_bind, hclasses, Except.bind]
  generalize (answers (aboutClass classQuery label)).length = found
  match found with
  | 0 => rfl
  | 1 => exact hclimb
  | found + 2 => rfl

/-- On a steady store a walk ends as the rows have it. -/
theorem walk_run {σ : Type} {backend : Backend σ} {state : σ}
    (hsteady : backend.Steady answers state) (settings : OntologySettings) (label : String) :
    ((walk settings label).run.run backend state).1 = lineageOf answers settings label :=
  ((walk_lookups settings label).readOnly.run_eq_endOn hsteady).trans (walk_endOn settings label)

end OntologyGraph.Schema
