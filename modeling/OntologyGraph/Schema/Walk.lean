import OntologyGraph.Schema.Lineage
import OntologyGraph.Settings
import OntologyGraph.Store.Program
import OntologyGraph.Text.Blank

/-!
The walk from a class to its root. It collects the rules and relationships that each class on the
way declares; of several rules for one property the closest to the start stays.
-/

namespace OntologyGraph.Schema

open Store

def classQuery : String :=
  "MATCH (o:OntologyNode \x7blabel: $label\x7d) RETURN o.label AS label"

def parentQuery : String :=
  "MATCH (o:OntologyNode \x7blabel: $label\x7d)-[:SUBCLASS_OF]->(t:OntologyNode) " ++
    "RETURN t.label AS label ORDER BY label"

def propertyQuery : String :=
  "MATCH (o:OntologyNode \x7blabel: $label\x7d)-[r:HAS_PROPERTY|REQUIRE_PROPERTY]->" ++
    "(p:OntologyProperty) " ++
    "RETURN type(r) AS type, p.label AS property, p.type AS datatype ORDER BY property"

def outgoingQuery : String :=
  "MATCH (o:OntologyNode \x7blabel: $label\x7d)-[:HAS_RELATIONSHIP]->(r:OntologyRelationship)" ++
    "-[:HAS_TARGET]->(t:OntologyNode) " ++
    "RETURN r.label AS relationship, t.label AS other ORDER BY relationship, other"

def incomingQuery : String :=
  "MATCH (s:OntologyNode)-[:HAS_RELATIONSHIP]->(r:OntologyRelationship)" ++
    "-[:HAS_TARGET]->(o:OntologyNode \x7blabel: $label\x7d) " ++
    "RETURN r.label AS relationship, s.label AS other ORDER BY relationship, other"

/-- A query about the class `label`. -/
def aboutClass (text label : String) : Query :=
  ⟨text, .ofList [("label", .text label)]⟩

/-- A label column without the backticks that may stand around the label. -/
def cleanLabel (row : Row) (column : String) : String :=
  String.ofList (Text.stripBoth (· = '\x60') (row.text column).toList)

abbrev SchemaAction := Action OntologyFault

def ask (text label : String) : SchemaAction (List Row) :=
  Action.fetch .store (aboutClass text label)

/-- A label must name exactly one class. -/
def resolve (label : String) : SchemaAction Unit := do
  match (← ask classQuery label).length with
  | 0 => throw (.notFound "ontology node" label)
  | 1 => pure ()
  | n => throw (.multipleFound "ontology node" label n)

/-- The rule that a row declares for a property, unless its edge declares none. -/
def ruleOfRow? (owner : String) (row : Row) : Option (String × Rule) :=
  (PropertyKind.ofEdge? (row.text "type")).map fun kind =>
    (cleanLabel row "property", ⟨kind, owner, row.text? "datatype"⟩)

def rulesOf (label : String) : SchemaAction (List (String × Rule)) := do
  return (← ask propertyQuery label).filterMap (ruleOfRow? label)

def relationshipOfRow (direction : Direction) (declaredBy : String) (row : Row) : Relationship where
  relationship := cleanLabel row "relationship"
  direction := direction
  other := cleanLabel row "other"
  declaredBy := declaredBy

/-- The relationships that a class declares, the outgoing before the incoming. -/
def relationshipsOf (label : String) : SchemaAction (List Relationship) := do
  let outgoing ← ask outgoingQuery label
  let incoming ← ask incomingQuery label
  return outgoing.map (relationshipOfRow .outgoing label) ++
    incoming.map (relationshipOfRow .incoming label)

/-- The parent that a walk goes on to: the first of several in order, unless only one is allowed. -/
def chooseParent (single : Bool) (label : String) (parents : List String) :
    Except OntologyFault (Option String) :=
  match parents.mergeSort fun a b => !(b < a) with
  | [] => .ok none
  | [parent] => .ok (some parent)
  | first :: _ =>
    if single then .error (.multipleFound "parent class" label parents.length) else .ok (some first)

def parentOf (single : Bool) (label : String) : SchemaAction (Option String) := do
  let rows ← ask parentQuery label
  Action.ofExcept (chooseParent single label (rows.map (cleanLabel · "label")))

/-- The rest of a walk that may take `left` more classes. `before` holds what the walk has
collected, its classes in the order of the walk, and `label` is the class that comes next. -/
def walkFrom (single : Bool) (left : Nat) (before : Lineage) (label : String) :
    SchemaAction Lineage :=
  let classes := before.classes ++ [label]
  match left with
  | 0 => throw (.cycle label classes)
  | left + 1 =>
    if before.classes.contains label then throw (.cycle label classes)
    else do
      let declared ← rulesOf label
      let relationships ← relationshipsOf label
      let here : Lineage :=
        { classes
          rules := declared.foldl (fun rules e => rules.insertNew e.1 e.2) before.rules
          relationships := before.relationships ++ relationships }
      match ← parentOf single label with
      | none => return here
      | some parent => walkFrom single left here parent

/-- The lineage of a class. A lineage that returns to one of its classes, or has more classes than
the settings allow, is a cycle. -/
def walk (settings : OntologySettings) (label : String) : SchemaAction Lineage := do
  resolve label
  walkFrom settings.singleInheritance settings.maxLineageDepth ⟨[], .empty, []⟩ label

end OntologyGraph.Schema
