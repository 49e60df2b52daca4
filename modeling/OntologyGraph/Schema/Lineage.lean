import OntologyGraph.Schema.Rule

/-!
Lineages: the classes from one class up to its root, with the rules and relationships that they
declare.
-/

namespace OntologyGraph.Schema

inductive Direction where
  | outgoing
  | incoming
deriving Repr, DecidableEq

def Direction.text : Direction → String
  | .outgoing => "outgoing"
  | .incoming => "incoming"

/-- A relationship that a class declares, seen from that class. -/
structure Relationship where
  relationship : String
  direction : Direction
  other : String
  declaredBy : String
deriving Repr, DecidableEq

def Relationship.text (r : Relationship) : String :=
  let arrow :=
    match r.direction with
    | .outgoing => " -[" ++ r.relationship ++ "]-> "
    | .incoming => " <-[" ++ r.relationship ++ "]- "
  r.declaredBy ++ arrow ++ r.other ++ " (declared by " ++ r.declaredBy ++ ")"

structure Lineage where
  /-- The class asked about first, the root last. -/
  classes : List String
  rules : Rules := .empty
  relationships : List Relationship := []
deriving DecidableEq

namespace Lineage

/-- The class that the lineage belongs to. -/
def label (l : Lineage) : String :=
  l.classes.headD ""

def depth (l : Lineage) : Nat :=
  l.classes.length

def descendsFrom (l : Lineage) (ancestor : String) : Bool :=
  l.classes.contains ancestor

def ruleLines (l : Lineage) : List String :=
  if l.rules.isEmpty then ["    (none)"]
  else l.rules.entries.map fun (label, rule) => "    " ++ label ++ ": " ++ rule.text

def relationshipLines (l : Lineage) : List String :=
  if l.relationships.isEmpty then ["    (none)"]
  else l.relationships.map fun r => "    " ++ r.text

/-- The lineage as it is shown to users. -/
def text (l : Lineage) : String :=
  "\n".intercalate <|
    ["Ontology info for " ++ l.label,
      String.ofList (List.replicate 50 '-'),
      "Lineage:",
      "    " ++ " ➜  ".intercalate l.classes,
      "",
      "Properties:"] ++
    l.ruleLines ++ ["", "Relationships:"] ++ l.relationshipLines

end Lineage

end OntologyGraph.Schema
