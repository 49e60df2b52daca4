import OntologyGraph.Schema.Vocabulary
import OntologyGraph.SortedMap

/-!
Property rules: whether a class allows or demands a property, and of which type its values are.
-/

namespace OntologyGraph.Schema

inductive PropertyKind where
  | defined
  | required
deriving Repr, DecidableEq

namespace PropertyKind

/-- The kind of rule that an edge of the given type declares. -/
def ofEdge? (edge : String) : Option PropertyKind :=
  if edge = definedPropertyEdge then some .defined
  else if edge = requiredPropertyEdge then some .required
  else none

def edge : PropertyKind → String
  | .defined => definedPropertyEdge
  | .required => requiredPropertyEdge

def text : PropertyKind → String
  | .defined => "defined"
  | .required => "required"

theorem ofEdge?_edge (kind : PropertyKind) : ofEdge? kind.edge = some kind := by
  cases kind <;> decide

end PropertyKind

/-- A rule in force for a property: its kind, the class that declares it, and the kind of values it
admits, if the property class names one. -/
structure Rule where
  kind : PropertyKind
  owner : String
  datatype : Option String := none
deriving Repr, DecidableEq

namespace Rule

def isRequired (r : Rule) : Bool :=
  r.kind = .required

def text (r : Rule) : String :=
  let declared := r.kind.text ++ " by " ++ r.owner
  match r.datatype with
  | none => declared
  | some datatype => declared ++ " (" ++ datatype ++ ")"

end Rule

/-- The rules in force for a class, by property label. -/
abbrev Rules := SortedMap Rule

end OntologyGraph.Schema
