import OntologyGraph.Fault
import OntologyGraph.NodeId
import OntologyGraph.PropertyMap

/-!
Instance nodes. The identifier of a node is a field of its own; among the stored properties it
comes first, and it is no property of a loaded node.
-/

namespace OntologyGraph

structure Node where
  id : NodeId
  labels : List String
  properties : PropertyMap

namespace Node

/-- The node that a stored identifier, labels and properties describe. -/
def ofParts (id? : Option String) (labels : List String) (properties? : Option PropertyMap) :
    Except OntologyFault Node :=
  match id? with
  | none => .error (.invalidNode .withoutId)
  | some text =>
    match NodeId.ofText? text with
    | none => .error (.invalidNode (.malformedId text))
    | some id => .ok ⟨id, labels, (properties?.getD ∅).erase NodeId.property⟩

def get? (n : Node) (key : String) : Option Value :=
  n.properties.get? key

def title? (n : Node) : Option String :=
  (n.get? "title").bind Value.asText?

def hasLabel (n : Node) (label : String) : Bool :=
  n.labels.contains label

/-- Sets a property and gives back its value before. The key of the identifier is left alone. -/
def set (n : Node) (key : String) (value : Value) : Option Value × Node :=
  if key = NodeId.property then (none, n)
  else
    let (old, properties) := n.properties.exchange key value
    (old, { n with properties })

/-- The properties as they are stored, the identifier first. -/
def storedProperties (n : Node) : PropertyMap :=
  n.properties.withFirst [(NodeId.property, .text n.id.toText)]

def toJson (n : Node) : Json :=
  .object [("id", .text n.id.toText), ("labels", .array (n.labels.map .text)),
    ("properties", n.properties.toJson)]

end Node

end OntologyGraph
