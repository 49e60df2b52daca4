import OntologyGraph.Node
import OntologyGraph.Store.Program
import OntologyGraph.Text.Backtick

/-!
The instance nodes of the graph: loading one by its identifier, storing one, and counting those of
a label. Labels are spliced into query texts, so they are always quoted there.
-/

namespace OntologyGraph.Instances

open Store

/-- The class that every class of instances descends from. -/
def rootClass : String := "Node"

def loadQuery : String :=
  "MATCH (:OntologyNode \x7blabel: $root\x7d)<-[:SUBCLASS_OF*0..]-(c:OntologyNode) " ++
    "WITH collect(c.label) AS classes " ++
    "MATCH (n \x7b`neuro.id`: $id\x7d) WHERE any(l IN labels(n) WHERE l IN classes) " ++
    "RETURN n.`neuro.id` AS uuid, labels(n) AS labels, properties(n) AS properties"

def nodeOfRow (row : Row) : Except OntologyFault Node :=
  Node.ofParts (row.text? "uuid") (row.texts "labels") (row.map? "properties")

/-- The node with an identifier. -/
def load (id : NodeId) : Action OntologyFault Node := do
  let params := .ofList [("root", .text rootClass), ("id", .text id.toText)]
  match ← Action.fetch .store ⟨loadQuery, params⟩ with
  | [] => throw (.notFound "node" id.toText)
  | [row] => Action.ofExcept (nodeOfRow row)
  | rows => throw (.multipleFound "node" id.toText rows.length)

/-- Quoted labels, with a colon between them. -/
def labelList (labels : List String) : String :=
  ":".intercalate (labels.map Text.Backtick.encodeText)

/-- The write that merges a node, with a clause for its labels if it has any. -/
def storeText (labels : List String) : String :=
  let merge := "MERGE (o \x7b`neuro.id`: $id\x7d) SET o += $fields"
  if labels.isEmpty then merge else merge ++ " SET o:" ++ labelList labels

def storeQuery (node : Node) : Query where
  text := storeText node.labels
  params := .ofList [("id", .text node.id.toText), ("fields", .map node.storedProperties)]

/-- Stores a node over the one with the same identifier. A node must have a title. -/
def store (node : Node) : Action OntologyFault Unit :=
  if (node.title?.getD "").isEmpty then throw (.invalidNode (.untitled node.id.toText))
  else Action.execute .store (storeQuery node)

def countQuery (label : String) (properties : PropertyMap) : Query where
  text :=
    "MATCH (n:" ++ Text.Backtick.encodeText label ++
      ") WHERE all(k IN keys($properties) WHERE n[k] = $properties[k]) RETURN count(n) AS count"
  params := .ofList [("properties", .map properties)]

/-- The count that a row holds; zero when it holds none. -/
def countOfRows (rows : List Row) : Nat :=
  (((rows.head?.bind (·.get? "count")).bind Value.asInt?).getD 0).toInt.toNat

/-- The number of nodes of a label that hold the given properties. -/
def count (label : String) (properties : PropertyMap) : Action OntologyFault Nat := do
  return countOfRows (← Action.fetch .store (countQuery label properties))

end OntologyGraph.Instances
