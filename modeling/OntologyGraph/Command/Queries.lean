import OntologyGraph.Command.Basic
import OntologyGraph.Script.Printer
import OntologyGraph.Store.Program

/-!
The queries of commands. A command first probes the graph by a match of its patterns. Its write
either merges by label or begins with the very match of the probe, so that it applies to what the
probe found. The patterns are spliced in as blocks, which quote every key and value.
-/

namespace OntologyGraph

open Schema Store

/-- The block that a pattern matches: its label, then its properties. -/
def NodePattern.block (n : NodePattern) : String :=
  Script.blockText (n.properties.withFirst [("label", .text n.label)])

/-- A node variable with a graph label and the block of a pattern. -/
def NodePattern.matching (n : NodePattern) (variableName graphLabel : String) : String :=
  "(" ++ variableName ++ ":" ++ graphLabel ++ " " ++ n.block ++ ")"

namespace Definition

def probe (d : Definition) (node : NodePattern) : Query where
  text := "MATCH " ++ node.matching "o" d.graphLabel ++ " RETURN o.label AS label"

def writeText (d : Definition) : String :=
  "MERGE (o:" ++ d.graphLabel ++ " \x7blabel: $label\x7d) " ++
    "ON CREATE SET o += $created, o.created = datetime($now), o.modified = datetime($now) " ++
    "ON MATCH SET o += $properties, o.modified = datetime($now)"

/-- The properties that a definition sets; its label is none of them. -/
def properties (node : NodePattern) : PropertyMap :=
  node.properties.erase "label"

/-- The properties of a node that is made new. An identifier and a title are made up, and give way
to those of the pattern. -/
def createdProperties (node : NodePattern) (id : NodeId) : PropertyMap :=
  let made : PropertyMap :=
    .ofList [(NodeId.property, .text id.toText), ("title", .text (".ontology " ++ node.label))]
  made.insertAll (properties node).entries

def write (d : Definition) (node : NodePattern) (stamp : Stamp) : Query where
  text := d.writeText
  params :=
    .ofList [("label", .text node.label), ("created", .map (createdProperties node stamp.id)),
      ("properties", .map (properties node)), ("now", .instant stamp.now)]

end Definition

namespace Connection

/-- The match of both ends of an edge. -/
def ends (c : Connection) (subject target : NodePattern) : String :=
  "MATCH " ++ subject.matching "s" classLabel ++ ", " ++ target.matching "t" c.targetLabel

def probe (c : Connection) (subject target : NodePattern) : Query where
  text :=
    c.ends subject target ++ " OPTIONAL MATCH (s)-[e:" ++ c.edge ++ "]->(t) " ++
      "RETURN id(s) AS subject_id, id(t) AS target_id, count(e) > 0 AS connected"

def write (c : Connection) (subject target : NodePattern) : Query where
  text := c.ends subject target ++ " MERGE (s)-[:" ++ c.edge ++ "]->(t)"

end Connection

namespace Subclass

def parentsQuery : String :=
  "MATCH (s:OntologyNode \x7blabel: $label\x7d)-[:SUBCLASS_OF]->(p:OntologyNode) " ++
    "RETURN p.label AS label ORDER BY label"

/-- No path leads from the target to the subject. -/
def noCycleGuard : String := "NOT (t)-[:SUBCLASS_OF*0..]->(s)"

/-- The subject has no parent. -/
def noParentGuard : String := "NOT (s)-[:SUBCLASS_OF]->(:OntologyNode)"

def guards (single : Bool) : List String :=
  if single then [noCycleGuard, noParentGuard] else [noCycleGuard]

/-- The write of a subclass edge. It holds its guards, so that what the checks before it found need
no longer be true; a row comes back exactly when the edge is set. -/
def write (single : Bool) (subject target : NodePattern) : Query where
  text :=
    Connection.setSubclass.ends subject target ++ " WHERE " ++
      " AND ".intercalate (guards single) ++ " MERGE (s)-[:" ++ subclassEdge ++
      "]->(t) RETURN id(s) AS subject_id"

end Subclass

namespace RelationshipSetting

/-- The match of both ends of a relationship and of the relationship itself. -/
def ends (subject relationship target : NodePattern) : String :=
  "MATCH " ++ subject.matching "s" classLabel ++ ", " ++
    relationship.matching "r" relationshipLabel ++ ", " ++ target.matching "t" classLabel

def probe (subject relationship target : NodePattern) : Query where
  text :=
    ends subject relationship target ++ " OPTIONAL MATCH (s)-[h:" ++ relationshipEdge ++
      "]->(r)-[g:" ++ targetEdge ++ "]->(t) " ++
      "RETURN id(s) AS subject_id, id(r) AS relationship_id, id(t) AS target_id, " ++
      "count(g) > 0 AS connected"

def write (subject relationship target : NodePattern) : Query where
  text :=
    ends subject relationship target ++ " MERGE (s)-[:" ++ relationshipEdge ++
      "]->(r) MERGE (r)-[:" ++ targetEdge ++ "]->(t)"

end RelationshipSetting

end OntologyGraph
