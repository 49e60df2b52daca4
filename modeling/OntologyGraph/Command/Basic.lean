import OntologyGraph.Schema.Vocabulary
import OntologyGraph.Script.Parse

/-!
Commands: what statements ask for, with labels and values in the place of text.
-/

namespace OntologyGraph

open Schema Script

/-- What a definition adds to the ontology. -/
inductive Definition where
  | node
  | property
  | relationship
deriving Repr, DecidableEq

/-- The label of the nodes that a definition makes. -/
def Definition.graphLabel : Definition → String
  | .node => classLabel
  | .property => propertyLabel
  | .relationship => relationshipLabel

/-- Which edge a command sets from a class to a target. -/
inductive Connection where
  | requireProperty
  | setProperty
  | setSubclass
deriving Repr, DecidableEq

namespace Connection

def edge : Connection → String
  | .requireProperty => requiredPropertyEdge
  | .setProperty => definedPropertyEdge
  | .setSubclass => subclassEdge

/-- The label of the nodes that the edge can lead to. -/
def targetLabel : Connection → String
  | .requireProperty | .setProperty => propertyLabel
  | .setSubclass => classLabel

/-- What users call the thing that is set. -/
def noun : Connection → String
  | .requireProperty | .setProperty => "Property"
  | .setSubclass => "Subclass"

end Connection

/-- A node to be found or made: its label and the properties that it has to hold. -/
structure NodePattern where
  label : String
  properties : PropertyMap := .empty

def NodePattern.ofRef (n : NodeRef) : NodePattern where
  label := n.label.name
  properties := (n.block.map Block.toProperties).getD .empty

inductive Command where
  | define (definition : Definition) (node : NodePattern)
  | connect (connection : Connection) (subject target : NodePattern)
  | setRelationship (subject relationship target : NodePattern)
  | info (label : String)

/-- Why a statement or a command fails. -/
inductive CommandFault where
  | malformed (fault : SyntaxFault)
  | unsupported (word : String)
  | arity (word : String) (expected found : Nat)
  | ontology (fault : OntologyFault)
  | store (fault : StoreFault)
deriving Repr, DecidableEq

namespace CommandFault

def message : CommandFault → String
  | .malformed ⟨message, ⟨line, column⟩⟩ =>
    "Syntax error at line " ++ countText line ++ ", column " ++ countText column ++ ": " ++ message
  | .unsupported word => "No handler available for statement '" ++ word ++ "'"
  | .arity word expected found =>
    "'" ++ word ++ "' takes " ++ countText expected ++ " node references, got " ++ countText found
  | .ontology fault => fault.message
  | .store fault => fault.message

/-- The code that users and programs know a fault by. -/
def code : CommandFault → String
  | .malformed _ => "ERR_NQL_SYNTAX"
  | .unsupported _ => "ERR_NQL_UNSUPPORTED"
  | .arity .. => "ERR_NQL_ARITY"
  | .ontology _ => "ERR_NQL_ONTOLOGY"
  | .store _ => "ERR_NQL_STORE"

/-- Whether the fault lies in the text given, and not in the store. -/
def isUser : CommandFault → Bool
  | .malformed _ | .unsupported _ | .arity .. => true
  | .ontology _ | .store _ => false

end CommandFault

/-- The command that a statement stands for. -/
def Command.ofStatement (s : Statement) : Except CommandFault Command :=
  match s.keyword, s.nodes.map NodePattern.ofRef with
  | .other word, _ => .error (.unsupported word)
  | .node, [node] => .ok (.define .node node)
  | .property, [node] => .ok (.define .property node)
  | .relationship, [node] => .ok (.define .relationship node)
  | .requireProperty, [subject, target] => .ok (.connect .requireProperty subject target)
  | .setProperty, [subject, target] => .ok (.connect .setProperty subject target)
  | .setSubclass, [subject, target] => .ok (.connect .setSubclass subject target)
  | .setRelationship, [subject, relationship, target] =>
    .ok (.setRelationship subject relationship target)
  | .info, [node] => .ok (.info node.label)
  | keyword, nodes => .error (.arity keyword.word (keyword.arity?.getD 0) nodes.length)

end OntologyGraph
