import OntologyGraph.PropertyMap
import OntologyGraph.Text.Name

/-!
The statements of the ontology language, as trees.
-/

namespace OntologyGraph.Script

/-- A label or key with the quotes taken away. -/
structure Identifier where
  name : String
  /-- Whether the name stands between backticks. -/
  quoted : Bool
deriving Repr, DecidableEq

/-- An identifier that is quoted only if its name needs it. -/
def Identifier.ofName (name : String) : Identifier :=
  ⟨name, !Text.isName name.toList⟩

/-- A key and the text that is its value, with escapes resolved. -/
structure Pair where
  key : Identifier
  value : String
deriving Repr, DecidableEq

/-- The pairs between two braces. -/
abbrev Block := List Pair

/-- The properties of a block. Of two pairs with one key the first gives the place and the last the
value. -/
def Block.toProperties (b : Block) : PropertyMap :=
  .ofList (b.map fun pair => (pair.key.name, .text pair.value))

/-- The block of a property map, with every value as its text. -/
def Block.ofProperties (m : PropertyMap) : Block :=
  m.entries.map fun (key, value) => ⟨.ofName key, value.toText⟩

structure NodeRef where
  label : Identifier
  block : Option Block := none
deriving Repr, DecidableEq

inductive Keyword where
  | node
  | property
  | relationship
  | requireProperty
  | setProperty
  | setSubclass
  | setRelationship
  | info
  /-- A word that begins no known statement. -/
  | other (word : String)
deriving Repr, DecidableEq

namespace Keyword

/-- The keyword that a word is. -/
def ofWord (word : String) : Keyword :=
  match word with
  | "node" => .node
  | "property" => .property
  | "relationship" => .relationship
  | "require_property" => .requireProperty
  | "set_property" => .setProperty
  | "set_subclass" => .setSubclass
  | "set_relationship" => .setRelationship
  | "info" => .info
  | word => .other word

def word : Keyword → String
  | .node => "node"
  | .property => "property"
  | .relationship => "relationship"
  | .requireProperty => "require_property"
  | .setProperty => "set_property"
  | .setSubclass => "set_subclass"
  | .setRelationship => "set_relationship"
  | .info => "info"
  | .other word => word

/-- How many node references a statement takes; any number after an unknown word. -/
def arity? : Keyword → Option Nat
  | .node | .property | .relationship | .info => some 1
  | .requireProperty | .setProperty | .setSubclass => some 2
  | .setRelationship => some 3
  | .other _ => none

/-- Whether the references of a statement can have blocks. -/
def allowsBlocks : Keyword → Bool
  | .info => false
  | _ => true

def isKnown (k : Keyword) : Bool :=
  k.arity?.isSome

end Keyword

structure Statement where
  keyword : Keyword
  nodes : List NodeRef
deriving Repr, DecidableEq

end OntologyGraph.Script

namespace OntologyGraph

/-- A script: statements, to be carried out in order. -/
abbrev Script := List Script.Statement

end OntologyGraph
