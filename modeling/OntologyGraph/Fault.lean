import OntologyGraph.Decimal.Layout

/-!
What can go wrong when the graph is asked, and when classes and nodes are looked up in it.
-/

namespace OntologyGraph

/-- A failure of the store itself. -/
inductive StoreFault where
  | connection (detail : String)
  | query (detail : String)
  | mapping (detail : String)
deriving Repr, DecidableEq

def StoreFault.message : StoreFault → String
  | .connection detail => "Graph database connection error: " ++ detail
  | .query detail => "Graph query execution error: " ++ detail
  | .mapping detail => "Data mapping error from graph result: " ++ detail

/-- Why a stored or given node is none. -/
inductive NodeDefect where
  | withoutId
  | malformedId (text : String)
  | untitled (id : String)
deriving Repr, DecidableEq

def NodeDefect.message : NodeDefect → String
  | .withoutId => "node has no neuro.id"
  | .malformedId text => "invalid neuro.id " ++ text
  | .untitled id => "node " ++ id ++ " has no title"

def countText (n : Nat) : String :=
  String.ofList (Decimal.digitsOf n)

/-- A failure of an operation on the ontology or on its nodes. -/
inductive OntologyFault where
  | notFound (entity id : String)
  | multipleFound (entity id : String) (count : Nat)
  | cycle (label : String) (lineage : List String)
  | unsupportedType (kind property : String)
  | invalidNode (defect : NodeDefect)
  | store (fault : StoreFault)
deriving Repr, DecidableEq

namespace OntologyFault

def message : OntologyFault → String
  | .notFound entity id => "No " ++ entity ++ " found with label: " ++ id
  | .multipleFound entity id count =>
    "Multiple " ++ entity ++ " found with label: " ++ id ++ " (" ++ countText count ++ " matches)"
  | .cycle label lineage =>
    "Cycle detected in class lineage at " ++ label ++ ": " ++ " -> ".intercalate lineage
  | .unsupportedType kind property =>
    "Unsupported property type: " ++ kind ++ " for " ++ property
  | .invalidNode defect => "Invalid node: " ++ defect.message
  | .store fault => fault.message

/-- Whether a label did not lead to one class with a lineage, which is an answer to the user rather
than a failure of the store. -/
def isLookup : OntologyFault → Bool
  | .notFound .. | .multipleFound .. | .cycle .. => true
  | _ => false

end OntologyFault

end OntologyGraph
