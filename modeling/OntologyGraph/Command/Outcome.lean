import OntologyGraph.Command.Basic
import OntologyGraph.Schema.Lineage

/-!
Outcomes of commands. Whatever the graph holds, a command that no store failure stops has one.
-/

namespace OntologyGraph

inductive Outcome where
  | defined (definition : Definition) (label : String)
  | nothingToAdd
  | connected (subject edge target : String)
  | incorrectNodes
  | ambiguousNodes (count : Nat)
  | alreadySet (what : String)
  | multipleParents (label parent : String)
  | wouldCycle (subject target : String)
  | info (lineage : Schema.Lineage)
  | infoUnavailable (reason : String)
deriving DecidableEq

namespace Outcome

/-- Whether the command changed the graph. -/
def isWrite : Outcome → Bool
  | .defined .. | .connected .. => true
  | _ => false

def text : Outcome → String
  | .defined definition label => "Defined " ++ definition.graphLabel ++ " '" ++ label ++ "'."
  | .nothingToAdd => "Nothing to add."
  | .connected subject edge target => "Set " ++ subject ++ " -[" ++ edge ++ "]-> " ++ target ++ "."
  | .incorrectNodes => "Incorrect ontology nodes given."
  | .ambiguousNodes count => "Ambiguous ontology nodes given (" ++ countText count ++ " matches)."
  | .alreadySet what => what ++ " already set."
  | .multipleParents label parent => label ++ " already has parent class " ++ parent ++ "."
  | .wouldCycle subject target =>
    "Setting " ++ subject ++ " as a subclass of " ++ target ++ " would create a cycle."
  | .info lineage => lineage.text
  | .infoUnavailable reason => reason

end Outcome

end OntologyGraph
