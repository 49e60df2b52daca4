import OntologyGraph.Command.Outcome
import OntologyGraph.Command.Queries
import OntologyGraph.Schema.Walk

/-!
Carrying out commands. Every command ends with an outcome unless the store fails. A command writes
at most once, after a probe that found the ends of the edge, or found no node to be defined.
-/

namespace OntologyGraph

open Schema Store

namespace Command

abbrev CommandAction := Action CommandFault

/-- Reads rows for a command. -/
def read (query : Query) : CommandAction (List Row) :=
  Action.fetch .store query

/-- Makes a change for a command. -/
def change (query : Query) : CommandAction Unit :=
  Action.execute .store query

def runDefine (definition : Definition) (node : NodePattern) : CommandAction Outcome := do
  if (← read (definition.probe node)).isEmpty then
    let stamp ← Action.stamp
    change (definition.write node stamp)
    return .defined definition node.label
  else return .nothingToAdd

/-- Goes on with a probe that found the ends of an edge once, and the edge not there. -/
def whenUnset (rows : List Row) (what : String) (proceed : CommandAction Outcome) :
    CommandAction Outcome :=
  match rows with
  | [] => return .incorrectNodes
  | [row] => if row.flag "connected" then return .alreadySet what else proceed
  | rows => return .ambiguousNodes rows.length

/-- The objection that a class other than `target` is a parent of `subject` already. -/
def otherParent? (subject target : String) (parents : List Row) : Option Outcome :=
  ((parents.map (·.text "label")).find? (· ≠ target)).map (.multipleParents subject)

/-- The objection that the walk from the target gives: it meets the subject, or runs in a cycle. A
target that cannot be looked up gives none. -/
def cycleObjection (subject target : String) :
    Except OntologyFault Lineage → Except CommandFault (Option Outcome)
  | .ok lineage =>
    .ok (if lineage.descendsFrom subject then some (.wouldCycle subject target) else none)
  | .error (.cycle ..) => .ok (some (.wouldCycle subject target))
  | .error fault => if fault.isLookup then .ok none else .error (.ontology fault)

/-- What speaks against a subclass edge: a second parent where only one is allowed, or a cycle. -/
def objection? (settings : OntologySettings) (subject target : String) :
    CommandAction (Option Outcome) := do
  if subject = target then return some (.wouldCycle subject target)
  if settings.singleInheritance then
    let parents ← read (aboutClass Subclass.parentsQuery subject)
    if let some outcome := otherParent? subject target parents then return some outcome
  Action.ofExcept (cycleObjection subject target (← Action.attempt (walk settings target)))

/-- Writes a subclass edge if its guards hold. Without a row the graph has changed since the checks,
and they are made again to say why. -/
def runSubclassWrite (settings : OntologySettings) (subject target : NodePattern) :
    CommandAction Outcome := do
  if (← read (Subclass.write settings.singleInheritance subject target)).isEmpty then
    return (← objection? settings subject.label target.label).getD .incorrectNodes
  else return .connected subject.label subclassEdge target.label

def runSubclass (settings : OntologySettings) (subject target : NodePattern) :
    CommandAction Outcome := do
  match ← objection? settings subject.label target.label with
  | some outcome => return outcome
  | none => runSubclassWrite settings subject target

def runPropertyWrite (connection : Connection) (subject target : NodePattern) :
    CommandAction Outcome := do
  change (connection.write subject target)
  return .connected subject.label connection.edge target.label

def runConnect (settings : OntologySettings) (connection : Connection)
    (subject target : NodePattern) : CommandAction Outcome := do
  let rows ← read (connection.probe subject target)
  whenUnset rows connection.noun <|
    match connection with
    | .setSubclass => runSubclass settings subject target
    | connection => runPropertyWrite connection subject target

def runSetRelationship (subject relationship target : NodePattern) : CommandAction Outcome := do
  let rows ← read (RelationshipSetting.probe subject relationship target)
  whenUnset rows "Relationship" do
    change (RelationshipSetting.write subject relationship target)
    return .connected subject.label relationship.label target.label

/-- What is shown of a class: its lineage, or why there is none. -/
def infoOutcome : Except OntologyFault Lineage → Except CommandFault Outcome
  | .ok lineage => .ok (.info lineage)
  | .error fault =>
    if fault.isLookup then .ok (.infoUnavailable fault.message) else .error (.ontology fault)

def runInfo (settings : OntologySettings) (label : String) : CommandAction Outcome := do
  Action.ofExcept (infoOutcome (← Action.attempt (walk settings label)))

/-- Carries out a command. -/
def run (settings : OntologySettings) : Command → CommandAction Outcome
  | .define definition node => runDefine definition node
  | .connect connection subject target => runConnect settings connection subject target
  | .setRelationship subject relationship target => runSetRelationship subject relationship target
  | .info label => runInfo settings label

end Command

end OntologyGraph
