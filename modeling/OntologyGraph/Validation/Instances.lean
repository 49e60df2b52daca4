import OntologyGraph.Node
import OntologyGraph.Schema.Walk
import OntologyGraph.Validation.Properties

/-!
Validation of what the graph holds: instance nodes against the most specific class among their
labels, and the property classes against the schema of their own class.
-/

namespace OntologyGraph.Validation

open Schema Store

/-- What the labels of a node lead to. -/
structure LabelFindings where
  undefinedLabels : List String := []
  brokenClasses : List (String × String) := []
  /-- The longest lineage so far, the first of several as long. -/
  deepest : Option Lineage := none

namespace LabelFindings

/-- A lineage takes the place of the deepest only if it is longer. -/
def addLineage (f : LabelFindings) (lineage : Lineage) : LabelFindings :=
  match f.deepest with
  | none => { f with deepest := some lineage }
  | some deepest =>
    if deepest.depth < lineage.depth then { f with deepest := some lineage } else f

/-- Files a label under what its walk ended with. A fault that is no answer about the label is
passed on. -/
def add (f : LabelFindings) (label : String) :
    Except OntologyFault Lineage → Except OntologyFault LabelFindings
  | .ok lineage => .ok (f.addLineage lineage)
  | .error (.notFound ..) => .ok { f with undefinedLabels := f.undefinedLabels ++ [label] }
  | .error fault =>
    if fault.isLookup then
      .ok { f with brokenClasses := f.brokenClasses ++ [(label, fault.message)] }
    else .error fault

end LabelFindings

/-- Walks from each label in turn. -/
def examineLabels (settings : OntologySettings) :
    LabelFindings → List String → SchemaAction LabelFindings
  | findings, [] => return findings
  | findings, label :: labels => do
    let findings ← Action.ofExcept (findings.add label (← Action.attempt (walk settings label)))
    examineLabels settings findings labels

/-- The report on properties under the rules of the deepest class. Without one only the labels are
reported. -/
def LabelFindings.report (f : LabelFindings) (validator : Validator) (properties : PropertyMap) :
    Report :=
  let report :=
    match f.deepest with
    | some lineage => validator.validate properties lineage.rules lineage.label
    | none => { strict := validator.strict }
  { report with
    undefinedLabels := report.undefinedLabels ++ f.undefinedLabels
    brokenClasses := report.brokenClasses ++ f.brokenClasses }

def validateNode (settings : OntologySettings) (validator : Validator) (node : Node) :
    SchemaAction Report := do
  return (← examineLabels settings {} node.labels).report validator node.properties

/-- The report on each node, in order. A violation is no fault; a failure of the store ends all. -/
def validateNodes (settings : OntologySettings) (validator : Validator) :
    List Node → SchemaAction (List (NodeId × Report))
  | [] => return []
  | node :: nodes => do
    let report ← validateNode settings validator node
    return (node.id, report) :: (← validateNodes settings validator nodes)

def propertyClassesQuery : String :=
  "MATCH (p:OntologyProperty) RETURN p.label AS label, properties(p) AS properties ORDER BY label"

/-- The report on one property class, unless it satisfies the schema. -/
def violationOfRow? (validator : Validator) (schema : Lineage) (row : Row) :
    Option (String × Report) :=
  let properties := ((row.map? "properties").getD .empty).erase NodeId.property
  let report := validator.validate properties schema.rules schema.label
  if report.isViolation then some (row.text "label", report) else none

/-- The property classes that violate the schema of the class of property classes. -/
def auditProperties (settings : OntologySettings) (validator : Validator) :
    SchemaAction (List (String × Report)) := do
  let schema ← walk settings propertyLabel
  let rows ← Action.fetch .store ⟨propertyClassesQuery, .empty⟩
  return rows.filterMap (violationOfRow? validator schema)

end OntologyGraph.Validation
