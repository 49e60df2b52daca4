import OntologyGraph.Schema.Rule

/-!
Reports of what is wrong with the properties and labels of a node.
-/

namespace OntologyGraph.Validation

open Schema

/-- Why a present property does not satisfy its rule. -/
inductive InvalidReason where
  | wrongType
  | unsupportedType (kind : String)
deriving Repr, DecidableEq

def InvalidReason.text : InvalidReason → String
  | .wrongType => "wrong type"
  | .unsupportedType kind => "unsupported type " ++ kind

structure InvalidProperty where
  property : String
  rule : Rule
  reason : InvalidReason
deriving Repr, DecidableEq

/-- What was found. A strict report counts undefined properties and labels as violations. -/
structure Report where
  /-- Required properties that are absent, each with the class that requires it. -/
  missing : List (String × String) := []
  /-- Properties without a rule, each with the class that has none for it. -/
  undefined : List (String × String) := []
  invalid : List InvalidProperty := []
  /-- Labels that name no class. -/
  undefinedLabels : List String := []
  /-- Labels of classes whose lineage cannot be walked, each with the reason. -/
  brokenClasses : List (String × String) := []
  strict : Bool := true
deriving Repr, DecidableEq

namespace Report

def isViolation (r : Report) : Bool :=
  !r.missing.isEmpty || !r.invalid.isEmpty || !r.brokenClasses.isEmpty ||
    (r.strict && (!r.undefined.isEmpty || !r.undefinedLabels.isEmpty))

def isEmpty (r : Report) : Bool :=
  r.missing.isEmpty && r.undefined.isEmpty && r.invalid.isEmpty && r.undefinedLabels.isEmpty &&
    r.brokenClasses.isEmpty

/-- The findings of both reports; the whole is strict if either is. -/
def append (a b : Report) : Report where
  missing := a.missing ++ b.missing
  undefined := a.undefined ++ b.undefined
  invalid := a.invalid ++ b.invalid
  undefinedLabels := a.undefinedLabels ++ b.undefinedLabels
  brokenClasses := a.brokenClasses ++ b.brokenClasses
  strict := a.strict || b.strict

instance : Append Report := ⟨append⟩

/-- Takes the findings of another report into the one at hand, list by list. -/
def absorb (other : Report) : StateM Report Unit := do
  modify fun r => { r with missing := r.missing ++ other.missing }
  modify fun r => { r with undefined := r.undefined ++ other.undefined }
  modify fun r => { r with invalid := r.invalid ++ other.invalid }
  modify fun r => { r with undefinedLabels := r.undefinedLabels ++ other.undefinedLabels }
  modify fun r => { r with brokenClasses := r.brokenClasses ++ other.brokenClasses }
  modify fun r => { r with strict := r.strict || other.strict }

def missingLine : String × String → String
  | (label, owner) => "missing required property " ++ label ++ " (required by " ++ owner ++ ")"

def undefinedLine : String × String → String
  | (key, label) => "undefined property " ++ key ++ " on " ++ label

def invalidLine (i : InvalidProperty) : String :=
  "invalid property " ++ i.property ++ " (" ++ i.rule.text ++ "): " ++ i.reason.text

def undefinedLabelLine (label : String) : String :=
  "undefined label " ++ label

def brokenClassLine : String × String → String
  | (label, reason) => "broken class " ++ label ++ ": " ++ reason

/-- One line for each finding. -/
def lines (r : Report) : List String :=
  r.missing.map missingLine ++ r.undefined.map undefinedLine ++ r.invalid.map invalidLine ++
    r.undefinedLabels.map undefinedLabelLine ++ r.brokenClasses.map brokenClassLine

def text (r : Report) : String :=
  if r.isEmpty then "valid" else "\n".intercalate r.lines

end Report

end OntologyGraph.Validation
