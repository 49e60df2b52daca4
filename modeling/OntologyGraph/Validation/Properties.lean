import OntologyGraph.Datatypes
import OntologyGraph.PropertyMap
import OntologyGraph.Validation.Report

/-!
Validation of a property map against the rules of a class.
-/

namespace OntologyGraph.Validation

open Schema

/-- How properties are validated: the datatypes that are known, and whether the report is strict. -/
structure Validator where
  datatypes : Datatypes := .standard
  strict : Bool := true

namespace Validator

/-- Whether a value keeps a property from satisfying its rule, and why. -/
def reason? (v : Validator) (rule : Rule) (property : String) (value : Value) :
    Option InvalidReason :=
  match rule.datatype with
  | none => none
  | some kind =>
    match v.datatypes.check kind property value with
    | .ok true => none
    | .ok false => some .wrongType
    | .error _ => some (.unsupportedType kind)

/-- The required properties that a map does not hold, in order of their labels. -/
def missing (rules : Rules) (properties : PropertyMap) : List (String × String) :=
  rules.entries.filterMap fun (label, rule) =>
    if rule.isRequired && !properties.contains label then some (label, rule.owner) else none

/-- The properties that no rule speaks of, in map order. -/
def undefined (rules : Rules) (properties : PropertyMap) (label : String) :
    List (String × String) :=
  properties.entries.filterMap fun (key, _) =>
    if rules.contains key then none else some (key, label)

/-- The properties that do not satisfy their rules, in map order. -/
def invalid (v : Validator) (rules : Rules) (properties : PropertyMap) : List InvalidProperty :=
  properties.entries.filterMap fun (key, value) =>
    match rules.get? key with
    | none => none
    | some rule => (v.reason? rule key value).map fun reason => ⟨key, rule, reason⟩

/-- The report on a map against the rules of the class `label`. -/
def validate (v : Validator) (properties : PropertyMap) (rules : Rules) (label : String) :
    Report where
  missing := missing rules properties
  undefined := undefined rules properties label
  invalid := v.invalid rules properties
  strict := v.strict

end Validator

end OntologyGraph.Validation
