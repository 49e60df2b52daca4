import OntologyGraph.Decimal.Numeral
import OntologyGraph.Fault
import OntologyGraph.Text.Blank
import OntologyGraph.Text.Shown
import OntologyGraph.Time.Timestamp
import OntologyGraph.Value

/-!
Datatypes: the named kinds of values that a property class can demand, each with the check that
decides whether a value is of that kind. A text counts as a value of a kind when it spells one.
-/

namespace OntologyGraph

/-- The kinds that are known, each with its check. -/
structure Datatypes where
  checks : TextMap (Value → Bool) := .empty

namespace Datatypes

def isText : Value → Bool
  | .text _ => true
  | _ => false

def isInteger : Value → Bool
  | .int _ => true
  | .text s => (Decimal.int64? (Text.stripBoth Text.isBlank s.toList)).isSome
  | _ => false

def isFloat : Value → Bool
  | .float _ | .int _ => true
  | .text s => (Decimal.float? (Text.stripBoth Text.isBlank s.toList)).isSome
  | _ => false

def isBoolean : Value → Bool
  | .bool _ => true
  | .text s => s = "true" || s = "false"
  | _ => false

def isDateTime : Value → Bool
  | .instant _ => true
  | .text s => Time.isTimestamp s.toList
  | _ => false

/-- The parts of a text before and after the first colon that two slashes follow. -/
def splitScheme? : List Char → Option (List Char × List Char)
  | ':' :: '/' :: '/' :: rest => some ([], rest)
  | [] => none
  | c :: cs => (splitScheme? cs).map fun (scheme, rest) => (c :: scheme, rest)

/-- A scheme is a letter, then letters, digits, plus and minus signs and points. -/
def isScheme : List Char → Bool
  | [] => false
  | c :: cs =>
    c.isAlpha && cs.all fun c => c.isAlphanum || c = '+' || c = '-' || c = '.'

/-- A scheme, a colon and two slashes, and then something without blanks. -/
def isUrl : Value → Bool
  | .text s =>
    match splitScheme? s.toList with
    | some (scheme, rest) => isScheme scheme && !rest.isEmpty && !rest.any Text.isBlank
    | none => false
  | _ => false

/-- Adds a kind, or replaces its check. -/
def register (d : Datatypes) (kind : String) (check : Value → Bool) : Datatypes :=
  ⟨d.checks.insert kind check⟩

/-- The kinds that are known from the start. -/
def standard : Datatypes :=
  ⟨.ofList [("DateTime", isDateTime), ("String", isText), ("Integer", isInteger),
    ("Float", isFloat), ("Boolean", isBoolean), ("Url", isUrl)]⟩

def supports (d : Datatypes) (kind : String) : Bool :=
  d.checks.contains kind

/-- Whether a value of a property is of a kind; an unknown kind is a fault. -/
def check (d : Datatypes) (kind property : String) (value : Value) : Except OntologyFault Bool :=
  match d.checks.get? kind with
  | some check => .ok (check value)
  | none => .error (.unsupportedType kind property)

/-- The known kinds in order. -/
def kinds (d : Datatypes) : List String :=
  d.checks.keys.mergeSort fun a b => !(b < a)

/-- The registry as it is shown in diagnostics. -/
def shown (d : Datatypes) : String :=
  "MetapropertyRegistry \x7b kinds: [" ++ ", ".intercalate (d.kinds.map Text.shownText) ++ "] \x7d"

end Datatypes

end OntologyGraph
