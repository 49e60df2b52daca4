import OntologyGraph.Json
import OntologyGraph.SortedMap
import OntologyGraph.TextMap
import OntologyGraph.Time.Instant

/-!
The values that properties hold, their text, and their form in JSON.
-/

namespace OntologyGraph

open Time

inductive Value where
  | null
  | bool (b : Bool)
  | int (n : Int64)
  | float (x : Float)
  | text (s : String)
  | list (items : List Value)
  | map (entries : TextMap Value)
  | instant (t : Instant)

instance : Inhabited Value := ⟨.null⟩

namespace Value

def asText? : Value → Option String
  | .text s => some s
  | _ => none

def asBool? : Value → Option Bool
  | .bool b => some b
  | _ => none

def asInt? : Value → Option Int64
  | .int n => some n
  | _ => none

def asList? : Value → Option (List Value)
  | .list items => some items
  | _ => none

def asMap? : Value → Option (TextMap Value)
  | .map entries => some entries
  | _ => none

def isNull : Value → Bool
  | .null => true
  | _ => false

/-- The name of a value's type, as shown to users. -/
def typeName : Value → String
  | .null => "Null"
  | .bool _ => "Boolean"
  | .int _ => "Integer"
  | .float _ => "Float"
  | .text _ => "String"
  | .list _ => "List"
  | .map _ => "Map"
  | .instant _ => "DateTime"

mutual

/-- Equality of values. Floats compare as numbers: the two zeros are equal, and what is not a
number equals nothing. Maps compare entry by entry, in order. -/
def equal : Value → Value → Bool
  | .null, .null => true
  | .bool a, .bool b => a == b
  | .int a, .int b => a == b
  | .float a, .float b => a == b
  | .text a, .text b => a == b
  | .list as, .list bs => equalItems as bs
  | .map ⟨as⟩, .map ⟨bs⟩ => equalEntries as bs
  | .instant a, .instant b => a == b
  | _, _ => false
termination_by structural v => v

def equalItems : List Value → List Value → Bool
  | [], [] => true
  | a :: as, b :: bs => equal a b && equalItems as bs
  | _, _ => false
termination_by structural vs => vs

def equalEntries : List (String × Value) → List (String × Value) → Bool
  | [], [] => true
  | (k, a) :: as, (l, b) :: bs => k == l && equal a b && equalEntries as bs
  | _, _ => false
termination_by structural es => es

end

instance : BEq Value := ⟨equal⟩

mutual

/-- The value in JSON. A float without a finite value becomes null, an instant its text, and the
members of an object are sorted by name. -/
def toJson : Value → Json
  | .null => .null
  | .bool b => .bool b
  | .int n => .number (.int n)
  | .float x => if h : x.isFinite = true then .number (.float x h) else .null
  | .text s => .text s
  | .list items => .array (itemsToJson items)
  | .map ⟨entries⟩ =>
    .object ((entriesToJson entries).foldl (fun members e => insertSorted e.1 e.2 members) [])
  | .instant t => .text t.text
termination_by structural v => v

def itemsToJson : List Value → List Json
  | [] => []
  | v :: vs => v.toJson :: itemsToJson vs
termination_by structural vs => vs

def entriesToJson : List (String × Value) → List (String × Json)
  | [] => []
  | (k, v) :: es => (k, v.toJson) :: entriesToJson es
termination_by structural es => es

end

mutual

/-- The value of a JSON value. Integers beyond 64 bits with sign become the nearest float. -/
def ofJson : Json → Value
  | .null => .null
  | .bool b => .bool b
  | .number (.int n) => .int n
  | .number (.large n _) => .float n.toFloat
  | .number (.float x _) => .float x
  | .text s => .text s
  | .array items => .list (itemsOfJson items)
  | .object members => .map (.ofList (membersOfJson members))

def itemsOfJson : List Json → List Value
  | [] => []
  | j :: js => ofJson j :: itemsOfJson js

def membersOfJson : List (String × Json) → List (String × Value)
  | [] => []
  | (k, j) :: ms => (k, ofJson j) :: membersOfJson ms

end

/-- Floats are written positionally whatever their size, and whole ones without a point. -/
def floatFormat : Decimal.FloatFormat where
  tie := .up
  positional _ := true
  pointZero := false

def floatChars (x : Float) : List Char :=
  if x.isFinite then floatFormat.text x
  else if x.isNaN then "NaN".toList
  else if x < 0.0 then "-inf".toList
  else "inf".toList

/-- The text of a value: what it becomes where only text can be written. -/
def toText : Value → String
  | .text s => s
  | .null => "null"
  | .bool b => if b then "true" else "false"
  | .int n => String.ofList (Decimal.integerText n.toInt)
  | .float x => String.ofList (floatChars x)
  | .instant t => t.text
  | .list items => (toJson (.list items)).toText
  | .map entries => (toJson (.map entries)).toText

end Value

end OntologyGraph
