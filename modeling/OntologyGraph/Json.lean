import OntologyGraph.Decimal.Layout

/-!
JSON values and their compact text.
-/

namespace OntologyGraph

/-- A number of a JSON text: an integer that fits 64 bits with sign, a larger one that fits them
without, or a finite float. -/
inductive JsonNumber where
  | int (n : Int64)
  | large (n : UInt64) (above : Int64.maxValue.toInt < n.toNat)
  | float (x : Float) (finite : x.isFinite = true)

inductive Json where
  | null
  | bool (b : Bool)
  | number (n : JsonNumber)
  | text (s : String)
  | array (items : List Json)
  | object (members : List (String × Json))

instance : Inhabited Json := ⟨.null⟩

namespace Json

/-- Floats keep a fraction, and go over to an exponent below `10 ^ -5` and from `10 ^ 16` on. -/
def floatFormat : Decimal.FloatFormat where
  tie := .toEven
  positional first := -5 ≤ first && first < 16
  pointZero := true

/-- One character inside a quoted text. Quote, backslash and controls are escaped. -/
def escape (c : Char) : List Char :=
  if c = '"' then ['\\', '"']
  else if c = '\\' then ['\\', '\\']
  else if c = '\x08' then ['\\', 'b']
  else if c = '\x0c' then ['\\', 'f']
  else if c = '\n' then ['\\', 'n']
  else if c = '\r' then ['\\', 'r']
  else if c = '\t' then ['\\', 't']
  else if c.toNat < 0x20 then
    ['\\', 'u', '0', '0', Nat.digitChar (c.toNat / 16), Nat.digitChar (c.toNat % 16)]
  else [c]

def quoted (s : String) : List Char :=
  '"' :: (s.toList.flatMap escape ++ ['"'])

def numberChars : JsonNumber → List Char
  | .int n => Decimal.integerText n.toInt
  | .large n _ => Decimal.digitsOf n.toNat
  | .float x _ => floatFormat.text x

/-- A member of an object: its name, a colon, and the text of its value. -/
def memberChars (name : String) (value : List Char) : List Char :=
  quoted name ++ ':' :: value

/-- Texts between two brackets, with commas between them. -/
def bracketed (opening closing : Char) (parts : List (List Char)) : List Char :=
  opening :: ((parts.intersperse [',']).flatten ++ [closing])

def objectChars (members : List (List Char)) : List Char :=
  bracketed '\x7b' '\x7d' members

mutual

def chars : Json → List Char
  | .null => "null".toList
  | .bool b => (if b then "true" else "false").toList
  | .number n => numberChars n
  | .text s => quoted s
  | .array items => bracketed '[' ']' (itemChars items)
  | .object members => objectChars (membersChars members)

def itemChars : List Json → List (List Char)
  | [] => []
  | item :: items => item.chars :: itemChars items

def membersChars : List (String × Json) → List (List Char)
  | [] => []
  | (name, value) :: members => memberChars name value.chars :: membersChars members

end

def toText (j : Json) : String :=
  String.ofList j.chars

end Json

end OntologyGraph
