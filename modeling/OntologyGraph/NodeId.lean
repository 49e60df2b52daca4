import OntologyGraph.Text.Hex

/-!
Identifiers of nodes: numbers of 128 bits, written as thirty-two hexadecimal digits in five groups.
-/

namespace OntologyGraph

structure NodeId where
  bits : BitVec 128
deriving Repr, DecidableEq

namespace NodeId

/-- The property under which a stored node keeps its identifier. -/
def property : String := "neuro.id"

def digits (id : NodeId) : List Char :=
  Text.Hex.encode 32 id.bits.toNat

/-- Dashes after the digits 8, 12, 16 and 20. -/
def grouped (digits : List Char) : List Char :=
  digits.take 8 ++ '-' :: (digits.drop 8).take 4 ++ '-' :: (digits.drop 12).take 4 ++
    '-' :: (digits.drop 16).take 4 ++ '-' :: digits.drop 20

def chars (id : NodeId) : List Char :=
  grouped id.digits

def toText (id : NodeId) : String :=
  String.ofList id.chars

def ofDigits? (digits : List Char) : Option NodeId :=
  if digits.length = 32 then (Text.Hex.decode? digits).map fun n => ⟨BitVec.ofNat 128 n⟩ else none

/-- The digits of a text that has dashes after the digits 8, 12, 16 and 20. -/
def ungrouped? (cs : List Char) : Option (List Char) :=
  let digits :=
    cs.take 8 ++ (cs.drop 9).take 4 ++ (cs.drop 14).take 4 ++ (cs.drop 19).take 4 ++ cs.drop 24
  if cs.length = 36 && cs[8]? = some '-' && cs[13]? = some '-' && cs[18]? = some '-' &&
      cs[23]? = some '-' then some digits
  else none

def ofGrouped? (cs : List Char) : Option NodeId :=
  (ungrouped? cs).bind ofDigits?

/-- The name space that may stand before grouped digits. -/
def nameSpace : List Char := "urn:uuid:".toList

/-- Removes what may stand around grouped digits: braces, or the name space before them in letters
of either case. -/
def unwrapped (cs : List Char) : List Char :=
  if cs.length = 38 && cs.head? = some '\x7b' && cs.getLast? = some '\x7d' then
    (cs.drop 1).dropLast
  else if (cs.take 9).map Char.toLower = nameSpace then cs.drop 9
  else cs

/-- The identifier that a text spells. Digits may be of either case. Without groups nothing may
stand around them. -/
def ofChars? (cs : List Char) : Option NodeId :=
  (ofDigits? cs).or (ofGrouped? (unwrapped cs))

def ofText? (s : String) : Option NodeId :=
  ofChars? s.toList

/-- Whether the identifier is of the randomly generated kind, by its version digit. -/
def isRandom (id : NodeId) : Bool :=
  id.bits.toNat >>> 76 % 16 = 4

end NodeId

end OntologyGraph
