import OntologyGraph.Text.Hidden

/-!
Text shown to a reader between quotes, so that every character can be told from every other. The
quote, the backslash and the common controls are written with a backslash, and a character that
would not be seen is written as its code point in hexadecimal.
-/

namespace OntologyGraph.Text

/-- The code point of a character, as a backslash, `u` and braces. -/
def codePoint (c : Char) : List Char :=
  '\\' :: 'u' :: '\x7b' :: (Nat.toDigits 16 c.toNat ++ ['\x7d'])

/-- One character as it stands between two `quote` characters. -/
def shownWithin (quote c : Char) : List Char :=
  if c = '\x00' then ['\\', '0']
  else if c = '\t' then ['\\', 't']
  else if c = '\r' then ['\\', 'r']
  else if c = '\n' then ['\\', 'n']
  else if c = '\\' || c = quote then ['\\', c]
  else if isHidden c then codePoint c
  else [c]

/-- A character between single quotes. -/
def shownChar (c : Char) : String :=
  String.ofList ('\'' :: (shownWithin '\'' c ++ ['\'']))

/-- A text between double quotes. -/
def shownText (s : String) : String :=
  String.ofList ('"' :: (s.toList.flatMap (shownWithin '"') ++ ['"']))

end OntologyGraph.Text
