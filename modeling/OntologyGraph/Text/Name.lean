/-!
Bare names: a letter or underscore, then letters, digits and underscores, all of ASCII.
-/

namespace OntologyGraph.Text

def isNameStart (c : Char) : Bool :=
  c.isAlpha || c == '_'

def isNamePart (c : Char) : Bool :=
  c.isAlphanum || c == '_'

/-- Whether a text can be written as a name without quotes. -/
def isName : List Char → Bool
  | [] => false
  | c :: cs => isNameStart c && cs.all isNamePart

end OntologyGraph.Text
