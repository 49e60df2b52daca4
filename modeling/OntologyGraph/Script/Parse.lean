import OntologyGraph.Fault
import OntologyGraph.Script.Reader
import OntologyGraph.Text.Shown

/-!
Scripts and single statements from text, with the line and column of what does not fit.
-/

namespace OntologyGraph.Script

/-- A place in a text, both counted from one. -/
structure Position where
  line : Nat
  column : Nat
deriving Repr, DecidableEq

/-- The place behind some text. -/
def Position.after (before : List Char) : Position where
  line := before.count '\n' + 1
  column := (before.reverse.takeWhile (· ≠ '\n')).length + 1

/-- The part of a text before its ending `spot`. -/
def upTo (source spot : List Char) : List Char :=
  source.take (source.length - spot.length)

/-- What a reader meets at the front of a text. -/
def unexpectedText : List Char → String
  | [] => "unexpected end of input"
  | c :: _ =>
    if c = '\n' then "unexpected end of line" else "unexpected character " ++ Text.shownChar c

/-- The wording of a misfit; `spot` is the text from where it is found. -/
def Misfit.message (spot : List Char) : Misfit → String
  | .unexpected => unexpectedText spot
  | .arity keyword expected found =>
    "'" ++ keyword.word ++ "' takes " ++ countText expected ++ " node reference" ++
      (if expected = 1 then "" else "s") ++ ", got " ++ countText found
  | .blockNotAllowed keyword => "'" ++ keyword.word ++ "' takes no property block"
  | .statementCount found => "expected exactly one statement, found " ++ countText found

/-- A text that is no script: what does not fit, and where. -/
structure SyntaxFault where
  message : String
  position : Position
deriving Repr, DecidableEq

def Refusal.located (source : List Char) (r : Refusal) : SyntaxFault where
  message := r.misfit.message r.spot
  position := .after (upTo source r.spot)

/-- The script that a text spells. -/
def parse (source : String) : Except SyntaxFault Script :=
  (readScript source.toList).mapError (Refusal.located source.toList)

/-- The statement that a text spells, if it spells exactly one. -/
def parseStatement (source : String) : Except SyntaxFault Statement :=
  match parse source with
  | .error fault => .error fault
  | .ok [statement] => .ok statement
  | .ok statements => .error ⟨(Misfit.statementCount statements.length).message [], ⟨1, 1⟩⟩

end OntologyGraph.Script
