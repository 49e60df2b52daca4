import OntologyGraph.Script.Tree
import OntologyGraph.Text.Backtick
import OntologyGraph.Text.Quoted

/-!
The text of statements. Reading it gives the same statements back. What is written for a block is
also a map of the graph's query language, so it can be spliced into a query.
-/

namespace OntologyGraph.Script

def Identifier.chars (i : Identifier) : List Char :=
  if i.quoted then Text.Backtick.encode i.name.toList else i.name.toList

def Identifier.text (i : Identifier) : String :=
  String.ofList i.chars

def Pair.chars (p : Pair) : List Char :=
  p.key.chars ++ ':' :: ' ' :: Text.Quoted.encode p.value.toList

/-- Pairs with a comma and a space between them. -/
def pairsChars : List Pair → List Char
  | [] => []
  | [pair] => pair.chars
  | pair :: pairs => pair.chars ++ ',' :: ' ' :: pairsChars pairs

def Block.chars (b : Block) : List Char :=
  '\x7b' :: (pairsChars b ++ ['\x7d'])

def Block.text (b : Block) : String :=
  String.ofList (Block.chars b)

def NodeRef.chars (n : NodeRef) : List Char :=
  match n.block with
  | none => n.label.chars
  | some block => n.label.chars ++ ' ' :: Block.chars block

def Statement.chars (s : Statement) : List Char :=
  s.keyword.word.toList ++ s.nodes.flatMap fun n => ' ' :: n.chars

/-- Statements, one on each line. -/
def statementsChars : List Statement → List Char
  | [] => []
  | [statement] => statement.chars
  | statement :: statements => statement.chars ++ '\n' :: statementsChars statements

/-- The text of a script. -/
def print (script : Script) : String :=
  String.ofList (statementsChars script)

/-- The block of a property map, as text. -/
def blockText (m : PropertyMap) : String :=
  (Block.ofProperties m).text

/-- A label, and the block of its properties unless there are none. -/
def patternText (label : String) (m : PropertyMap) : String :=
  let label := (Identifier.ofName label).text
  if m.isEmpty then label else label ++ " " ++ blockText m

end OntologyGraph.Script
