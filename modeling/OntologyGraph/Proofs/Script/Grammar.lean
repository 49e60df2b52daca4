import OntologyGraph.Script.Tree
import OntologyGraph.Text.Blank

/-!
The grammar of scripts, said without any reader. Each rule relates a text to what stands at its
front and to the text that follows. Tokens are as long as they can be: a bare name ends before a
character that could not continue it, and a closing backtick has no backtick behind it. Those two
conditions look one character ahead, which is why rules speak of the text that follows and not
only of the text of the thing itself.
-/

namespace OntologyGraph.Script.Grammar

def NameStart (c : Char) : Prop :=
  ('A' ≤ c ∧ c ≤ 'Z') ∨ ('a' ≤ c ∧ c ≤ 'z') ∨ c = '_'

def NamePart (c : Char) : Prop :=
  NameStart c ∨ ('0' ≤ c ∧ c ≤ '9')

/-- What separates the parts of a statement. -/
def Space (c : Char) : Prop :=
  c = ' ' ∨ c = '\t'

/-- What separates the parts of a block. -/
def SpaceOrBreak (c : Char) : Prop :=
  c = ' ' ∨ c = '\t' ∨ c = '\r' ∨ c = '\n'

/-- What may stand before, between and behind statements, besides the separator itself. -/
def Filler (c : Char) : Prop :=
  Text.isBlank c = true ∨ c = ';'

/-- Any number of characters of one class, and the text behind them. -/
def Run (p : Char → Prop) (cs rest : List Char) : Prop :=
  ∃ run, cs = run ++ rest ∧ ∀ c ∈ run, p c

def Stops (p : Char → Prop) (rest : List Char) : Prop :=
  ∀ c, rest.head? = some c → ¬ p c

/-- The text of a bare name: a letter or an underscore, then also digits. -/
def IsName : List Char → Prop
  | [] => False
  | c :: cs => NameStart c ∧ ∀ d ∈ cs, NamePart d

/-- A bare name that the text behind it does not continue. -/
def Word (cs : List Char) (word : String) (rest : List Char) : Prop :=
  cs = word.toList ++ rest ∧ IsName word.toList ∧ Stops NamePart rest

/-- What stands behind an opening backtick: the name with its backticks doubled, and a single
backtick that closes it. -/
inductive QuotedName : List Char → List Char → List Char → Prop where
  | close {rest : List Char} : Stops (· = '\x60') rest → QuotedName ('\x60' :: rest) [] rest
  | doubled {cs name rest : List Char} : QuotedName cs name rest →
      QuotedName ('\x60' :: '\x60' :: cs) ('\x60' :: name) rest
  | other {c : Char} {cs name rest : List Char} : c ≠ '\x60' → QuotedName cs name rest →
      QuotedName (c :: cs) (c :: name) rest

/-- The character behind a backslash, and the character that both stand for. -/
inductive Escape : Char → Char → Prop where
  | quote : Escape '"' '"'
  | backslash : Escape '\\' '\\'
  | newline : Escape 'n' '\n'
  | tab : Escape 't' '\t'
  | carriageReturn : Escape 'r' '\r'

/-- What stands behind an opening double quote: the text with its escapes, and a closing quote. -/
inductive QuotedText : List Char → List Char → List Char → Prop where
  | close {rest : List Char} : QuotedText ('"' :: rest) [] rest
  | escape {c d : Char} {cs text rest : List Char} : Escape c d → QuotedText cs text rest →
      QuotedText ('\\' :: c :: cs) (d :: text) rest
  | other {c : Char} {cs text rest : List Char} : c ≠ '"' → c ≠ '\\' → QuotedText cs text rest →
      QuotedText (c :: cs) (c :: text) rest

inductive Ident : List Char → Identifier → List Char → Prop where
  | bare {cs rest : List Char} {word : String} : Word cs word rest → Ident cs ⟨word, false⟩ rest
  | quoted {cs name rest : List Char} : QuotedName cs name rest →
      Ident ('\x60' :: cs) ⟨String.ofList name, true⟩ rest

inductive KeyText : List Char → Pair → List Char → Prop where
  | mk {cs afterKey beforeText chars text rest : List Char} {key : Identifier} :
      Ident cs key afterKey → Run SpaceOrBreak afterKey (':' :: beforeText) →
      Run SpaceOrBreak beforeText ('"' :: chars) → QuotedText chars text rest →
      KeyText cs ⟨key, String.ofList text⟩ rest

/-- One or more pairs with a comma between each and the next. -/
inductive KeyTexts : List Char → List Pair → List Char → Prop where
  | one {cs rest : List Char} {pair : Pair} : KeyText cs pair rest → KeyTexts cs [pair] rest
  | more {cs afterPair afterComma next rest : List Char} {pair : Pair} {pairs : List Pair} :
      KeyText cs pair afterPair → Run SpaceOrBreak afterPair (',' :: afterComma) →
      Run SpaceOrBreak afterComma next → KeyTexts next pairs rest →
      KeyTexts cs (pair :: pairs) rest

inductive LastComma : List Char → List Char → Prop where
  | absent {cs : List Char} : LastComma cs cs
  | present {cs rest : List Char} : Run SpaceOrBreak cs (',' :: rest) → LastComma cs rest

inductive Braced : List Char → Block → List Char → Prop where
  | empty {cs rest : List Char} : Run SpaceOrBreak cs ('\x7d' :: rest) →
      Braced ('\x7b' :: cs) [] rest
  | pairs {cs first afterPairs beforeBrace rest : List Char} {pairs : List Pair} :
      Run SpaceOrBreak cs first → KeyTexts first pairs afterPairs →
      LastComma afterPairs beforeBrace → Run SpaceOrBreak beforeBrace ('\x7d' :: rest) →
      Braced ('\x7b' :: cs) pairs rest

inductive Reference : List Char → NodeRef → List Char → Prop where
  | bare {cs rest : List Char} {label : Identifier} : Ident cs label rest →
      Reference cs ⟨label, none⟩ rest
  | braced {cs afterLabel beforeBlock rest : List Char} {label : Identifier} {block : Block} :
      Ident cs label afterLabel → Run Space afterLabel beforeBlock →
      Braced beforeBlock block rest → Reference cs ⟨label, some block⟩ rest

/-- Any number of node references, each with spaces before it or none. -/
inductive References : List Char → List NodeRef → List Char → Prop where
  | nil {cs : List Char} : References cs [] cs
  | cons {cs beforeNode afterNode rest : List Char} {node : NodeRef} {nodes : List NodeRef} :
      Run Space cs beforeNode → Reference beforeNode node afterNode →
      References afterNode nodes rest → References cs (node :: nodes) rest

def knownWords : List String :=
  ["node", "property", "relationship", "require_property", "set_property", "set_subclass",
    "set_relationship", "info"]

/-- A known word never counts as an unknown one. -/
def ProperKeyword (k : Keyword) : Prop :=
  ∀ word, k = .other word → word ∉ knownWords

/-- A known keyword has the node references that it takes, and `info` no block. -/
def ProperShape (s : Statement) : Prop :=
  (∀ n, s.keyword.arity? = some n → s.nodes.length = n) ∧
    (s.keyword = .info → ∀ node ∈ s.nodes, node.block = none)

inductive Sentence : List Char → Statement → List Char → Prop where
  | mk {cs afterWord rest : List Char} {keyword : Keyword} {nodes : List NodeRef} :
      Word cs keyword.word afterWord → ProperKeyword keyword → References afterWord nodes rest →
      ProperShape ⟨keyword, nodes⟩ → Sentence cs ⟨keyword, nodes⟩ rest

/-- A semicolon or a line break. A carriage return alone is none. -/
inductive Separator : List Char → List Char → Prop where
  | semicolon {rest : List Char} : Separator (';' :: rest) rest
  | lineFeed {rest : List Char} : Separator ('\n' :: rest) rest
  | carriageReturn {rest : List Char} : Separator ('\r' :: '\n' :: rest) rest

/-- What follows a statement: the end of the text, or a separator with fillers behind it. -/
inductive Sentences : List Char → Script → Prop where
  | nil : Sentences [] []
  | last {cs afterStatement : List Char} {statement : Statement} :
      Sentence cs statement afterStatement → Run Space afterStatement [] →
      Sentences cs [statement]
  | cons {cs afterStatement beforeSeparator afterSeparator next : List Char}
      {statement : Statement} {script : Script} :
      Sentence cs statement afterStatement → Run Space afterStatement beforeSeparator →
      Separator beforeSeparator afterSeparator → Run Filler afterSeparator next →
      Sentences next script → Sentences cs (statement :: script)

/-- The whole text `cs` is a script that spells `script`. -/
inductive Spells : List Char → Script → Prop where
  | mk {cs first : List Char} {script : Script} : Run Filler cs first → Sentences first script →
      Spells cs script

end OntologyGraph.Script.Grammar
