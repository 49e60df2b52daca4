import OntologyGraph.Script.Tree
import OntologyGraph.Text.Backtick
import OntologyGraph.Text.Blank
import OntologyGraph.Text.Quoted

/-!
Reading statements from text. Each reader takes one thing from the front of a text and leaves the
rest. Where nothing of its kind begins it says so and the caller can look for something else; once
a thing has begun it must also end, or the whole text is refused at the character that does not
fit.

Spaces and tabs separate the parts of a statement, line breaks or semicolons one statement from
the next, and between the parts of a block line breaks are allowed too.
-/

namespace OntologyGraph.Script

/-- What a reader made of a text. The rest is shorter than `limit`. -/
inductive Reading (α : Type) (limit : Nat) where
  | done (value : α) (rest : List Char) (shorter : rest.length < limit)
  /-- Nothing of the kind begins here. -/
  | absent
  /-- The thing began, and cannot go on with what the text holds at `spot`. -/
  | stuck (spot : List Char)

/-- The reading with its value changed, in a longer text. -/
def Reading.map {α β : Type} {m n : Nat} (f : α → β) (h : m ≤ n) : Reading α m → Reading β n
  | .done value rest shorter => .done (f value) rest (Nat.lt_of_lt_of_le shorter h)
  | .absent => .absent
  | .stuck spot => .stuck spot

def isSpace (c : Char) : Bool :=
  c == ' ' || c == '\t'

def isSpaceOrBreak (c : Char) : Bool :=
  isSpace c || c == '\n' || c == '\r'

def isSeparator (c : Char) : Bool :=
  Text.isBlank c || c == ';'

theorem length_dropWhile_le (p : Char → Bool) (cs : List Char) :
    (cs.dropWhile p).length ≤ cs.length :=
  (List.dropWhile_sublist p).length_le

/-- The text behind spaces, tabs and line breaks. -/
def skipBreaks (cs : List Char) : List Char :=
  cs.dropWhile isSpaceOrBreak

/-- The text behind spaces and tabs. -/
def skipSpaces (cs : List Char) : List Char :=
  cs.dropWhile isSpace

theorem length_skipBreaks_le (cs : List Char) : (skipBreaks cs).length ≤ cs.length :=
  length_dropWhile_le _ cs

theorem length_skipSpaces_le (cs : List Char) : (skipSpaces cs).length ≤ cs.length :=
  length_dropWhile_le _ cs

/-- Spaces or line breaks and then the character `mark`, which has to be there. -/
def expect (mark : Char) (cs : List Char) : Reading Unit cs.length :=
  match h : skipBreaks cs with
  | [] => .stuck []
  | c :: rest =>
    if c = mark then
      .done () rest (by
        have := length_skipBreaks_le cs
        simp only [h, List.length_cons] at this
        omega)
    else .stuck (c :: rest)

/-- A bare word, as long as it goes. -/
def readWord (cs : List Char) : Reading String cs.length :=
  match cs with
  | [] => .absent
  | c :: cs =>
    if Text.isNameStart c then
      .done (String.ofList (c :: cs.takeWhile Text.isNamePart)) (cs.dropWhile Text.isNamePart)
        (Nat.lt_succ_of_le (length_dropWhile_le _ cs))
    else .absent

/-- A name between backticks. -/
def readQuotedName (cs : List Char) : Reading String cs.length :=
  match cs with
  | [] => .absent
  | c :: cs =>
    if c = Text.Backtick.mark then
      match h : Text.Backtick.readBody? cs with
      | some (name, rest) =>
        .done (String.ofList name) rest (Nat.lt_succ_of_lt (Text.Backtick.readBody?_length h))
      | none => .stuck []
    else .absent

def readIdentifier (cs : List Char) : Reading Identifier cs.length :=
  match readQuotedName cs with
  | .absent => (readWord cs).map (⟨·, false⟩) (Nat.le_refl _)
  | quoted => quoted.map (⟨·, true⟩) (Nat.le_refl _)

/-- A text between double quotes. -/
def readText (cs : List Char) : Reading String cs.length :=
  match cs with
  | [] => .absent
  | c :: cs =>
    if c = '"' then
      match h : Text.Quoted.readBody cs with
      | .ok (text, rest) =>
        .done (String.ofList text) rest (Nat.lt_succ_of_lt (Text.Quoted.readBody_length h))
      | .error spot => .stuck spot
    else .absent

/-- What follows a key: a colon and a text. -/
def readValue (cs : List Char) : Reading String cs.length :=
  match expect ':' cs with
  | .absent => .absent
  | .stuck spot => .stuck spot
  | .done _ rest shorter =>
    match readText (skipBreaks rest) with
    | .absent => .stuck (skipBreaks rest)
    | value =>
      value.map id (Nat.le_trans (length_skipBreaks_le rest) (Nat.le_of_lt shorter))

/-- A key, a colon and a text. -/
def readPair (cs : List Char) : Reading Pair cs.length :=
  match readIdentifier cs with
  | .absent => .absent
  | .stuck spot => .stuck spot
  | .done key rest shorter => (readValue rest).map (⟨key, ·⟩) (Nat.le_of_lt shorter)

/-- The pairs of a block and its closing brace, from after the opening brace or a comma. -/
def readPairs (cs : List Char) : Reading Block cs.length :=
  match readPair (skipBreaks cs) with
  | .stuck spot => .stuck spot
  | .absent => (expect '\x7d' cs).map (fun _ => []) (Nat.le_refl _)
  | .done pair rest shorter =>
    have shorter : rest.length < cs.length := Nat.lt_of_lt_of_le shorter (length_skipBreaks_le cs)
    match expect ',' rest with
    | .done _ more shorter' => (readPairs more).map (pair :: ·) (by omega)
    | _ => (expect '\x7d' rest).map (fun _ => [pair]) (Nat.le_of_lt shorter)
termination_by cs.length

/-- Pairs between braces. A comma may follow the last of them. -/
def readBlock (cs : List Char) : Reading Block cs.length :=
  match cs with
  | [] => .absent
  | c :: cs =>
    if c = '\x7b' then (readPairs cs).map id (Nat.le_succ _) else .absent

/-- A label and, behind it, a block if there is one. -/
def readNode (cs : List Char) : Reading NodeRef cs.length :=
  match readIdentifier cs with
  | .absent => .absent
  | .stuck spot => .stuck spot
  | .done label rest shorter =>
    match readBlock (skipSpaces rest) with
    | .absent => .done ⟨label, none⟩ rest shorter
    | block =>
      block.map (fun b => ⟨label, some b⟩)
        (Nat.le_trans (length_skipSpaces_le rest) (Nat.le_of_lt shorter))

/-- Node references up to where none begins. -/
def readNodes (cs : List Char) : Reading (List NodeRef) (cs.length + 1) :=
  match readNode (skipSpaces cs) with
  | .absent => .done [] cs (Nat.lt_succ_self _)
  | .stuck spot => .stuck spot
  | .done node rest shorter =>
    have shorter : rest.length < cs.length := Nat.lt_of_lt_of_le shorter (length_skipSpaces_le cs)
    (readNodes rest).map (node :: ·) (by omega)
termination_by cs.length

/-- A keyword and its node references. -/
def readStatement (cs : List Char) : Reading Statement cs.length :=
  match readWord cs with
  | .absent => .absent
  | .stuck spot => .stuck spot
  | .done word rest shorter => (readNodes rest).map (⟨.ofWord word, ·⟩) shorter

/-- A semicolon or a line break. -/
def readSeparator (cs : List Char) : Reading Unit cs.length :=
  match cs with
  | ';' :: rest => .done () rest (Nat.lt_succ_self _)
  | '\n' :: rest => .done () rest (Nat.lt_succ_self _)
  | '\r' :: '\n' :: rest => .done () rest (Nat.lt_succ_of_lt (Nat.lt_succ_self _))
  | _ => .absent

/-- The text behind blanks and semicolons. -/
def skipSeparators (cs : List Char) : List Char :=
  cs.dropWhile isSeparator

/-- Why a text is no script. -/
inductive Misfit where
  /-- A character, or the end of the text, where it does not fit. -/
  | unexpected
  | arity (keyword : Keyword) (expected found : Nat)
  | blockNotAllowed (keyword : Keyword)
  /-- Another number of statements than one. -/
  | statementCount (found : Nat)
deriving Repr, DecidableEq

/-- Why a statement is none that its keyword allows. -/
def Statement.misfit? (s : Statement) : Option Misfit :=
  match s.keyword.arity? with
  | none => none
  | some expected =>
    if s.nodes.length ≠ expected then some (.arity s.keyword expected s.nodes.length)
    else if !s.keyword.allowsBlocks && s.nodes.any (·.block.isSome) then
      some (.blockNotAllowed s.keyword)
    else none

/-- A misfit, and the text from where it is found. -/
structure Refusal where
  misfit : Misfit
  spot : List Char
deriving Repr, DecidableEq

/-- Statements up to the end of a text that does not begin with a separator. -/
def readStatements (cs : List Char) : Except Refusal Script :=
  if cs = [] then .ok []
  else
    match readStatement cs with
    | .absent => .error ⟨.unexpected, cs⟩
    | .stuck spot => .error ⟨.unexpected, spot⟩
    | .done statement rest shorter =>
      match statement.misfit? with
      | some misfit => .error ⟨misfit, cs⟩
      | none =>
        if skipSpaces rest = [] then .ok [statement]
        else
          match readSeparator (skipSpaces rest) with
          | .done _ more shorter' =>
            have : (skipSeparators more).length < cs.length := by
              have h₁ := length_skipSpaces_le rest
              have h₂ := length_dropWhile_le isSeparator more
              simp only [skipSeparators]
              omega
            (readStatements (skipSeparators more)).map (statement :: ·)
          | _ => .error ⟨.unexpected, skipSpaces rest⟩
termination_by cs.length

def readScript (cs : List Char) : Except Refusal Script :=
  readStatements (skipSeparators cs)

end OntologyGraph.Script
