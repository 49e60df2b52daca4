import OntologyGraph.Script.Reader

/-!
The readers' answers without the bounds that their types carry. A bound serves termination only,
and it stands in the way of rewriting the text that is read; one equation for each reader says
what it comes to, and all that is proved of readers goes through these equations.
-/

namespace OntologyGraph.Script

/-- What a reading came to. The error is the spot where it got stuck, or nothing when nothing of
the kind began. -/
def Reading.outcome {α : Type} {limit : Nat} :
    Reading α limit → Except (Option (List Char)) (α × List Char)
  | .done value rest _ => .ok (value, rest)
  | .absent => .error none
  | .stuck spot => .error (some spot)

namespace Reading

variable {α β : Type} {m n : Nat}

@[simp] theorem outcome_done (value : α) (rest : List Char) (h : rest.length < n) :
    (Reading.done value rest h).outcome = .ok (value, rest) := rfl

@[simp] theorem outcome_absent : (Reading.absent : Reading α n).outcome = .error none := rfl

@[simp] theorem outcome_stuck (spot : List Char) :
    (Reading.stuck spot : Reading α n).outcome = .error (some spot) := rfl

@[simp] theorem outcome_map (f : α → β) (h : m ≤ n) (r : Reading α m) :
    (r.map f h).outcome = r.outcome.map fun (value, rest) => (f value, rest) := by
  cases r <;> rfl

end Reading

/-- The mark and what is behind it, or the spot where it is missing. -/
theorem outcome_expect (mark : Char) (cs : List Char) :
    (expect mark cs).outcome =
      match skipBreaks cs with
      | [] => .error (some [])
      | c :: rest => if c = mark then .ok ((), rest) else .error (some (c :: rest)) := by
  unfold expect
  split
  · next h => simp [h]
  · next c rest h =>
    by_cases hc : c = mark
    · simp [h, hc]
    · simp [h, hc]

theorem outcome_readWord_nil : (readWord []).outcome = .error none := rfl

theorem outcome_readWord_cons (c : Char) (cs : List Char) :
    (readWord (c :: cs)).outcome =
      if Text.isNameStart c then
        .ok (String.ofList (c :: cs.takeWhile Text.isNamePart), cs.dropWhile Text.isNamePart)
      else .error none := by
  by_cases hc : Text.isNameStart c = true
  · simp [readWord, hc]
  · simp [readWord, hc]

theorem outcome_readQuotedName_nil : (readQuotedName []).outcome = .error none := rfl

theorem outcome_readQuotedName_cons (c : Char) (cs : List Char) :
    (readQuotedName (c :: cs)).outcome =
      if c = Text.Backtick.mark then
        match Text.Backtick.readBody? cs with
        | some (name, rest) => .ok (String.ofList name, rest)
        | none => .error (some [])
      else .error none := by
  by_cases hc : c = Text.Backtick.mark
  · simp only [readQuotedName, hc, ↓reduceIte]
    split <;> next h => simp [h]
  · simp [readQuotedName, hc]

theorem outcome_readIdentifier (cs : List Char) :
    (readIdentifier cs).outcome =
      match (readQuotedName cs).outcome with
      | .error none => (readWord cs).outcome.map fun (word, rest) => (⟨word, false⟩, rest)
      | quoted => quoted.map fun (name, rest) => (⟨name, true⟩, rest) := by
  unfold readIdentifier
  cases readQuotedName cs <;> simp

theorem outcome_readText_nil : (readText []).outcome = .error none := rfl

theorem outcome_readText_cons (c : Char) (cs : List Char) :
    (readText (c :: cs)).outcome =
      if c = '"' then
        match Text.Quoted.readBody cs with
        | .ok (text, rest) => .ok (String.ofList text, rest)
        | .error spot => .error (some spot)
      else .error none := by
  by_cases hc : c = '"'
  · simp only [readText, hc, ↓reduceIte]
    split <;> next h => simp [h]
  · simp [readText, hc]

theorem outcome_readValue (cs : List Char) :
    (readValue cs).outcome =
      match (expect ':' cs).outcome with
      | .error e => .error e
      | .ok (_, rest) =>
        match (readText (skipBreaks rest)).outcome with
        | .error none => .error (some (skipBreaks rest))
        | value => value := by
  unfold readValue
  cases expect ':' cs with
  | absent => rfl
  | stuck spot => rfl
  | done u rest shorter =>
    simp only [Reading.outcome_done]
    cases readText (skipBreaks rest) <;> simp [Except.map]

theorem outcome_readPair (cs : List Char) :
    (readPair cs).outcome =
      match (readIdentifier cs).outcome with
      | .error e => .error e
      | .ok (key, rest) =>
        (readValue rest).outcome.map fun (text, rest) => (⟨key, text⟩, rest) := by
  unfold readPair
  cases readIdentifier cs <;> simp

theorem outcome_readPairs (cs : List Char) :
    (readPairs cs).outcome =
      match (readPair (skipBreaks cs)).outcome with
      | .error (some spot) => .error (some spot)
      | .error none => (expect '\x7d' cs).outcome.map fun (_, rest) => ([], rest)
      | .ok (pair, rest) =>
        match (expect ',' rest).outcome with
        | .ok (_, more) => (readPairs more).outcome.map fun (pairs, rest) => (pair :: pairs, rest)
        | .error _ => (expect '\x7d' rest).outcome.map fun (_, rest) => ([pair], rest) := by
  rw [readPairs]
  cases readPair (skipBreaks cs) with
  | absent => simp
  | stuck spot => simp
  | done pair rest shorter =>
    simp only [Reading.outcome_done]
    cases expect ',' rest <;> simp

theorem outcome_readBlock_nil : (readBlock []).outcome = .error none := rfl

theorem outcome_readBlock_cons (c : Char) (cs : List Char) :
    (readBlock (c :: cs)).outcome =
      if c = '\x7b' then (readPairs cs).outcome else .error none := by
  by_cases hc : c = '\x7b'
  · simp only [readBlock, hc, ↓reduceIte, Reading.outcome_map]
    cases readPairs cs <;> rfl
  · simp [readBlock, hc]

theorem outcome_readNode (cs : List Char) :
    (readNode cs).outcome =
      match (readIdentifier cs).outcome with
      | .error e => .error e
      | .ok (label, rest) =>
        match (readBlock (skipSpaces rest)).outcome with
        | .error none => .ok (⟨label, none⟩, rest)
        | block => block.map fun (b, rest) => (⟨label, some b⟩, rest) := by
  unfold readNode
  cases readIdentifier cs with
  | absent => rfl
  | stuck spot => rfl
  | done label rest shorter =>
    simp only [Reading.outcome_done]
    cases readBlock (skipSpaces rest) <;> simp

theorem outcome_readNodes (cs : List Char) :
    (readNodes cs).outcome =
      match (readNode (skipSpaces cs)).outcome with
      | .error none => .ok ([], cs)
      | .error (some spot) => .error (some spot)
      | .ok (node, rest) =>
        (readNodes rest).outcome.map fun (nodes, rest) => (node :: nodes, rest) := by
  rw [readNodes]
  cases readNode (skipSpaces cs) <;> simp

theorem outcome_readStatement (cs : List Char) :
    (readStatement cs).outcome =
      match (readWord cs).outcome with
      | .error e => .error e
      | .ok (word, rest) =>
        (readNodes rest).outcome.map fun (nodes, rest) => (⟨.ofWord word, nodes⟩, rest) := by
  unfold readStatement
  cases readWord cs <;> simp

/-- One step of reading a script, in terms of the outcomes of a statement and a separator. -/
theorem readStatements_eq (cs : List Char) :
    readStatements cs =
      if cs = [] then .ok []
      else
        match (readStatement cs).outcome with
        | .error none => .error ⟨.unexpected, cs⟩
        | .error (some spot) => .error ⟨.unexpected, spot⟩
        | .ok (statement, rest) =>
          match statement.misfit? with
          | some misfit => .error ⟨misfit, cs⟩
          | none =>
            if skipSpaces rest = [] then .ok [statement]
            else
              match (readSeparator (skipSpaces rest)).outcome with
              | .ok (_, more) => (readStatements (skipSeparators more)).map (statement :: ·)
              | .error _ => .error ⟨.unexpected, skipSpaces rest⟩ := by
  rw [readStatements]
  split
  · rfl
  · cases readStatement cs with
    | absent => rfl
    | stuck spot => rfl
    | done statement rest shorter =>
      simp only [Reading.outcome_done]
      cases statement.misfit? with
      | some misfit => rfl
      | none =>
        simp only
        split
        · rfl
        · cases readSeparator (skipSpaces rest) <;> rfl

end OntologyGraph.Script
