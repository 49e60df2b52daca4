import OntologyGraph.Instances
import OntologyGraph.Proofs.Script.Blocks
import OntologyGraph.Proofs.Store.Repeating
import OntologyGraph.Script.Printer

/-!
Labels in the texts of queries. A label cannot be a parameter, so it is spliced in, and any text at
all can be a label. What a reader of quoted names takes from behind the place of the splice is the
label, or the list of the labels, and no more: no label ends its quoting early, takes in the text
that follows, or stands for two labels.
-/

namespace OntologyGraph

namespace Text

def behindFirst? (mark : List Char) : List Char → Option (List Char)
  | [] => mark.isPrefixOf? []
  | c :: cs => (mark.isPrefixOf? (c :: cs)).or (behindFirst? mark cs)

end Text

namespace Script

/-- A quoted name is read up to its own closing quote, whatever the name is. -/
theorem outcome_readQuotedName_encodeText (name : String) {rest : List Char}
    (h : rest.head? ≠ some Text.Backtick.mark) :
    (readQuotedName ((Text.Backtick.encodeText name).toList ++ rest)).outcome =
      .ok (name, rest) := by
  have hchars : (Text.Backtick.encodeText name).toList ++ rest =
      Text.Backtick.mark ::
        (Text.Backtick.encodeBody name.toList ++ Text.Backtick.mark :: rest) := by
    simp [Text.Backtick.encodeText, Text.Backtick.encode]
  rw [hchars, outcome_readQuotedName_cons, if_pos rfl]
  simp only [Text.Backtick.readBody?_encodeBody name.toList h, String.ofList_toList]

/-- Quoted names with a colon between each and the next, and the text behind the last of them. -/
def readNames? (cs : List Char) : Option (List String × List Char) :=
  match readQuotedName cs with
  | .absent => none
  | .stuck _ => none
  | .done name rest _ =>
    if rest.head? = some ':' then
      (readNames? rest.tail).map fun (names, behind) => (name :: names, behind)
    else some ([name], rest)
termination_by cs.length
decreasing_by
  rw [List.length_tail]
  omega

private theorem readNames?_of_outcome {cs rest : List Char} {name : String}
    (h : (readQuotedName cs).outcome = .ok (name, rest)) :
    readNames? cs =
      if rest.head? = some ':' then
        (readNames? rest.tail).map fun (names, behind) => (name :: names, behind)
      else some ([name], rest) := by
  obtain ⟨shorter, hread⟩ := done_of_outcome_eq h
  rw [readNames?, hread]

private theorem readNames?_encodeText (name : String) :
    readNames? (Text.Backtick.encodeText name).toList = some ([name], []) := by
  have hread : (readQuotedName ((Text.Backtick.encodeText name).toList ++ [])).outcome =
      .ok (name, []) := outcome_readQuotedName_encodeText name (by simp)
  rw [List.append_nil] at hread
  rw [readNames?_of_outcome hread]
  rfl

/-- The colon behind a name is never part of the name. -/
private theorem readNames?_encodeText_colon (name : String) (more : List Char) :
    readNames? ((Text.Backtick.encodeText name).toList ++ ':' :: more) =
      (readNames? more).map fun (names, behind) => (name :: names, behind) := by
  have hcolon : (':' :: more).head? ≠ some Text.Backtick.mark := by simp [Text.Backtick.mark]
  rw [readNames?_of_outcome (outcome_readQuotedName_encodeText name hcolon)]
  rfl

end Script

namespace Instances

open Store

/-- A list of quoted labels is read back name by name, with nothing left. -/
theorem readNames?_labelList {labels : List String} (h : labels ≠ []) :
    Script.readNames? (labelList labels).toList = some (labels, []) := by
  induction labels with
  | nil => exact absurd rfl h
  | cons label labels ih =>
    cases labels with
    | nil => simpa [labelList] using Script.readNames?_encodeText label
    | cons next labels =>
      have hchars : (labelList (label :: next :: labels)).toList =
          (Text.Backtick.encodeText label).toList ++
            ':' :: (labelList (next :: labels)).toList := by
        simp [labelList]
      rw [hchars, Script.readNames?_encodeText_colon, ih (List.cons_ne_nil next labels)]
      rfl

def labelMark : List Char := " SET o:".toList

/-- The first mark of the store text is the one before its labels: none comes earlier. -/
theorem behindFirst?_storeText {labels : List String} (h : labels ≠ []) :
    Text.behindFirst? labelMark (storeText labels).toList = some (labelList labels).toList := by
  have hlabels : labels.isEmpty = false := by simpa using h
  simp only [storeText, hlabels, Bool.false_eq_true, if_false, String.toList_append]
  -- The mark ends before the labels begin, so the search never looks at them.
  rfl

private theorem behindFirst?_storeText_nil :
    Text.behindFirst? labelMark (storeText []).toList = none := by
  decide

/-- The labels that a text spells behind the mark, and what is behind them. A text without the mark
spells no labels. -/
def spelledLabels? (cs : List Char) : Option (List String × List Char) :=
  match Text.behindFirst? labelMark cs with
  | none => some ([], [])
  | some behind => Script.readNames? behind

/-- The text that stores a node spells its labels, and nothing in them ends the spelling early. -/
theorem spelledLabels?_storeText (labels : List String) :
    spelledLabels? (storeText labels).toList = some (labels, []) := by
  unfold spelledLabels?
  by_cases h : labels = []
  · rw [h, behindFirst?_storeText_nil]
  · rw [behindFirst?_storeText h]
    exact readNames?_labelList h

/-- Different lists of labels never give the same text. -/
theorem storeText_injective : Function.Injective storeText := by
  intro labels labels' htext
  have hspelled := spelledLabels?_storeText labels
  rw [htext, spelledLabels?_storeText labels'] at hspelled
  cases hspelled
  rfl

variable {σ : Type} (backend : Backend σ) (state : σ)

/-- A node with a title is stored by one write; any other is refused and nothing is written. -/
theorem trace_store (node : Node) :
    (store node).run.trace backend state =
      if (node.title?.getD "").isEmpty then []
      else [.execute (storeQuery node) (backend.execute (storeQuery node) state).1] := by
  unfold store
  split <;> rfl

/-- Storing a node sends the one query of this node. -/
theorem query_of_mem_trace_store {node : Node} {event : Event}
    (h : event ∈ (store node).run.trace backend state) : event.query = storeQuery node := by
  rw [trace_store] at h
  split at h
  · cases h
  · cases List.mem_singleton.mp h
    rfl

def countMark : List Char := "MATCH (n:".toList

def countTail : List Char :=
  (") WHERE all(k IN keys($properties) WHERE n[k] = $properties[k]) " ++
    "RETURN count(n) AS count").toList

theorem behindFirst?_countQuery (label : String) (properties : PropertyMap) :
    Text.behindFirst? countMark (countQuery label properties).text.toList =
      some ((Text.Backtick.encodeText label).toList ++ countTail) := by
  simp only [countQuery, String.toList_append]
  rfl

/-- What follows the label begins with a bracket, so the label's closing quote ends it. -/
private theorem outcome_readQuotedName_count (label : String) :
    (Script.readQuotedName ((Text.Backtick.encodeText label).toList ++ countTail)).outcome =
      .ok (label, countTail) :=
  Script.outcome_readQuotedName_encodeText label (by decide)

/-- The text of a count tells the label it counts. -/
theorem countQuery_text_eq_iff (label label' : String) (properties properties' : PropertyMap) :
    (countQuery label properties).text = (countQuery label' properties').text ↔
      label = label' := by
  constructor
  · intro h
    have hbehind := behindFirst?_countQuery label properties
    rw [h, behindFirst?_countQuery, Option.some.injEq] at hbehind
    have hread := outcome_readQuotedName_count label
    rw [← hbehind, outcome_readQuotedName_count label'] at hread
    cases hread
    rfl
  · rintro rfl
    rfl

/-- Labels are counted by one read. -/
theorem trace_count (label : String) (properties : PropertyMap) :
    (count label properties).run.trace backend state =
      [.fetch (countQuery label properties)
        (backend.fetch (countQuery label properties) state).1] := by
  have hrun : (count label properties).run =
      Program.bind (Action.fetch OntologyFault.store (countQuery label properties)).run
        (ExceptT.bindCont fun rows => pure (countOfRows rows)) := rfl
  have hquiet (rows? : Except OntologyFault (List Row)) (state : σ) :
      Program.trace backend
        (ExceptT.bindCont (fun rows => (pure (countOfRows rows) : Action OntologyFault Nat)) rows?)
        state = [] := by
    cases rows? <;> rfl
  rw [hrun, Program.trace_bind, hquiet, List.append_nil]
  rfl

/-- No text of a label gets out of its quotes. The write that stores a node spells, behind the
place where its labels are spliced in, exactly its labels and nothing more; the read that counts a
label spells that label; a quoted label is what a quoted name is printed as, and is read back
before any text that does not begin with a backtick. So different labels are never counted, and
nodes with different labels never stored, by the same text. -/
theorem labels_stay_quoted :
    (∀ (node : Node) (title : String), node.title? = some title → title ≠ "" → node.labels ≠ [] →
      ∀ {σ : Type} (backend : Backend σ) (state : σ), ∃ query written behind,
        (store node).run.trace backend state = [.execute query written] ∧
        Text.behindFirst? labelMark query.text.toList = some behind ∧
        Script.readNames? behind = some (node.labels, [])) ∧
    (∀ (label : String) (rest : List Char), rest.head? ≠ some Text.Backtick.mark →
      ∃ shorter, Script.readQuotedName ((Text.Backtick.encodeText label).toList ++ rest) =
        .done label rest shorter) ∧
    (∀ (label : String) (properties : PropertyMap) {σ : Type} (backend : Backend σ) (state : σ),
      ∃ query rows behind rest shorter,
        (count label properties).run.trace backend state = [.fetch query rows] ∧
        Text.behindFirst? countMark query.text.toList = some behind ∧
        Script.readQuotedName behind = .done label rest shorter) ∧
    (∀ label label' properties properties',
      (countQuery label properties).text = (countQuery label' properties').text ↔
        label = label') ∧
    (∀ label : String, Text.Backtick.encodeText label = (Script.Identifier.mk label true).text) ∧
    (∀ node node' : Node, node.labels ≠ node'.labels →
      ∀ {σ σ' : Type} (backend : Backend σ) (state : σ) (backend' : Backend σ') (state' : σ'),
        ∀ event ∈ (store node).run.trace backend state,
        ∀ event' ∈ (store node').run.trace backend' state',
          event.query.text ≠ event'.query.text) := by
  refine ⟨?stored, ?read, ?counted, countQuery_text_eq_iff, fun label => rfl, ?apart⟩
  case stored =>
    intro node title htitle hne hlabels σ backend state
    have htitled : (node.title?.getD "").isEmpty = false := by simpa [htitle] using hne
    have htrace : (store node).run.trace backend state =
        [.execute (storeQuery node) (backend.execute (storeQuery node) state).1] := by
      rw [trace_store, htitled]
      rfl
    exact ⟨storeQuery node, _, (labelList node.labels).toList, htrace,
      behindFirst?_storeText hlabels, readNames?_labelList hlabels⟩
  case read =>
    intro label rest hrest
    exact Script.done_of_outcome_eq (Script.outcome_readQuotedName_encodeText label hrest)
  case counted =>
    intro label properties σ backend state
    obtain ⟨shorter, hread⟩ := Script.done_of_outcome_eq (outcome_readQuotedName_count label)
    exact ⟨countQuery label properties, _, _, countTail, shorter,
      trace_count backend state label properties, behindFirst?_countQuery label properties, hread⟩
  case apart =>
    intro node node' hlabels σ σ' backend state backend' state' event hevent event' hevent' htext
    rw [query_of_mem_trace_store backend state hevent,
      query_of_mem_trace_store backend' state' hevent'] at htext
    exact hlabels (storeText_injective htext)

/-- A node whose labels look like the quotes, the colons and the clauses around them. -/
def trickyNode : Node where
  id := ⟨7⟩
  labels := ["", "\x60", "a\x60:\x60b", "x\x60 SET o:\x60Admin", "\x60\x60end"]
  properties := .ofList [("title", .text "Homo sapiens")]

/-- The same node, with one label in the place of the first two that looks like both of them. -/
def joinedNode : Node :=
  { trickyNode with
    labels := ["\x60:\x60\x60", "a\x60:\x60b", "x\x60 SET o:\x60Admin", "\x60\x60end"] }

theorem labels_stay_quoted_trickyNode :
    let backend := Backend.ofAnswers fun _ => []
    (trickyNode.title? = some "Homo sapiens" ∧ trickyNode.labels ≠ [] ∧
      ∃ query written behind,
        (store trickyNode).run.trace backend () = [.execute query written] ∧
        Text.behindFirst? labelMark query.text.toList = some behind ∧
        Script.readNames? behind = some (trickyNode.labels, [])) ∧
    (∃ shorter,
      Script.readQuotedName ((Text.Backtick.encodeText "\x60").toList ++ [':', '\x60']) =
        .done "\x60" [':', '\x60'] shorter) ∧
    (storeQuery trickyNode).text ≠ (storeQuery joinedNode).text := by
  intro backend
  obtain ⟨hstored, hread, -, -, -, hapart⟩ := labels_stay_quoted
  have htitle : trickyNode.title? = some "Homo sapiens" := by decide
  have hlabels : trickyNode.labels ≠ [] := by decide
  have hne : trickyNode.labels ≠ joinedNode.labels := by decide
  refine ⟨⟨htitle, hlabels, ?_⟩, hread "\x60" [':', '\x60'] (by decide), ?_⟩
  · exact hstored trickyNode "Homo sapiens" htitle (by decide) hlabels backend ()
  · exact hapart trickyNode joinedNode hne backend () backend ()
      (.execute (storeQuery trickyNode) (.ok ())) List.mem_cons_self
      (.execute (storeQuery joinedNode) (.ok ())) List.mem_cons_self

end Instances

end OntologyGraph
