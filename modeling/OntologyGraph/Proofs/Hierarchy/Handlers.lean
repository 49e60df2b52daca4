import Mathlib.Logic.Function.Basic
import OntologyGraph.Proofs.Command.WriteDiscipline
import OntologyGraph.Proofs.Hierarchy.Graph

/-!
Any number of handlers at work on one graph, their requests in any order. Of the store only this is
assumed: labels of classes are unique, each request is one step, a merge does what its text says
under the guards that stand in the text, and a query that does not name the edge behind a word for
making edges makes none. What a handler reads may be out of date or wrong.
-/

namespace OntologyGraph

open Schema Store

structure Exchange (N : Type) where
  before : Hierarchy N
  event : Event
  after : Hierarchy N

/-- What is assumed of a request as one step of the store. It is the text of a query that says what
the query does, whoever sends it. -/
structure Exchange.Lawful {N : Type} (x : Exchange N) : Prop where
  guarded : ∀ (merge : GuardedMerge) query answer, x.event = .fetch query answer →
    query.text = merge.text → x.before.Sets merge answer x.after
  other : x.event.query.canMake subclassEdge = false → x.before.Shrinks x.after

namespace Exchange

variable {N : Type}

/-- A query that is no merge may be answered in any way, and leave the graph as it is. -/
theorem Lawful.of_other (g : Hierarchy N) {query : Query} {rows : Rows}
    (h : ¬ ∃ merge : GuardedMerge, query.text = merge.text) :
    Lawful ⟨g, .fetch query rows, g⟩ where
  guarded := by
    rintro merge _ _ ⟨⟩ htext
    exact absurd ⟨merge, htext⟩ h
  other _ := fun _ _ hparent => hparent

/-- A request that cannot make a subclass edge is lawful if it leaves the graph as it was. -/
theorem Lawful.of_unchanged (g : Hierarchy N) {query : Query} (rows : Rows)
    (h : query.canMake subclassEdge = false) : Lawful ⟨g, .fetch query rows, g⟩ := by
  apply of_other
  rintro ⟨merge, htext⟩
  rw [GuardedMerge.canMake htext] at h
  cases h

/-- The text of a merge tells its guards and its ends, so doing what they ask for is lawful. -/
theorem Lawful.of_sets {before after : Hierarchy N} {merge : GuardedMerge} {query : Query}
    {answer : Rows} (htext : query.text = merge.text) (h : before.Sets merge answer after) :
    Lawful ⟨before, .fetch query answer, after⟩ where
  guarded := by
    rintro merge' _ _ ⟨⟩ htext'
    exact h.congr (htext.symm.trans htext')
  other hmake := by
    have hnone : query.canMake subclassEdge = false := hmake
    rw [GuardedMerge.canMake htext] at hnone
    cases hnone

/-- The laws never leave the store without an answer to a read. -/
theorem exists_lawful (before : Hierarchy N) (query : Query) :
    ∃ rows after, Lawful ⟨before, .fetch query rows, after⟩ := by
  by_cases hmerge : ∃ merge : GuardedMerge, query.text = merge.text
  · obtain ⟨merge, htext⟩ := hmerge
    obtain ⟨rows, after, hsets⟩ := before.exists_sets merge
    exact ⟨.ok rows, after, .of_sets htext hsets⟩
  · exact ⟨.ok [], before, .of_other before hmerge⟩

end Exchange

/-- The guarded write of an edge gave a row: both ends matched, the guards held, and the edge is
there now. -/
def Exchange.MakesEdge {N : Type} (x : Exchange N) (single : Bool)
    (subject target : NodePattern) : Prop :=
  ∃ rows s t, x.event = .fetch (Subclass.write single subject target) (.ok rows) ∧ rows ≠ [] ∧
    x.before.Eligible (Subclass.merge single subject target) s t ∧ x.after.parent s t

/-- A command that a handler carries out, with its exchanges so far and what is left to run. -/
structure Work (N : Type) where
  command : Command
  exchanges : List (Exchange N)
  rest : Program (Except CommandFault Outcome)

def Work.begin {N : Type} (settings : OntologySettings) (command : Command) : Work N where
  command := command
  exchanges := []
  rest := (command.run settings).run

structure Handlers (ι N : Type) where
  graph : Hierarchy N
  work : ι → Option (Work N)

namespace Handlers

variable {ι N : Type} [DecidableEq ι]

def idle (graph : Hierarchy N) : Handlers ι N :=
  ⟨graph, fun _ => none⟩

/-- One step of one handler. A handler can leave a command at any time and begin the next. -/
inductive Step (settings : ι → OntologySettings) : Handlers ι N → Handlers ι N → Prop where
  | begin {S : Handlers ι N} (i : ι) (command : Command) :
      Step settings S
        { S with work := Function.update S.work i (some (.begin (settings i) command)) }
  /-- The next request is answered. -/
  | request {S : Handlers ι N} {i : ι} {w : Work N} {event : Event}
      {rest : Program (Except CommandFault Outcome)} {after : Hierarchy N} :
      S.work i = some w → w.rest.Reaches [event] rest →
      Exchange.Lawful ⟨S.graph, event, after⟩ →
      Step settings S
        { graph := after
          work := Function.update S.work i
            (some { w with exchanges := w.exchanges ++ [⟨S.graph, event, after⟩], rest }) }
  /-- A handler goes on without a request, drawing stamps. -/
  | draw {S : Handlers ι N} {i : ι} {w : Work N}
      {rest : Program (Except CommandFault Outcome)} :
      S.work i = some w → w.rest.Reaches [] rest →
      Step settings S { S with work := Function.update S.work i (some { w with rest }) }

/-- Handlers that come from idle ones by steps in any order. -/
def Reachable (settings : ι → OntologySettings) (start : Hierarchy N) (S : Handlers ι N) : Prop :=
  Relation.ReflTransGen (Step settings) (idle start) S

end Handlers

end OntologyGraph
