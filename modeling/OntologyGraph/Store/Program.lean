import OntologyGraph.Fault
import OntologyGraph.NodeId
import OntologyGraph.PropertyMap

/-!
Programs that ask a graph store. A program is data: it stops with a value, or makes one request
and goes on with the answer. What a store does with a request is said apart, so a program can be
run on any store, watched, or run step by step beside others.
-/

namespace OntologyGraph.Store

open Time

/-- A query text with the parameters that it refers to. -/
structure Query where
  text : String
  params : PropertyMap := .empty

/-- What marks a node as new: an identifier that no other has, and the present time. -/
structure Stamp where
  id : NodeId
  now : Instant

abbrev Rows := Except StoreFault (List Row)
abbrev Written := Except StoreFault Unit

inductive Program (α : Type) where
  | done (value : α)
  /-- A read, answered by rows. -/
  | fetch (query : Query) (next : Rows → Program α)
  /-- A write without an answer other than its success. -/
  | execute (query : Query) (next : Written → Program α)
  /-- Draws a new identifier and reads the clock. -/
  | stamp (next : Stamp → Program α)

namespace Program

variable {α β : Type}

def bind : Program α → (α → Program β) → Program β
  | .done value, f => f value
  | .fetch query next, f => .fetch query fun rows => (next rows).bind f
  | .execute query next, f => .execute query fun written => (next written).bind f
  | .stamp next, f => .stamp fun s => (next s).bind f

instance : Monad Program where
  pure := .done
  bind := bind

theorem bind_done (p : Program α) : p.bind .done = p := by
  induction p with
  | done value => rfl
  | fetch query next ih => simp only [bind, ih]
  | execute query next ih => simp only [bind, ih]
  | stamp next ih => simp only [bind, ih]

theorem bind_assoc {γ : Type} (p : Program α) (f : α → Program β) (g : β → Program γ) :
    (p.bind f).bind g = p.bind fun a => (f a).bind g := by
  induction p with
  | done value => rfl
  | fetch query next ih => simp only [bind, ih]
  | execute query next ih => simp only [bind, ih]
  | stamp next ih => simp only [bind, ih]

instance : LawfulMonad Program :=
  LawfulMonad.mk' _ bind_done (fun _ _ => rfl) bind_assoc

end Program

/-- What a store does with requests, on states of type `σ`. -/
structure Backend (σ : Type) where
  fetch : Query → σ → Rows × σ
  execute : Query → σ → Written × σ
  stamp : σ → Stamp × σ

/-- Runs a program on a store, each request on the state that the one before it left. -/
def Program.run {α σ : Type} (backend : Backend σ) : Program α → σ → α × σ
  | .done value, state => (value, state)
  | .fetch query next, state =>
    let (rows, state) := backend.fetch query state
    (next rows).run backend state
  | .execute query next, state =>
    let (written, state) := backend.execute query state
    (next written).run backend state
  | .stamp next, state =>
    let (drawn, state) := backend.stamp state
    (next drawn).run backend state

/-- A program that can end with a fault. -/
abbrev Action (ε : Type) := ExceptT ε Program

namespace Action

variable {ε ε' α : Type}

/-- Reads rows; a failure of the store ends the action. -/
def fetch (wrap : StoreFault → ε) (query : Query) : Action ε (List Row) :=
  ExceptT.mk (.fetch query fun rows => .done (rows.mapError wrap))

/-- Writes; a failure of the store ends the action. -/
def execute (wrap : StoreFault → ε) (query : Query) : Action ε Unit :=
  ExceptT.mk (.execute query fun written => .done (written.mapError wrap))

def stamp : Action ε Stamp :=
  ExceptT.mk (.stamp fun s => .done (.ok s))

/-- An action that asks nothing. -/
def ofExcept (x : Except ε α) : Action ε α :=
  ExceptT.mk (.done x)

/-- The action's end, fault or value, as the value of another action. -/
def attempt (action : Action ε α) : Action ε' (Except ε α) :=
  ExceptT.lift action.run

end Action

end OntologyGraph.Store
