import OntologyGraph.Proofs.Store.Trace
import OntologyGraph.Store.Canned

/-!
Stores that reply to a read by its query alone, be it with rows or with a failure, whatever was
asked and written before. An action that makes no request but reads then ends in the same way
whenever it is run, and its end is that on a store without a state, where it is put together from
the ends of its parts. A store is steady if it replies with rows to every read.
-/

namespace OntologyGraph.Store

variable {σ ε ε' α β : Type}

inductive Backend.Leads (backend : Backend σ) : σ → σ → Prop where
  | refl (state : σ) : Leads backend state state
  | fetch {state state' : σ} (query : Query) :
      Leads backend (backend.fetch query state).2 state' → Leads backend state state'
  | execute {state state' : σ} (query : Query) :
      Leads backend (backend.execute query state).2 state' → Leads backend state state'
  | stamp {state state' : σ} :
      Leads backend (backend.stamp state).2 state' → Leads backend state state'

/-- From a state on, every read is answered by the reply that belongs to its query. -/
def Backend.Repeats (backend : Backend σ) (replies : Query → Rows) (state : σ) : Prop :=
  ∀ state', backend.Leads state state' → ∀ query, (backend.fetch query state').1 = replies query

/-- The replies that are rows for every query. -/
def given (answers : Query → List Row) (query : Query) : Rows :=
  .ok (answers query)

def Backend.Steady (backend : Backend σ) (answers : Query → List Row) (state : σ) : Prop :=
  backend.Repeats (given answers) state

def Event.Agrees (replies : Query → Rows) : Event → Prop
  | .fetch query rows => rows = replies query
  | .execute .. => True

theorem Backend.Repeats.trace_agrees {backend : Backend σ} {replies : Query → Rows} {state : σ}
    (h : backend.Repeats replies state) (p : Program α) :
    ∀ event ∈ p.trace backend state, event.Agrees replies := by
  induction p generalizing state with
  | done value => exact fun event hevent => absurd hevent List.not_mem_nil
  | fetch query next ih =>
    refine List.forall_mem_cons.mpr ⟨h state (.refl state) query, ih _ ?_⟩
    exact fun state' hleads => h state' (.fetch query hleads)
  | execute query next ih =>
    refine List.forall_mem_cons.mpr ⟨trivial, ih _ ?_⟩
    exact fun state' hleads => h state' (.execute query hleads)
  | stamp next ih => exact ih _ fun state' hleads => h state' (.stamp hleads)

/-- A stamp for stores that are asked for none. -/
def Stamp.zero : Stamp :=
  ⟨⟨0⟩, ⟨0, 0, Nat.succ_pos _⟩⟩

/-- A store without a state, which takes every write and draws one stamp for ever. -/
def Backend.ofReplies (replies : Query → Rows) : Backend Unit where
  fetch query _ := (replies query, ())
  execute _ _ := (.ok (), ())
  stamp _ := (.zero, ())

theorem Backend.ofReplies_repeats (replies : Query → Rows) :
    (Backend.ofReplies replies).Repeats replies () :=
  fun _ _ _ => rfl

def Backend.ofAnswers (answers : Query → List Row) : Backend Unit :=
  .ofReplies (given answers)

theorem Backend.ofAnswers_steady (answers : Query → List Row) :
    (Backend.ofAnswers answers).Steady answers () :=
  ofReplies_repeats (given answers)

namespace Canned

def rowsOf (s : Canned) (query : Query) : List Row :=
  (s.rows.get? query.key).getD []

/-- No request changes what a canned store holds. -/
theorem rows_of_leads {s s' : Canned} (h : backend.Leads s s') : s'.rows = s.rows := by
  induction h with
  | refl s => rfl
  | fetch query _ ih => exact ih
  | execute query _ ih => exact ih
  | stamp _ ih => exact ih

/-- A canned store gives a query the same rows whenever it is asked. -/
theorem backend_steady (s : Canned) : backend.Steady s.rowsOf s := by
  intro s' hleads query
  change Except.ok ((s'.rows.get? query.key).getD []) = _
  rw [rows_of_leads hleads]
  rfl

end Canned

namespace Program

/-- No run makes a request other than a read. -/
inductive ReadOnly : Program α → Prop where
  | done (value : α) : ReadOnly (.done value)
  | fetch {query : Query} {next : Rows → Program α} :
      (∀ rows, ReadOnly (next rows)) → ReadOnly (.fetch query next)

theorem ReadOnly.bind {p : Program α} {f : α → Program β} (h : p.ReadOnly)
    (hf : ∀ value, (f value).ReadOnly) : (p.bind f).ReadOnly := by
  induction h with
  | done value => exact hf value
  | fetch _ ih => exact .fetch ih

def value (replies : Query → Rows) (p : Program α) : α :=
  (p.run (.ofReplies replies) ()).1

theorem value_bind (replies : Query → Rows) (p : Program α) (f : α → Program β) :
    (p.bind f).value replies = (f (p.value replies)).value replies := by
  unfold value
  rw [run_bind]

/-- The answers decide the end of a program that only reads, on whatever store they were given. -/
theorem ReadOnly.run_eq_value {p : Program α} (h : p.ReadOnly) {backend : Backend σ}
    {replies : Query → Rows} {state : σ}
    (hagrees : ∀ event ∈ p.trace backend state, event.Agrees replies) :
    (p.run backend state).1 = p.value replies := by
  induction h generalizing state with
  | done value => rfl
  | @fetch query next _ ih =>
    obtain ⟨hrows, hrest⟩ := List.forall_mem_cons.mp hagrees
    have hfirst : (backend.fetch query state).1 = replies query := hrows
    change ((next (backend.fetch query state).1).run backend (backend.fetch query state).2).1 = _
    rw [ih _ hrest, hfirst]
    rfl

end Program

namespace Action

/-- No run of the action makes a request other than a read. -/
def ReadOnly (action : Action ε α) : Prop :=
  Program.ReadOnly action.run

theorem readOnly_ofExcept (x : Except ε α) : ReadOnly (ofExcept x) :=
  .done x

theorem readOnly_pure (value : α) : ReadOnly (pure value : Action ε α) :=
  readOnly_ofExcept (.ok value)

theorem readOnly_throw (fault : ε) : ReadOnly (throw fault : Action ε α) :=
  readOnly_ofExcept (.error fault)

theorem readOnly_fetch (wrap : StoreFault → ε) (query : Query) :
    ReadOnly (fetch wrap query : Action ε (List Row)) :=
  .fetch fun rows => .done (rows.mapError wrap)

theorem readOnly_bind {action : Action ε α} {f : α → Action ε β} (h : ReadOnly action)
    (hf : ∀ value, ReadOnly (f value)) : ReadOnly (action >>= f) := by
  refine Program.ReadOnly.bind h ?_
  rintro (fault | value)
  · exact readOnly_throw fault
  · exact hf value

theorem readOnly_attempt {action : Action ε α} (h : ReadOnly action) :
    ReadOnly (attempt action : Action ε' (Except ε α)) :=
  Program.ReadOnly.bind h fun result => readOnly_pure result

/-- Where the action ends with the replies that belong to its queries. -/
def endOn (replies : Query → Rows) (action : Action ε α) : Except ε α :=
  action.run.value replies

variable {replies : Query → Rows}

/-- An action that only reads ends alike wherever its reads get the replies of their queries. -/
theorem ReadOnly.run_eq_endOn {action : Action ε α} (h : ReadOnly action) {backend : Backend σ}
    {state : σ} (hrepeats : backend.Repeats replies state) :
    (action.run.run backend state).1 = action.endOn replies :=
  Program.ReadOnly.run_eq_value h (hrepeats.trace_agrees action.run)

@[simp] theorem endOn_ofExcept (x : Except ε α) : (ofExcept x).endOn replies = x :=
  rfl

@[simp] theorem endOn_attempt (action : Action ε α) :
    (attempt action : Action ε' (Except ε α)).endOn replies = .ok (action.endOn replies) :=
  Program.value_bind replies action.run _

/-- The second of two actions is reached unless the first ends in a fault. -/
@[simp] theorem endOn_bind (action : Action ε α) (f : α → Action ε β) :
    (action >>= f).endOn replies =
      (action.endOn replies).bind fun value => (f value).endOn replies := by
  have hrun : (action >>= f).run = Program.bind action.run (ExceptT.bindCont f) := rfl
  unfold endOn
  rw [hrun, Program.value_bind]
  cases action.run.value replies <;> rfl

/-- An action after another comes to a value exactly if both come to one. -/
theorem endOn_bind_eq_ok_iff {action : Action ε α} {f : α → Action ε β} {value : β} :
    (action >>= f).endOn replies = .ok value ↔
      ∃ first, action.endOn replies = .ok first ∧ (f first).endOn replies = .ok value := by
  rw [endOn_bind]
  cases action.endOn replies <;> simp [Except.bind]

end Action

end OntologyGraph.Store
