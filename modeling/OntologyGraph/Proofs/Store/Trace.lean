import OntologyGraph.Store.Program

/-!
The requests that a program makes on a run, each with the answer that it got. A run may be answered
in any way at all, so what holds of every run holds on every store, also where other programs
change the store between two requests.
-/

namespace OntologyGraph.Store

inductive Event where
  | fetch (query : Query) (rows : Rows)
  | execute (query : Query) (written : Written)

def Event.query : Event → Query
  | .fetch query _ | .execute query _ => query

namespace Program

variable {α β σ : Type}

/-- A program comes to another by the events in between. Drawing a stamp is no event. -/
inductive Reaches : Program α → List Event → Program α → Prop where
  | refl (p : Program α) : Reaches p [] p
  | fetch {query : Query} {next : Rows → Program α} {rows : Rows} {log : List Event}
      {q : Program α} :
      Reaches (next rows) log q → Reaches (.fetch query next) (.fetch query rows :: log) q
  | execute {query : Query} {next : Written → Program α} {written : Written} {log : List Event}
      {q : Program α} :
      Reaches (next written) log q →
        Reaches (.execute query next) (.execute query written :: log) q
  | stamp {next : Stamp → Program α} {drawn : Stamp} {log : List Event} {q : Program α} :
      Reaches (next drawn) log q → Reaches (.stamp next) log q

/-- A whole run, with the value that it ends in. -/
def Runs (p : Program α) (log : List Event) (value : α) : Prop :=
  p.Reaches log (.done value)

def trace (backend : Backend σ) : Program α → σ → List Event
  | .done _, _ => []
  | .fetch query next, state =>
    let (rows, state) := backend.fetch query state
    .fetch query rows :: (next rows).trace backend state
  | .execute query next, state =>
    let (written, state) := backend.execute query state
    .execute query written :: (next written).trace backend state
  | .stamp next, state =>
    let (drawn, state) := backend.stamp state
    (next drawn).trace backend state

/-- What a program does against a backend is one of its runs. -/
theorem runs_trace (backend : Backend σ) (p : Program α) (state : σ) :
    p.Runs (p.trace backend state) (p.run backend state).1 := by
  induction p generalizing state with
  | done value => exact .refl _
  | fetch query next ih => exact .fetch (ih _ _)
  | execute query next ih => exact .execute (ih _ _)
  | stamp next ih => exact .stamp (ih _ _)

/-- The second of two programs runs on the store as the first leaves it. -/
theorem run_bind (backend : Backend σ) (p : Program α) (f : α → Program β) (state : σ) :
    (p.bind f).run backend state =
      (f (p.run backend state).1).run backend (p.run backend state).2 := by
  induction p generalizing state with
  | done value => rfl
  | fetch query next ih => exact ih _ _
  | execute query next ih => exact ih _ _
  | stamp next ih => exact ih _ _

/-- The requests of a program after another follow those of the first, from the state it left. -/
theorem trace_bind (backend : Backend σ) (p : Program α) (f : α → Program β) (state : σ) :
    (p.bind f).trace backend state =
      p.trace backend state ++
        (f (p.run backend state).1).trace backend (p.run backend state).2 := by
  induction p generalizing state with
  | done value => rfl
  | fetch query next ih => exact congrArg (_ :: ·) (ih _ _)
  | execute query next ih => exact congrArg (_ :: ·) (ih _ _)
  | stamp next ih => exact ih _ _

theorem Reaches.trans {p q r : Program α} {log log' : List Event} (h : p.Reaches log q)
    (h' : q.Reaches log' r) : p.Reaches (log ++ log') r := by
  induction h with
  | refl p => exact h'
  | fetch _ ih => exact .fetch (ih h')
  | execute _ ih => exact .execute (ih h')
  | stamp _ ih => exact .stamp (ih h')

/-- Wherever a program stands, some answers bring it to its end. -/
theorem exists_run (p : Program α) : ∃ log value, p.Runs log value := by
  induction p with
  | done value => exact ⟨[], value, .refl _⟩
  | fetch query next ih =>
    obtain ⟨log, value, hrun⟩ := ih (.ok [])
    exact ⟨_, value, .fetch hrun⟩
  | execute query next ih =>
    obtain ⟨log, value, hrun⟩ := ih (.ok ())
    exact ⟨_, value, .execute hrun⟩
  | stamp next ih =>
    obtain ⟨log, value, hrun⟩ := ih ⟨⟨0⟩, ⟨0, 0, by decide⟩⟩
    exact ⟨log, value, .stamp hrun⟩

@[simp] theorem runs_done_iff {value result : α} {log : List Event} :
    (Program.done value).Runs log result ↔ log = [] ∧ result = value := by
  constructor
  · intro hrun
    cases hrun
    exact ⟨rfl, rfl⟩
  · rintro ⟨rfl, rfl⟩
    exact .refl _

theorem runs_fetch_iff {query : Query} {next : Rows → Program α} {log : List Event} {result : α} :
    (Program.fetch query next).Runs log result ↔
      ∃ rows log', log = .fetch query rows :: log' ∧ (next rows).Runs log' result := by
  constructor
  · intro hrun
    cases hrun with
    | fetch hnext => exact ⟨_, _, rfl, hnext⟩
  · rintro ⟨rows, log', rfl, hnext⟩
    exact .fetch hnext

theorem runs_execute_iff {query : Query} {next : Written → Program α} {log : List Event}
    {result : α} :
    (Program.execute query next).Runs log result ↔
      ∃ written log', log = .execute query written :: log' ∧ (next written).Runs log' result := by
  constructor
  · intro hrun
    cases hrun with
    | execute hnext => exact ⟨_, _, rfl, hnext⟩
  · rintro ⟨written, log', rfl, hnext⟩
    exact .execute hnext

theorem runs_stamp_iff {next : Stamp → Program α} {log : List Event} {result : α} :
    (Program.stamp next).Runs log result ↔ ∃ drawn, (next drawn).Runs log result := by
  constructor
  · intro hrun
    cases hrun with
    | stamp hnext => exact ⟨_, hnext⟩
  · rintro ⟨drawn, hnext⟩
    exact .stamp hnext

/-- A run of two programs, one after the other, is a run of each. -/
theorem runs_bind_iff {p : Program α} {f : α → Program β} {log : List Event} {result : β} :
    (p.bind f).Runs log result ↔
      ∃ value before after, log = before ++ after ∧ p.Runs before value ∧
        (f value).Runs after result := by
  induction p generalizing log with
  | done value =>
    constructor
    · intro hrun
      exact ⟨value, [], log, rfl, .refl _, hrun⟩
    · rintro ⟨value', before, after, rfl, hfirst, hsecond⟩
      obtain ⟨rfl, rfl⟩ := runs_done_iff.mp hfirst
      exact hsecond
  | fetch query next ih =>
    simp only [bind, runs_fetch_iff, ih]
    constructor
    · rintro ⟨rows, log', rfl, value, before, after, rfl, hfirst, hsecond⟩
      exact ⟨value, .fetch query rows :: before, after, rfl, ⟨rows, before, rfl, hfirst⟩, hsecond⟩
    · rintro ⟨value, before, after, rfl, ⟨rows, before', rfl, hfirst⟩, hsecond⟩
      exact ⟨rows, before' ++ after, rfl, value, before', after, rfl, hfirst, hsecond⟩
  | execute query next ih =>
    simp only [bind, runs_execute_iff, ih]
    constructor
    · rintro ⟨written, log', rfl, value, before, after, rfl, hfirst, hsecond⟩
      exact ⟨value, .execute query written :: before, after, rfl, ⟨written, before, rfl, hfirst⟩,
        hsecond⟩
    · rintro ⟨value, before, after, rfl, ⟨written, before', rfl, hfirst⟩, hsecond⟩
      exact ⟨written, before' ++ after, rfl, value, before', after, rfl, hfirst, hsecond⟩
  | stamp next ih =>
    simp only [bind, runs_stamp_iff, ih]
    constructor
    · rintro ⟨drawn, value, before, after, rfl, hfirst, hsecond⟩
      exact ⟨value, before, after, rfl, ⟨drawn, hfirst⟩, hsecond⟩
    · rintro ⟨value, before, after, rfl, ⟨drawn, hfirst⟩, hsecond⟩
      exact ⟨drawn, value, before, after, rfl, hfirst, hsecond⟩

end Program

namespace Action

variable {ε ε' α β σ : Type}

/-- A whole run of an action, with the value or fault that it ends in. -/
def Runs (action : Action ε α) (log : List Event) (result : Except ε α) : Prop :=
  Program.Runs (ExceptT.run action) log result

theorem runs_pure_iff {value : α} {log : List Event} {result : Except ε α} :
    Runs (pure value : Action ε α) log result ↔ log = [] ∧ result = .ok value :=
  Program.runs_done_iff

theorem runs_ofExcept_iff {x : Except ε α} {log : List Event} {result : Except ε α} :
    Runs (ofExcept x) log result ↔ log = [] ∧ result = x :=
  Program.runs_done_iff

theorem runs_stamp_iff {log : List Event} {result : Except ε Stamp} :
    Runs (stamp : Action ε Stamp) log result ↔ log = [] ∧ ∃ drawn, result = .ok drawn := by
  simp only [Runs, stamp, ExceptT.run_mk, Program.runs_stamp_iff, Program.runs_done_iff,
    exists_and_left]

theorem runs_fetch_iff {wrap : StoreFault → ε} {query : Query} {log : List Event}
    {result : Except ε (List Row)} :
    Runs (fetch wrap query) log result ↔
      ∃ rows, log = [.fetch query rows] ∧ result = rows.mapError wrap := by
  simp only [Runs, fetch, ExceptT.run_mk, Program.runs_fetch_iff, Program.runs_done_iff]
  constructor
  · rintro ⟨rows, _, rfl, rfl, rfl⟩
    exact ⟨rows, rfl, rfl⟩
  · rintro ⟨rows, rfl, rfl⟩
    exact ⟨rows, [], rfl, rfl, rfl⟩

theorem runs_execute_iff {wrap : StoreFault → ε} {query : Query} {log : List Event}
    {result : Except ε Unit} :
    Runs (execute wrap query) log result ↔
      ∃ written, log = [.execute query written] ∧ result = written.mapError wrap := by
  simp only [Runs, execute, ExceptT.run_mk, Program.runs_execute_iff, Program.runs_done_iff]
  constructor
  · rintro ⟨written, _, rfl, rfl, rfl⟩
    exact ⟨written, rfl, rfl⟩
  · rintro ⟨written, rfl, rfl⟩
    exact ⟨written, [], rfl, rfl, rfl⟩

theorem runs_attempt_iff {action : Action ε α} {log : List Event}
    {result : Except ε' (Except ε α)} :
    Runs (attempt action : Action ε' (Except ε α)) log result ↔
      ∃ inner, result = .ok inner ∧ action.Runs log inner := by
  have hrun : ExceptT.run (attempt action : Action ε' (Except ε α)) =
      Program.bind (ExceptT.run action) fun inner => .done (.ok inner) := rfl
  rw [Runs, hrun, Program.runs_bind_iff]
  constructor
  · rintro ⟨inner, before, after, rfl, hinner, hend⟩
    obtain ⟨rfl, rfl⟩ := Program.runs_done_iff.mp hend
    rw [List.append_nil]
    exact ⟨inner, rfl, hinner⟩
  · rintro ⟨inner, rfl, hinner⟩
    exact ⟨inner, log, [], (List.append_nil log).symm, hinner, .refl _⟩

/-- The second of two actions runs unless the first ends in a fault. -/
theorem runs_bind_iff {action : Action ε α} {f : α → Action ε β} {log : List Event}
    {result : Except ε β} :
    Runs (action >>= f) log result ↔
      (∃ fault, result = .error fault ∧ action.Runs log (.error fault)) ∨
      ∃ value before after, log = before ++ after ∧ action.Runs before (.ok value) ∧
        (f value).Runs after result := by
  have hrun : ExceptT.run (action >>= f) =
      Program.bind (ExceptT.run action) (ExceptT.bindCont f) := rfl
  rw [Runs, hrun, Program.runs_bind_iff]
  constructor
  · rintro ⟨first, before, after, rfl, hfirst, hsecond⟩
    cases first with
    | error fault =>
      obtain ⟨rfl, rfl⟩ := Program.runs_done_iff.mp hsecond
      rw [List.append_nil]
      exact .inl ⟨fault, rfl, hfirst⟩
    | ok value => exact .inr ⟨value, before, after, rfl, hfirst, hsecond⟩
  · rintro (⟨fault, rfl, hfirst⟩ | ⟨value, before, after, rfl, hfirst, hsecond⟩)
    · exact ⟨.error fault, log, [], (List.append_nil log).symm, hfirst, .refl _⟩
    · exact ⟨.ok value, before, after, rfl, hfirst, hsecond⟩

/-- Behind an action that ends in a value the next runs on the store as it is left. -/
theorem run_bind_ok {backend : Backend σ} {state : σ} {action : Action ε α} {f : α → Action ε β}
    {value : α} (h : (action.run.run backend state).1 = .ok value) :
    (action >>= f).run.run backend state =
      (f value).run.run backend (action.run.run backend state).2 := by
  have hrun : (action >>= f).run = Program.bind action.run (ExceptT.bindCont f) := rfl
  rw [hrun, Program.run_bind, h]
  rfl

/-- The requests of an action after one that came to a value follow those of the first. -/
theorem trace_bind_ok {backend : Backend σ} {state : σ} {action : Action ε α} {f : α → Action ε β}
    {value : α} (h : (action.run.run backend state).1 = .ok value) :
    (action >>= f).run.trace backend state = action.run.trace backend state ++
      (f value).run.trace backend (action.run.run backend state).2 := by
  have hrun : (action >>= f).run = Program.bind action.run (ExceptT.bindCont f) := rfl
  rw [hrun, Program.trace_bind, h]
  rfl

/-- Every run makes only events of one kind, and what it returns is as described. -/
def Keeps (events : Event → Prop) (values : α → Prop) (action : Action ε α) : Prop :=
  ∀ log result, action.Runs log result →
    (∀ event ∈ log, events event) ∧ ∀ value, result = .ok value → values value

variable {events : Event → Prop} {values : α → Prop} {values' : β → Prop}

theorem keeps_pure {value : α} (h : values value) :
    Keeps events values (pure value : Action ε α) := by
  intro log result hrun
  obtain ⟨rfl, rfl⟩ := runs_pure_iff.mp hrun
  refine ⟨fun event hevent => absurd hevent List.not_mem_nil, ?_⟩
  rintro _ ⟨⟩
  exact h

theorem keeps_ofExcept {x : Except ε α} (h : ∀ value, x = .ok value → values value) :
    Keeps events values (ofExcept x) := by
  intro log result hrun
  obtain ⟨rfl, rfl⟩ := runs_ofExcept_iff.mp hrun
  exact ⟨fun event hevent => absurd hevent List.not_mem_nil, h⟩

theorem keeps_fetch {wrap : StoreFault → ε} {query : Query}
    (h : ∀ rows, events (.fetch query rows)) :
    Keeps events (fun _ => True) (fetch wrap query : Action ε (List Row)) := by
  intro log result hrun
  obtain ⟨rows, rfl, -⟩ := runs_fetch_iff.mp hrun
  refine ⟨?_, fun _ _ => trivial⟩
  intro event hevent
  rw [List.mem_singleton.mp hevent]
  exact h rows

theorem keeps_attempt {action : Action ε α} (h : Keeps events values action) :
    Keeps events (fun inner => ∀ value, inner = .ok value → values value)
      (attempt action : Action ε' (Except ε α)) := by
  intro log result hrun
  obtain ⟨inner, rfl, hinner⟩ := runs_attempt_iff.mp hrun
  obtain ⟨hevents, hvalues⟩ := h log inner hinner
  refine ⟨hevents, ?_⟩
  rintro _ ⟨⟩
  exact hvalues

/-- What holds of the requests of both parts holds of the whole; the second may use what the first
returns. -/
theorem keeps_bind {action : Action ε α} {f : α → Action ε β} (h : Keeps events values action)
    (hf : ∀ value, values value → Keeps events values' (f value)) :
    Keeps events values' (action >>= f) := by
  intro log result hrun
  rcases runs_bind_iff.mp hrun with ⟨fault, rfl, hfirst⟩ |
    ⟨value, before, after, rfl, hfirst, hsecond⟩
  · exact ⟨(h log _ hfirst).1, fun _ hvalue => nomatch hvalue⟩
  · obtain ⟨hbefore, hvalue⟩ := h before _ hfirst
    obtain ⟨hafter, hvalues⟩ := hf value (hvalue value rfl) after result hsecond
    refine ⟨?_, hvalues⟩
    intro event hevent
    rcases List.mem_append.mp hevent with hmem | hmem
    · exact hbefore event hmem
    · exact hafter event hmem

def AtMost (n : Nat) (action : Action ε α) : Prop :=
  ∀ log result, action.Runs log result → log.length ≤ n

theorem atMost_ofExcept (x : Except ε α) : AtMost 0 (ofExcept x) := by
  intro log result hrun
  rw [(runs_ofExcept_iff.mp hrun).1]
  exact Nat.le_refl 0

theorem atMost_fetch (wrap : StoreFault → ε) (query : Query) :
    AtMost 1 (fetch wrap query : Action ε (List Row)) := by
  intro log result hrun
  obtain ⟨rows, rfl, -⟩ := runs_fetch_iff.mp hrun
  exact Nat.le_refl 1

/-- The bounds of two actions add up. -/
theorem atMost_bind {m n : Nat} {action : Action ε α} {f : α → Action ε β} (h : AtMost m action)
    (hf : ∀ value, AtMost n (f value)) : AtMost (m + n) (action >>= f) := by
  intro log result hrun
  rcases runs_bind_iff.mp hrun with ⟨fault, rfl, hfirst⟩ |
    ⟨value, before, after, rfl, hfirst, hsecond⟩
  · exact Nat.le_add_right_of_le (h log _ hfirst)
  · rw [List.length_append]
    exact Nat.add_le_add (h before _ hfirst) (hf value after result hsecond)

theorem AtMost.mono {m n : Nat} {action : Action ε α} (h : AtMost m action) (hle : m ≤ n) :
    AtMost n action :=
  fun log result hrun => Nat.le_trans (h log result hrun) hle

end Action

end OntologyGraph.Store
