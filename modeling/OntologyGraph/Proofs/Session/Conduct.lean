import Mathlib.Data.List.Basic
import OntologyGraph.Proofs.Command.Failures
import OntologyGraph.Proofs.Command.Shapes
import OntologyGraph.Session

/-!
What a session does with a text, on any store. A text that is no script is rejected as a whole and
asks nothing. The statements of a script are answered one after the other, each on the store as
those before it left it, up to the first that the store fails.
-/

namespace OntologyGraph

open Script Grammar Store Action

namespace Session

/-- What a statement asks for: its word, and its command if there is one. -/
structure Job where
  word : String
  command? : Option Command

/-- The word of a statement decides whether it asks for a command, and then the statement and the
command say the same. -/
inductive Job.Of (statement : Statement) : Job → Prop where
  | unknown : statement.keyword.word ∉ knownWords → Of statement ⟨statement.keyword.word, none⟩
  | known {command : Command} : statement.keyword.word ∈ knownWords →
      Command.Expresses statement command → Of statement ⟨statement.keyword.word, some command⟩

variable {σ : Type} (settings : OntologySettings) (backend : Backend σ)

def requests (job : Job) (state : σ) : List Event :=
  match job.command? with
  | some command => (command.run settings).run.trace backend state
  | none => []

def left (state : σ) (job : Job) : σ :=
  match job.command? with
  | some command => ((command.run settings).run.run backend state).2
  | none => state

def leftBy (jobs : List Job) (state : σ) : σ :=
  jobs.foldl (left settings backend) state

def allRequests : List Job → σ → List Event
  | [], _ => []
  | job :: jobs, state =>
    requests settings backend job state ++ allRequests jobs (left settings backend state job)

/-- The message that a job is answered with on a store. -/
inductive Answers (state : σ) : Job → Message → Prop where
  | unsupported (word : String) : Answers state ⟨word, none⟩ (.rejected (.unsupported word))
  | outcome {word : String} {command : Command} {outcome : Outcome} :
      ((command.run settings).run.run backend state).1 = .ok outcome →
      Answers state ⟨word, some command⟩ (.outcome outcome)

def Breaks (state : σ) (job : Job) (fault : CommandFault) : Prop :=
  ∃ command storeFault, job.command? = some command ∧
    ((command.run settings).run.run backend state).1 = .error fault ∧
    Command.Carries fault storeFault ∧
    FailsLast ((command.run settings).run.trace backend state) storeFault

variable {settings : OntologySettings} {backend : Backend σ} {state : σ} {statement : Statement}

/-- A statement that is no command is rejected with its fault, and nothing is sent. -/
theorem runStatement_of_error {fault : CommandFault}
    (h : Command.ofStatement statement = .error fault) :
    (runStatement settings statement).run = .done (.ok (.rejected fault)) := by
  simp only [runStatement, h]
  rfl

def reply : Except CommandFault Outcome → Except CommandFault Message
  | .ok outcome => .ok (.outcome outcome)
  | .error fault => if fault.isUser then .ok (.rejected fault) else .error fault

/-- A statement that is a command runs as this command and replies with its outcome. -/
theorem runStatement_of_command {command : Command}
    (h : Command.ofStatement statement = .ok command) :
    (runStatement settings statement).run =
      (command.run settings).run.bind fun result => .done (reply result) := by
  have hrun : (runStatement settings statement).run =
      ((command.run settings).run.bind fun result => .done (.ok result)).bind
        (ExceptT.bindCont fun result : Except CommandFault Outcome =>
          (match result with
          | .ok outcome => return .outcome outcome
          | .error fault => if fault.isUser then return .rejected fault else throw fault :
            Action CommandFault Message)) := by
    simp only [runStatement, h]
    rfl
  rw [hrun, Program.bind_assoc]
  congr 1
  funext result
  cases result with
  | ok outcome => rfl
  | error fault =>
    unfold reply
    simp only [Program.bind, ExceptT.bindCont]
    split <;> rfl

private theorem reply_of_carries {fault : CommandFault} {storeFault : StoreFault}
    (h : Command.Carries fault storeFault) : reply (.error fault) = .error fault := by
  rcases h with rfl | rfl <;> rfl

/-- A well-formed statement asks for a job as its word says, and stands for the command of that
job. -/
theorem exists_job (h : statement.WellFormed) :
    (Job.Of statement ⟨statement.keyword.word, none⟩ ∧
      Command.ofStatement statement = .error (.unsupported statement.keyword.word)) ∨
    ∃ command, Job.Of statement ⟨statement.keyword.word, some command⟩ ∧
      Command.ofStatement statement = .ok command := by
  have htreated := Command.treated_of_wellFormed h
  by_cases hknown : statement.keyword.word ∈ knownWords
  · obtain ⟨command, hcommand⟩ := htreated.supported hknown
    exact .inr ⟨command, .known hknown ((htreated.ok_iff command).mp hcommand), hcommand⟩
  · exact .inl ⟨.unknown hknown, (htreated.unsupported_iff _).mpr ⟨rfl, hknown⟩⟩

/-- A well-formed statement is answered, or meets a failure of the store. Its requests and what it
does to the store are those of its job, since reporting asks nothing. -/
theorem runStatement_cases (settings : OntologySettings) (backend : Backend σ) (state : σ)
    (hstatement : statement.WellFormed) :
    ∃ job, Job.Of statement job ∧
      (runStatement settings statement).run.trace backend state =
        requests settings backend job state ∧
      ((runStatement settings statement).run.run backend state).2 =
        left settings backend state job ∧
      ((∃ message, ((runStatement settings statement).run.run backend state).1 = .ok message ∧
          Answers settings backend state job message ∧
          Answered (requests settings backend job state)) ∨
        ∃ fault, ((runStatement settings statement).run.run backend state).1 = .error fault ∧
          Breaks settings backend state job fault) := by
  rcases exists_job hstatement with ⟨hjob, hrejected⟩ | ⟨command, hjob, hcommand⟩
  · rw [runStatement_of_error hrejected]
    exact ⟨_, hjob, rfl, rfl, .inl ⟨_, rfl, .unsupported _, answered_nil⟩⟩
  · have hrun := Program.runs_trace backend (command.run settings).run state
    refine ⟨_, hjob, ?_⟩
    simp only [requests, left, runStatement_of_command hcommand, Program.run_bind,
      Program.trace_bind, Program.run, Program.trace, List.append_nil, true_and]
    cases hresult : ((command.run settings).run.run backend state).1 with
    | ok outcome =>
      rw [hresult] at hrun
      cases Command.run_relays settings command _ _ hrun with
      | value _ hanswered => exact .inl ⟨_, rfl, .outcome hresult, hanswered⟩
    | error fault =>
      rw [hresult] at hrun
      cases Command.run_relays settings command _ _ hrun with
      | own _ hown => exact hown.elim
      | failed hlast hcarries =>
        exact .inr ⟨fault, reply_of_carries hcarries, command, _, rfl, hresult, hcarries, hlast⟩

/-- What is reported of the jobs of a script, which the store may fail at some point. -/
structure Conduct (settings : OntologySettings) (backend : Backend σ) (jobs : List Job) (state : σ)
    (log : List Event) (report : Report) : Prop where
  /-- There is a message for each job carried out, in their order. It answers the job on the store
  as those before it have left it. -/
  answers : ∀ i message, report.messages[i]? = some message →
    ∃ job, jobs[i]? = some job ∧
      Answers settings backend (leftBy settings backend (jobs.take i) state) job message
  finished_iff : report.failure = none ↔ report.messages.length = jobs.length
  /-- A run breaks off at the first job without a message, for a failure of the store. -/
  broken : ∀ fault, report.failure = some fault →
    ∃ job, jobs[report.messages.length]? = some job ∧
      Breaks settings backend
        (leftBy settings backend (jobs.take report.messages.length) state) job fault
  /-- Nothing is asked but by the jobs with a message, and by the one that breaks off. -/
  log_eq : log =
    allRequests settings backend (jobs.take (report.messages.length + 1)) state
  failed_last : ∀ fault, report.failure = some fault →
    ∃ storeFault, Command.Carries fault storeFault ∧ FailsLast log storeFault

private theorem conduct_nil : Conduct settings backend [] state [] { messages := [] } where
  answers _ _ h := nomatch h
  finished_iff := iff_of_true rfl rfl
  broken _ h := nomatch h
  log_eq := rfl
  failed_last _ h := nomatch h

variable {job : Job} {jobs : List Job} {script : Script} {log : List Event} {report : Report}

/-- The jobs behind one that is answered run on the store as it leaves it. -/
theorem Conduct.cons {message : Message} (hanswers : Answers settings backend state job message)
    (hanswered : Answered (requests settings backend job state))
    (h : Conduct settings backend jobs (left settings backend state job) log report) :
    Conduct settings backend (job :: jobs) state
      (requests settings backend job state ++ log) (report.cons message) where
  answers i message' hmessage := by
    cases i with
    | zero =>
      cases hmessage
      exact ⟨job, rfl, hanswers⟩
    | succ i => exact h.answers i message' hmessage
  finished_iff := by
    simp only [Report.cons, List.length_cons, Nat.add_right_cancel_iff]
    exact h.finished_iff
  broken := h.broken
  log_eq := congrArg (_ ++ ·) h.log_eq
  failed_last fault hfault := by
    obtain ⟨storeFault, hcarries, hlast⟩ := h.failed_last fault hfault
    exact ⟨storeFault, hcarries, hanswered.append_failsLast hlast⟩

/-- Nothing is carried out behind a job that the store fails. -/
theorem conduct_of_breaks {fault : CommandFault} (h : Breaks settings backend state job fault) :
    Conduct settings backend (job :: jobs) state
      (requests settings backend job state) { messages := [], failure := some fault } where
  answers _ _ h := nomatch h
  finished_iff := iff_of_false (fun h => nomatch h) (fun h => nomatch h)
  broken _ hfault := by
    cases hfault
    exact ⟨job, rfl, h⟩
  log_eq := (List.append_nil _).symm
  failed_last _ hfault := by
    cases hfault
    obtain ⟨command, storeFault, hcommand, -, hcarries, hlast⟩ := h
    simp only [requests, hcommand]
    exact ⟨storeFault, hcarries, hlast⟩

/-- A script runs its first statement, and the rest unless the store has failed. -/
theorem runStatements_cons (settings : OntologySettings) (statement : Statement)
    (script : Script) :
    runStatements settings (statement :: script) =
      (runStatement settings statement).run.bind fun
        | .error fault => .done { messages := [], failure := some fault }
        | .ok message => (runStatements settings script).bind fun report =>
          .done (report.cons message) :=
  rfl

/-- Well-formed statements ask for some jobs, even those that are never carried out. -/
theorem exists_jobs (h : WellFormed script) : ∃ jobs, List.Forall₂ Job.Of script jobs := by
  induction script with
  | nil => exact ⟨[], .nil⟩
  | cons statement script ih =>
    obtain ⟨hstatement, hscript⟩ := List.forall_mem_cons.mp h
    obtain ⟨jobs, hjobs⟩ := ih hscript
    rcases exists_job hstatement with ⟨hjob, -⟩ | ⟨command, hjob, -⟩
    · exact ⟨_, .cons hjob hjobs⟩
    · exact ⟨_, .cons hjob hjobs⟩

/-- By induction on the statements, with the store passed from each to the next. -/
theorem runStatements_conduct (settings : OntologySettings) (backend : Backend σ) (state : σ)
    (hscript : WellFormed script) :
    ∃ jobs, List.Forall₂ Job.Of script jobs ∧
      Conduct settings backend jobs state ((runStatements settings script).trace backend state)
        ((runStatements settings script).run backend state).1 := by
  induction script generalizing state with
  | nil => exact ⟨[], .nil, conduct_nil⟩
  | cons statement script ih =>
    obtain ⟨hstatement, hscript⟩ := List.forall_mem_cons.mp hscript
    obtain ⟨job, hjob, htrace, hleft, hend⟩ :=
      runStatement_cases settings backend state hstatement
    rw [runStatements_cons, Program.trace_bind, Program.run_bind, htrace, hleft]
    rcases hend with ⟨message, hmessage, hanswers, hanswered⟩ | ⟨fault, hfault, hbreaks⟩
    · obtain ⟨jobs, hjobs, hconduct⟩ := ih (left settings backend state job) hscript
      simp only [hmessage, Program.trace_bind, Program.run_bind, Program.trace, Program.run,
        List.append_nil]
      exact ⟨job :: jobs, .cons hjob hjobs, .cons hanswers hanswered hconduct⟩
    · obtain ⟨jobs, hjobs⟩ := exists_jobs hscript
      simp only [hfault, Program.trace, Program.run, List.append_nil]
      exact ⟨job :: jobs, .cons hjob hjobs, conduct_of_breaks hbreaks⟩

/-- What is asked and reported in the course of a text. -/
structure TextConduct (settings : OntologySettings) (backend : Backend σ) (source : String)
    (state : σ) (log : List Event) (report : Report) : Prop where
  /-- A text that is no script is rejected with one message, and nothing else is done. -/
  malformed : ∀ fault, parse source = .error fault →
    log = [] ∧ report = { messages := [.rejected (.malformed fault)] }
  /-- The statements of a script are carried out as the jobs that they ask for. -/
  script : ∀ script, parse source = .ok script →
    ∃ jobs, List.Forall₂ Job.Of script jobs ∧ Conduct settings backend jobs state log report
  /-- A rejection tells that the text is no script, or that a keyword is unknown. -/
  codes : ∀ fault, .rejected fault ∈ report.messages →
    fault.code = match parse source with
      | .error _ => "ERR_NQL_SYNTAX"
      | .ok _ => "ERR_NQL_UNSUPPORTED"

theorem Conduct.code (h : Conduct settings backend jobs state log report)
    {fault : CommandFault} (hmem : .rejected fault ∈ report.messages) :
    fault.code = "ERR_NQL_UNSUPPORTED" := by
  obtain ⟨i, hi⟩ := List.mem_iff_getElem?.mp hmem
  obtain ⟨job, -, hanswers⟩ := h.answers i _ hi
  cases hanswers
  rfl

/-- On any store, a session rejects a text that is no script without a request, and answers the
statements of a script one by one on the store as those before left it, until all have a message or
the store fails one of them. -/
theorem run_conduct (settings : OntologySettings) (source : String) (backend : Backend σ)
    (state : σ) :
    TextConduct settings backend source state ((run settings source).trace backend state)
      ((run settings source).run backend state).1 := by
  unfold run
  cases hparse : parse source with
  | error fault =>
    refine ⟨?_, ?_, ?_⟩
    · intro fault' hfault'
      rw [hparse] at hfault'
      cases hfault'
      exact ⟨rfl, rfl⟩
    · intro script hscript
      rw [hparse] at hscript
      cases hscript
    · intro fault' hmem
      rw [hparse]
      cases List.mem_singleton.mp hmem
      rfl
  | ok script =>
    obtain ⟨jobs, hjobs, hconduct⟩ :=
      runStatements_conduct settings backend state (wellFormed_of_parse hparse)
    refine ⟨?_, ?_, ?_⟩
    · intro fault hfault
      rw [hparse] at hfault
      cases hfault
    · intro script' hscript'
      rw [hparse] at hscript'
      cases hscript'
      exact ⟨jobs, hjobs, hconduct⟩
    · intro fault hmem
      rw [hparse]
      exact hconduct.code hmem

end Session

end OntologyGraph
