import OntologyGraph.Proofs.Command.Checks

/-!
How each command goes about its requests. Whatever the store answers, a command only inspects the
graph, or it executes one write right after its probe, or it sends the guarded write of a subclass
edge with inspections before and, if the write gives no row, behind it.
-/

namespace OntologyGraph

open Schema Store Action

namespace Command

def Reads (command : Command) (event : Event) : Prop :=
  ∃ query rows, event = .fetch query rows ∧ command.Inspects query

/-- An end without a change: a fault, or an outcome that reports none. -/
def NoWrite (result : Except CommandFault Outcome) : Prop :=
  ∀ outcome, result = .ok outcome → outcome.isWrite = false

/-- The rows of a probe that a write follows: no node that is to be defined, or the ends of an edge
once and the edge not there. -/
def Proceeds : Command → List Row → Prop
  | .define .., rows => rows = []
  | .connect .., rows | .setRelationship .., rows =>
    ∃ row : Row, rows = [row] ∧ row.get? "connected" ≠ some (.bool true)
  | .info _, _ => False

/-- The events and the end of a run. -/
inductive Course (settings : OntologySettings) :
    Command → List Event → Except CommandFault Outcome → Prop where
  | inspected {command : Command} {log : List Event} {result : Except CommandFault Outcome} :
      (∀ event ∈ log, command.Reads event) → NoWrite result → Course settings command log result
  | executed {command : Command} {probe write : Query} {rows : List Row} {outcome : Outcome}
      (written : Written) :
      command.probe? = some probe → command.Proceeds rows → command.Executes write →
      outcome.isWrite = true →
      Course settings command [.fetch probe (.ok rows), .execute write written]
        ((written.mapError .store).map fun _ => outcome)
  /-- The guarded write gave a row. -/
  | set {subject target : NodePattern} {before : List Event} (row : Row) (rows : List Row) :
      (∀ event ∈ before, (connect .setSubclass subject target).Reads event) →
      Course settings (.connect .setSubclass subject target)
        (before ++
          [.fetch (Subclass.write settings.singleInheritance subject target) (.ok (row :: rows))])
        (.ok (.connected subject.label subclassEdge target.label))
  /-- The guarded write gave no row, or failed. -/
  | refused {subject target : NodePattern} {before after : List Event} {answer : Rows}
      {result : Except CommandFault Outcome} :
      (∀ event ∈ before, (connect .setSubclass subject target).Reads event) →
      (∀ row rows, answer ≠ .ok (row :: rows)) →
      (∀ event ∈ after, (connect .setSubclass subject target).Reads event) → NoWrite result →
      Course settings (.connect .setSubclass subject target)
        (before ++
          .fetch (Subclass.write settings.singleInheritance subject target) answer :: after) result

/-- Every command may send a lookup: the lookups are among the requests any command reads with. -/
theorem reads_of_isLookup (command : Command) {event : Event} (h : IsLookup event) :
    command.Reads event := by
  obtain ⟨text, htext, label, rows, rfl⟩ := h
  exact ⟨_, rows, rfl, .lookup label htext⟩

private theorem reads_probe {command : Command} {query : Query} (h : command.probe? = some query)
    (rows : Rows) : command.Reads (.fetch query rows) :=
  ⟨query, rows, rfl, .probe h⟩

private theorem noWrite_error (fault : CommandFault) : NoWrite (.error fault) :=
  fun _ h => nomatch h

private theorem noWrite_ok {outcome : Outcome} (h : outcome.isWrite = false) :
    NoWrite (.ok outcome) := by
  rintro _ ⟨⟩
  exact h

/-- A read fails, and the run with it, or gives rows to go on with. -/
theorem runs_read_bind {query : Query} {next : List Row → CommandAction Outcome}
    {log : List Event} {result : Except CommandFault Outcome}
    (hrun : Action.Runs (read query >>= next) log result) :
    (∃ fault, log = [.fetch query (.error fault)] ∧ result = .error (.store fault)) ∨
      ∃ rows after, log = .fetch query (.ok rows) :: after ∧ (next rows).Runs after result := by
  rcases runs_bind_iff.mp hrun with ⟨fault, rfl, hread⟩ |
    ⟨rows, before, after, rfl, hread, hnext⟩
  · obtain ⟨answer, rfl, hanswer⟩ := runs_fetch_iff.mp hread
    cases answer with
    | error storeFault =>
      cases hanswer
      exact .inl ⟨storeFault, rfl, rfl⟩
    | ok rows => cases hanswer
  · obtain ⟨answer, rfl, hanswer⟩ := runs_fetch_iff.mp hread
    cases answer with
    | error storeFault => cases hanswer
    | ok rows' =>
      cases hanswer
      exact .inr ⟨rows, after, rfl, hnext⟩

/-- A write, and the outcome that reports it. -/
private theorem runs_change {query : Query} {outcome : Outcome} {log : List Event}
    {result : Except CommandFault Outcome}
    (hrun : Action.Runs (do change query; return outcome) log result) :
    ∃ written, log = [.execute query written] ∧
      result = (written.mapError .store).map fun _ => outcome := by
  rcases runs_bind_iff.mp hrun with ⟨fault, rfl, hchange⟩ |
    ⟨_, before, after, rfl, hchange, hend⟩
  · obtain ⟨written, rfl, hwritten⟩ := runs_execute_iff.mp hchange
    refine ⟨written, rfl, ?_⟩
    rw [← hwritten]
    rfl
  · obtain ⟨written, rfl, hwritten⟩ := runs_execute_iff.mp hchange
    obtain ⟨rfl, rfl⟩ := runs_pure_iff.mp hend
    refine ⟨written, rfl, ?_⟩
    rw [← hwritten]
    rfl

/-- A read that gets rows, on a store. -/
theorem read_run {σ : Type} {backend : Backend σ} {state : σ} {query : Query} {rows : List Row}
    (h : (backend.fetch query state).1 = .ok rows) :
    ((read query).run.run backend state).1 = .ok rows := by
  change (backend.fetch query state).1.mapError _ = _
  rw [h]
  rfl

/-- A read that the store answers leaves one request behind, with the rows it got. -/
theorem read_trace {σ : Type} {backend : Backend σ} {state : σ} {query : Query} {rows : List Row}
    (h : (backend.fetch query state).1 = .ok rows) :
    (read query).run.trace backend state = [.fetch query (.ok rows)] := by
  change [Event.fetch query (backend.fetch query state).1] = _
  rw [h]

/-- Behind its probe a command either sends nothing more and reports no write, or the probe had one
row, without a set edge, and the run is that of the write. -/
theorem runs_whenUnset {rows : List Row} {what : String} {proceed : CommandAction Outcome}
    {log : List Event} {result : Except CommandFault Outcome}
    (hrun : Action.Runs (whenUnset rows what proceed) log result) :
    (log = [] ∧ NoWrite result) ∨
      (∃ row : Row, rows = [row] ∧ row.get? "connected" ≠ some (.bool true)) ∧
        proceed.Runs log result := by
  unfold whenUnset at hrun
  split at hrun
  · obtain ⟨rfl, rfl⟩ := runs_pure_iff.mp hrun
    exact .inl ⟨rfl, noWrite_ok rfl⟩
  · next row =>
    split at hrun
    · obtain ⟨rfl, rfl⟩ := runs_pure_iff.mp hrun
      exact .inl ⟨rfl, noWrite_ok rfl⟩
    · next hflag =>
      refine .inr ⟨⟨row, rfl, ?_⟩, hrun⟩
      intro hconnected
      exact hflag (by simp [Row.flag, hconnected, Value.asBool?])
  · obtain ⟨rfl, rfl⟩ := runs_pure_iff.mp hrun
    exact .inl ⟨rfl, noWrite_ok rfl⟩

variable {settings : OntologySettings} {log : List Event} {result : Except CommandFault Outcome}

/-- The checks that are made again after a refused write. -/
private theorem runs_recheck {subject target : String}
    (hrun : Action.Runs (do
      return (← objection? settings subject target).getD .incorrectNodes) log result) :
    (∀ event ∈ log, IsLookup event) ∧ NoWrite result := by
  rcases runs_bind_iff.mp hrun with ⟨fault, rfl, hcheck⟩ |
    ⟨objection, checked, rest, rfl, hcheck, hend⟩
  · exact ⟨(objection?_keeps settings subject target _ _ hcheck).1, noWrite_error fault⟩
  obtain ⟨hlookups, hobjects⟩ := objection?_keeps settings subject target _ _ hcheck
  obtain ⟨rfl, rfl⟩ := runs_pure_iff.mp hend
  rw [List.append_nil]
  refine ⟨hlookups, noWrite_ok ?_⟩
  cases objection with
  | none => rfl
  | some outcome => exact hobjects _ rfl outcome rfl

/-- A command that ends at its probe has run its course if its outcome writes nothing. -/
theorem course_probe {command : Command} {probe : Query} (hprobe : command.probe? = some probe)
    (answer : Rows) (hresult : NoWrite result) :
    Course settings command [.fetch probe answer] result := by
  have hreads : command.Reads (.fetch probe answer) := reads_probe hprobe answer
  exact .inspected (List.forall_mem_singleton.mpr hreads) hresult

/-- Every run of a definition is a probe, and then a write only if the probe had no row. -/
theorem runDefine_course {definition : Definition} {node : NodePattern}
    (hrun : Action.Runs (runDefine definition node) log result) :
    Course settings (.define definition node) log result := by
  rcases runs_read_bind hrun with ⟨fault, rfl, rfl⟩ | ⟨rows, after, rfl, hnext⟩
  · exact course_probe rfl _ (noWrite_error _)
  split at hnext
  · next hempty =>
    rcases runs_bind_iff.mp hnext with ⟨fault, rfl, hstamp⟩ | ⟨stamp, _, log', rfl, hstamp, hwrite⟩
    · obtain ⟨-, drawn, hdrawn⟩ := runs_stamp_iff.mp hstamp
      cases hdrawn
    · obtain ⟨rfl, -⟩ := runs_stamp_iff.mp hstamp
      obtain ⟨written, rfl, rfl⟩ := runs_change hwrite
      exact .executed written rfl (List.isEmpty_iff.mp hempty) (.define definition node stamp) rfl
  · obtain ⟨rfl, rfl⟩ := runs_pure_iff.mp hnext
    exact course_probe rfl _ (noWrite_ok rfl)

/-- A command that writes an edge once its probe has found the ends. -/
theorem writeWhenUnset_course {command : Command} {probe write : Query} {what : String}
    {outcome : Outcome} (hprobe : command.probe? = some probe) (hwrite : command.Executes write)
    (hproceeds : ∀ row : Row, row.get? "connected" ≠ some (.bool true) → command.Proceeds [row])
    (houtcome : outcome.isWrite = true)
    (hrun : Action.Runs (do
      let rows ← read probe
      whenUnset rows what do
        change write
        return outcome) log result) :
    Course settings command log result := by
  rcases runs_read_bind hrun with ⟨fault, rfl, rfl⟩ | ⟨rows, after, rfl, hnext⟩
  · exact course_probe hprobe _ (noWrite_error _)
  rcases runs_whenUnset hnext with ⟨rfl, hresult⟩ | ⟨⟨row, rfl, hconnected⟩, hchange⟩
  · exact course_probe hprobe _ hresult
  · obtain ⟨written, rfl, rfl⟩ := runs_change hchange
    exact .executed written hprobe (hproceeds row hconnected) hwrite houtcome

/-- What runs once the probe of a subclass edge has found the ends, with the events before it. -/
theorem runSubclass_course {subject target : NodePattern} {before after : List Event}
    (hbefore : ∀ event ∈ before, (connect .setSubclass subject target).Reads event)
    (hrun : Action.Runs (runSubclass settings subject target) after result) :
    Course settings (.connect .setSubclass subject target) (before ++ after) result := by
  have hreads {log : List Event} (h : ∀ event ∈ log, IsLookup event) :
      ∀ event ∈ log, (connect .setSubclass subject target).Reads event :=
    fun event hevent => reads_of_isLookup _ (h event hevent)
  rcases runs_bind_iff.mp hrun with ⟨fault, rfl, hcheck⟩ |
    ⟨objection, checked, written, rfl, hcheck, hnext⟩
  · have hlookups := (objection?_keeps settings subject.label target.label _ _ hcheck).1
    refine .inspected ?_ (noWrite_error fault)
    exact List.forall_mem_append.mpr ⟨hbefore, hreads hlookups⟩
  obtain ⟨hlookups, hobjects⟩ := objection?_keeps settings subject.label target.label _ _ hcheck
  have hchecked := List.forall_mem_append.mpr ⟨hbefore, hreads hlookups⟩
  rw [← List.append_assoc]
  cases objection with
  | some outcome =>
    obtain ⟨rfl, rfl⟩ := runs_pure_iff.mp hnext
    rw [List.append_nil]
    exact .inspected hchecked (noWrite_ok (hobjects _ rfl outcome rfl))
  | none =>
    rcases runs_read_bind hnext with ⟨fault, rfl, rfl⟩ | ⟨rows, log', rfl, hend⟩
    · exact .refused hchecked (fun _ _ h => nomatch h) (fun _ h => nomatch h) (noWrite_error _)
    cases rows with
    | cons row rows =>
      obtain ⟨rfl, rfl⟩ := runs_pure_iff.mp hend
      exact .set row rows hchecked
    | nil =>
      obtain ⟨hrechecked, hresult⟩ := runs_recheck hend
      exact .refused hchecked (fun _ _ h => nomatch h) (hreads hrechecked) hresult

/-- Every run of a connection is a probe, and then the checks and the write its edge calls for. -/
theorem runConnect_course {connection : Connection} {subject target : NodePattern}
    (hrun : Action.Runs (runConnect settings connection subject target) log result) :
    Course settings (.connect connection subject target) log result := by
  cases connection with
  | requireProperty =>
    exact writeWhenUnset_course rfl (.connect subject target nofun) (fun row h => ⟨row, rfl, h⟩)
      rfl hrun
  | setProperty =>
    exact writeWhenUnset_course rfl (.connect subject target nofun) (fun row h => ⟨row, rfl, h⟩)
      rfl hrun
  | setSubclass =>
    rcases runs_read_bind hrun with ⟨fault, rfl, rfl⟩ | ⟨rows, after, rfl, hnext⟩
    · exact course_probe rfl _ (noWrite_error _)
    rcases runs_whenUnset hnext with ⟨rfl, hresult⟩ | ⟨-, hsubclass⟩
    · exact course_probe rfl _ hresult
    · have hprobe : (connect .setSubclass subject target).Reads
          (.fetch (Connection.setSubclass.probe subject target) (.ok rows)) := reads_probe rfl _
      exact runSubclass_course (List.forall_mem_singleton.mpr hprobe) hsubclass

/-- Every run of a command has one of the courses. -/
theorem run_course {command : Command} (hrun : Action.Runs (command.run settings) log result) :
    Course settings command log result := by
  cases command with
  | define definition node => exact runDefine_course hrun
  | connect connection subject target => exact runConnect_course hrun
  | setRelationship subject relationship target =>
    exact writeWhenUnset_course rfl (.setRelationship subject relationship target)
      (fun row h => ⟨row, rfl, h⟩) rfl hrun
  | info label =>
    obtain ⟨hlookups, hresult⟩ := runInfo_keeps settings label log result hrun
    exact .inspected (fun event hevent => reads_of_isLookup _ (hlookups event hevent)) hresult

inductive Sends (settings : OntologySettings) (command : Command) : Event → Prop where
  | inspects {event : Event} : command.Reads event → Sends settings command event
  | executes {write : Query} (written : Written) : command.Executes write →
      Sends settings command (.execute write written)
  | guarded {write : Query} (rows : Rows) : command.guarded? settings = some write →
      Sends settings command (.fetch write rows)

/-- Every request of a course is one the command may send. -/
theorem Course.sends {command : Command}
    (h : Course settings command log result) : ∀ event ∈ log, command.Sends settings event := by
  cases h with
  | inspected hlog _ => exact fun event hevent => .inspects (hlog event hevent)
  | executed written hprobe _ hwrite _ =>
    intro event hevent
    rcases List.mem_cons.mp hevent with rfl | hevent
    · exact .inspects (reads_probe hprobe _)
    · rw [List.mem_singleton.mp hevent]
      exact .executes written hwrite
  | set row rows hbefore =>
    intro event hevent
    rcases List.mem_append.mp hevent with hmem | hmem
    · exact .inspects (hbefore event hmem)
    · rw [List.mem_singleton.mp hmem]
      exact .guarded _ rfl
  | refused hbefore _ hafter _ =>
    intro event hevent
    rcases List.mem_append.mp hevent with hmem | hmem
    · exact .inspects (hbefore event hmem)
    rcases List.mem_cons.mp hmem with rfl | hmem
    · exact .guarded _ rfl
    · exact .inspects (hafter event hmem)

/-- What a command sends on its way is also sent on some whole run. -/
theorem sends_of_reaches {command : Command} {event : Event}
    {rest : Program (Except CommandFault Outcome)}
    (h : (command.run settings).run.Reaches (log ++ [event]) rest) :
    command.Sends settings event := by
  obtain ⟨log', result, hrest⟩ := rest.exists_run
  have hcourse := run_course (h.trans hrest)
  exact hcourse.sends event (by simp)

/-- Of all that a command sends, only its guarded write can make the edge. -/
theorem Sends.canMake_iff {command : Command} {event : Event}
    (h : command.Sends settings event) :
    event.query.canMake subclassEdge = true ↔
      ∃ write rows, command.guarded? settings = some write ∧ event = .fetch write rows := by
  cases h with
  | inspects hreads =>
    obtain ⟨query, rows, rfl, hinspects⟩ := hreads
    have hnone : (Event.fetch query rows).query.canMake subclassEdge = false := hinspects.canMake
    rw [hnone]
    refine iff_of_false Bool.false_ne_true ?_
    rintro ⟨write, rows', hwrite, hsame⟩
    cases hsame
    have hmake := guarded?_canMake hwrite
    rw [hinspects.canMake] at hmake
    cases hmake
  | @executes write written hexecutes =>
    have hnone : (Event.execute write written).query.canMake subclassEdge = false :=
      hexecutes.canMake
    rw [hnone]
    refine iff_of_false Bool.false_ne_true ?_
    rintro ⟨write', rows, hwrite, hsame⟩
    cases hsame
  | guarded rows hwrite => exact iff_of_true (guarded?_canMake hwrite) ⟨_, rows, hwrite, rfl⟩

/-- A subclass edge is reported as such: no other outcome of the command tells of a change. -/
theorem Course.connected {subject target : NodePattern} {outcome : Outcome}
    (h : Course settings (.connect .setSubclass subject target) log result)
    (hresult : result = .ok outcome) (hwrite : outcome.isWrite = true) :
    outcome = .connected subject.label subclassEdge target.label := by
  have hnoWrite (h : NoWrite result) : outcome = .connected subject.label subclassEdge
      target.label := by
    rw [h outcome hresult] at hwrite
    cases hwrite
  cases h with
  | inspected _ hnone => exact hnoWrite hnone
  | executed written _ _ hexecutes _ =>
    cases hexecutes with
    | connect _ _ hproperty => exact absurd rfl hproperty
  | set row rows _ =>
    cases hresult
    rfl
  | refused _ _ _ hnone => exact hnoWrite hnone

end Command

end OntologyGraph
