import OntologyGraph.Proofs.Command.Course

/-!
When commands write, and what they report of it. Every statement here is read off the course of a
run, so it holds of every command, all settings and any answers of the store.
-/

namespace OntologyGraph

open Schema Store

namespace Store

def Event.isExecute : Event → Bool
  | .execute .. => true
  | .fetch .. => false

def Event.reads (text : String) : Event → Bool
  | .fetch query _ => query.text == text
  | .execute .. => false

end Store

namespace Command

def ends? : Command → Option String
  | .connect connection subject target => some (connection.ends subject target)
  | .setRelationship subject relationship target =>
    some (RelationshipSetting.ends subject relationship target)
  | .define .. | .info _ => none

/-- Whether the graph was changed on a run, by what the store answered. -/
def Wrote (settings : OntologySettings) (command : Command) (log : List Event) : Prop :=
  (∃ write, .execute write (.ok ()) ∈ log) ∨
    ∃ write, command.guarded? settings = some write ∧
      ∃ row rows, .fetch write (.ok (row :: rows)) ∈ log

/-- What a run may write, and how its result tells of it. -/
structure WriteDiscipline (settings : OntologySettings) (command : Command) (log : List Event)
    (result : Except CommandFault Outcome) : Prop where
  executes_once : log.countP Event.isExecute ≤ 1
  /-- A write is the last request, and the only one before it is the probe. -/
  execute_behind_probe : ∀ before write written after,
    log = before ++ .execute write written :: after →
      after = [] ∧ command.Executes write ∧
        ∃ probe rows, command.probe? = some probe ∧ before = [.fetch probe (.ok rows)] ∧
          command.Proceeds rows
  /-- The probe and the write of an edge begin with the same match of its ends. -/
  same_ends : ∀ ends, command.ends? = some ends →
    (∀ probe, command.probe? = some probe →
      ∃ rest, probe.text = ends ++ " OPTIONAL MATCH " ++ rest) ∧
    ∀ write, command.Executes write → ∃ rest, write.text = ends ++ " MERGE " ++ rest
  /-- Subclass edges and lineages are never executed as a write. -/
  subclass_not_executed : ∀ subject target, command = .connect .setSubclass subject target →
    ∀ event ∈ log, event.isExecute = false
  info_not_executed : ∀ label, command = .info label → ∀ event ∈ log, event.isExecute = false
  guarded_once : ∀ write, command.guarded? settings = some write →
    log.countP (Event.reads write.text) ≤ 1
  reports_write_iff :
    (∃ outcome, result = .ok outcome ∧ outcome.isWrite = true) ↔ Wrote settings command log
  /-- Any other outcome comes without a write, even one that failed. -/
  reports_no_write : ∀ outcome, result = .ok outcome → outcome.isWrite = false →
    (∀ event ∈ log, event.isExecute = false) ∧ ¬ Wrote settings command log

theorem connection_probe_text (connection : Connection) (subject target : NodePattern) :
    ∃ rest, (connection.probe subject target).text =
      connection.ends subject target ++ " OPTIONAL MATCH " ++ rest := by
  refine ⟨"(s)-[e:" ++ connection.edge ++ "]->(t) " ++
    "RETURN id(s) AS subject_id, id(t) AS target_id, count(e) > 0 AS connected", ?_⟩
  have hsplit : " OPTIONAL MATCH (s)-[e:" = " OPTIONAL MATCH " ++ "(s)-[e:" := by decide
  simp only [Connection.probe, hsplit, String.append_assoc]

theorem connection_write_text (connection : Connection) (subject target : NodePattern) :
    ∃ rest, (connection.write subject target).text =
      connection.ends subject target ++ " MERGE " ++ rest := by
  refine ⟨"(s)-[:" ++ connection.edge ++ "]->(t)", ?_⟩
  have hsplit : " MERGE (s)-[:" = " MERGE " ++ "(s)-[:" := by decide
  simp only [Connection.write, hsplit, String.append_assoc]

theorem relationship_probe_text (subject relationship target : NodePattern) :
    ∃ rest, (RelationshipSetting.probe subject relationship target).text =
      RelationshipSetting.ends subject relationship target ++ " OPTIONAL MATCH " ++ rest := by
  refine ⟨"(s)-[h:" ++ relationshipEdge ++ "]->(r)-[g:" ++ targetEdge ++ "]->(t) " ++
    "RETURN id(s) AS subject_id, id(r) AS relationship_id, id(t) AS target_id, " ++
    "count(g) > 0 AS connected", ?_⟩
  have hsplit : " OPTIONAL MATCH (s)-[h:" = " OPTIONAL MATCH " ++ "(s)-[h:" := by decide
  simp only [RelationshipSetting.probe, hsplit, String.append_assoc]

theorem relationship_write_text (subject relationship target : NodePattern) :
    ∃ rest, (RelationshipSetting.write subject relationship target).text =
      RelationshipSetting.ends subject relationship target ++ " MERGE " ++ rest := by
  refine ⟨"(s)-[:" ++ relationshipEdge ++ "]->(r) MERGE (r)-[:" ++ targetEdge ++ "]->(t)", ?_⟩
  have hsplit : " MERGE (s)-[:" = " MERGE " ++ "(s)-[:" := by decide
  simp only [RelationshipSetting.write, hsplit, String.append_assoc]

/-- A probe begins with the matched ends and looks for the edge behind them. -/
theorem probe_text {command : Command} {ends : String} (hends : command.ends? = some ends)
    {probe : Query} (hprobe : command.probe? = some probe) :
    ∃ rest, probe.text = ends ++ " OPTIONAL MATCH " ++ rest := by
  cases command with
  | define definition node => cases hends
  | connect connection subject target =>
    cases hends
    cases hprobe
    exact connection_probe_text connection subject target
  | setRelationship subject relationship target =>
    cases hends
    cases hprobe
    exact relationship_probe_text subject relationship target
  | info label => cases hends

/-- A write begins with the very ends its probe matched and merges behind them. -/
theorem write_text {command : Command} {ends : String} (hends : command.ends? = some ends)
    {write : Query} (hwrite : command.Executes write) :
    ∃ rest, write.text = ends ++ " MERGE " ++ rest := by
  cases hwrite with
  | define definition node stamp => cases hends
  | connect subject target _ =>
    cases hends
    exact connection_write_text _ subject target
  | setRelationship subject relationship target =>
    cases hends
    exact relationship_write_text subject relationship target

variable {settings : OntologySettings} {command : Command} {log : List Event}
  {result : Except CommandFault Outcome}

theorem Reads.isExecute {event : Event} (h : command.Reads event) : event.isExecute = false := by
  obtain ⟨query, rows, rfl, -⟩ := h
  rfl

/-- A read that inspects has another text than the guarded write, since it can make no edge. -/
private theorem Reads.reads_guarded {event : Event} (h : command.Reads event) {command' : Command}
    {write : Query} (hwrite : command'.guarded? settings = some write) :
    event.reads write.text = false := by
  obtain ⟨query, rows, rfl, hinspects⟩ := h
  apply beq_eq_false_iff_ne.mpr
  intro htext
  have hsame : query.canMake subclassEdge = write.canMake subclassEdge := by
    rw [Store.Query.canMake, Store.Query.canMake, htext]
  rw [hinspects.canMake, guarded?_canMake hwrite] at hsame
  cases hsame

private theorem countP_reads_guarded (h : ∀ event ∈ log, command.Reads event) {command' : Command}
    {write : Query} (hwrite : command'.guarded? settings = some write) :
    log.countP (Event.reads write.text) = 0 := by
  apply List.countP_eq_zero.mpr
  intro event hevent
  rw [(h event hevent).reads_guarded hwrite]
  exact Bool.false_ne_true

private theorem not_wrote_of_reads (h : ∀ event ∈ log, command.Reads event) :
    ¬ Wrote settings command log := by
  rintro (⟨write, hmem⟩ | ⟨write, hwrite, row, rows, hmem⟩)
  · exact Bool.true_eq_false.mp (h _ hmem).isExecute
  · have hreads := (h _ hmem).reads_guarded hwrite
    simp [Event.reads] at hreads

private theorem not_reports_write (h : NoWrite result) :
    ¬ ∃ outcome, result = .ok outcome ∧ outcome.isWrite = true := by
  rintro ⟨outcome, houtcome, hwrite⟩
  rw [h outcome houtcome] at hwrite
  cases hwrite

/-- Without an execute the rest of the discipline is about the guarded write. -/
theorem discipline_of_not_executed (hlog : ∀ event ∈ log, event.isExecute = false)
    (honce : ∀ write, command.guarded? settings = some write →
      log.countP (Event.reads write.text) ≤ 1)
    (hreports : (∃ outcome, result = .ok outcome ∧ outcome.isWrite = true) ↔
      Wrote settings command log) :
    WriteDiscipline settings command log result where
  executes_once := by
    have hnone : log.countP Event.isExecute = 0 := by
      apply List.countP_eq_zero.mpr
      intro event hevent
      rw [hlog event hevent]
      exact Bool.false_ne_true
    omega
  execute_behind_probe := by
    rintro before write written after rfl
    have hexecute := hlog (.execute write written) (by simp)
    cases hexecute
  same_ends ends hends := ⟨fun _ => probe_text hends, fun _ => write_text hends⟩
  subclass_not_executed _ _ _ := hlog
  info_not_executed _ _ := hlog
  guarded_once := honce
  reports_write_iff := hreports
  reports_no_write outcome houtcome hwrite := by
    refine ⟨hlog, ?_⟩
    rw [← hreports]
    apply not_reports_write
    intro outcome' houtcome'
    rw [houtcome] at houtcome'
    cases houtcome'
    exact hwrite

/-- A command that only read and reports no write keeps the discipline. -/
theorem discipline_inspected (hlog : ∀ event ∈ log, command.Reads event)
    (hresult : NoWrite result) : WriteDiscipline settings command log result := by
  refine discipline_of_not_executed (fun event hevent => (hlog event hevent).isExecute) ?_ ?_
  · intro write hwrite
    rw [countP_reads_guarded hlog hwrite]
    exact Nat.zero_le 1
  · exact iff_of_false (not_reports_write hresult) (not_wrote_of_reads hlog)

private theorem wrote_executed_iff {probe write : Query} {answer : Rows} {written : Written}
    (hguarded : command.guarded? settings = none) :
    Wrote settings command [.fetch probe answer, .execute write written] ↔ written = .ok () := by
  constructor
  · rintro (⟨write', hmem⟩ | ⟨write', hwrite', -⟩)
    · simp only [List.mem_cons, List.not_mem_nil, or_false, reduceCtorEq, false_or,
        Event.execute.injEq] at hmem
      exact hmem.2.symm
    · rw [hguarded] at hwrite'
      cases hwrite'
  · rintro rfl
    exact .inl ⟨write, by simp⟩

/-- A command that wrote once, behind a probe that let it proceed, keeps the discipline. -/
theorem discipline_executed {probe write : Query} {rows : List Row} {outcome : Outcome}
    (written : Written) (hprobe : command.probe? = some probe) (hrows : command.Proceeds rows)
    (hwrite : command.Executes write) (houtcome : outcome.isWrite = true) :
    WriteDiscipline settings command [.fetch probe (.ok rows), .execute write written]
      ((written.mapError .store).map fun _ => outcome) where
  executes_once := by simp [Event.isExecute]
  execute_behind_probe := by
    intro before write' written' after hlog
    match before with
    | [] => simp at hlog
    | [first] =>
      simp only [List.cons_append, List.nil_append, List.cons.injEq, Event.execute.injEq] at hlog
      obtain ⟨rfl, ⟨rfl, rfl⟩, rfl⟩ := hlog
      exact ⟨rfl, hwrite, probe, rows, hprobe, rfl, hrows⟩
    | _ :: _ :: _ => simp at hlog
  same_ends ends hends := ⟨fun _ => probe_text hends, fun _ => write_text hends⟩
  subclass_not_executed := by
    rintro subject target rfl
    cases hwrite with
    | connect _ _ hproperty => exact absurd rfl hproperty
  info_not_executed := by
    rintro label rfl
    cases hwrite
  guarded_once guarded h := by
    rw [guarded?_of_executes settings hwrite] at h
    cases h
  reports_write_iff := by
    rw [wrote_executed_iff (guarded?_of_executes settings hwrite)]
    constructor
    · rintro ⟨outcome', hresult, -⟩
      cases written with
      | ok _ => rfl
      | error fault => cases hresult
    · rintro rfl
      exact ⟨outcome, rfl, houtcome⟩
  reports_no_write outcome' hresult hnone := by
    cases written with
    | ok _ =>
      cases hresult
      rw [houtcome] at hnone
      cases hnone
    | error fault => cases hresult

/-- A run with one guarded write, whose rows decide what the run reports. -/
theorem discipline_guarded {subject target : NodePattern} {before after : List Event}
    {answer : Rows} (hbefore : ∀ event ∈ before, (connect .setSubclass subject target).Reads event)
    (hafter : ∀ event ∈ after, (connect .setSubclass subject target).Reads event)
    (hreports : (∃ outcome, result = .ok outcome ∧ outcome.isWrite = true) ↔
      ∃ row rows, answer = .ok (row :: rows)) :
    WriteDiscipline settings (.connect .setSubclass subject target)
      (before ++ .fetch (Subclass.write settings.singleInheritance subject target) answer :: after)
      result := by
  -- The guarded write is a read as far as the store sees it: it asks for rows.
  have hexecute : ∀ event ∈ before ++
      .fetch (Subclass.write settings.singleInheritance subject target) answer :: after,
      event.isExecute = false := by
    intro event hevent
    rcases List.mem_append.mp hevent with hmem | hmem
    · exact (hbefore event hmem).isExecute
    · rcases List.mem_cons.mp hmem with rfl | hmem
      · rfl
      · exact (hafter event hmem).isExecute
  apply discipline_of_not_executed hexecute
  · intro write hwrite
    rw [List.countP_append, countP_reads_guarded hbefore hwrite, List.countP_cons,
      countP_reads_guarded hafter hwrite]
    split <;> omega
  · rw [hreports]
    constructor
    · rintro ⟨row, rows, rfl⟩
      exact .inr ⟨_, rfl, row, rows, by simp⟩
    · rintro (⟨write, hmem⟩ | ⟨write, hwrite, row, rows, hmem⟩)
      · cases hexecute _ hmem
      have hreads : (Event.fetch write (.ok (row :: rows))).reads write.text = true :=
        beq_self_eq_true _
      rcases List.mem_append.mp hmem with hmem | hmem
      · rw [(hbefore _ hmem).reads_guarded hwrite] at hreads
        cases hreads
      · rcases List.mem_cons.mp hmem with hsame | hmem
        · cases hsame
          exact ⟨row, rows, rfl⟩
        · rw [(hafter _ hmem).reads_guarded hwrite] at hreads
          cases hreads

/-- Whatever course a command takes, it writes with discipline. -/
theorem course_discipline (h : Course settings command log result) :
    WriteDiscipline settings command log result := by
  cases h with
  | inspected hlog hresult => exact discipline_inspected hlog hresult
  | executed written hprobe hrows hwrite houtcome =>
    exact discipline_executed written hprobe hrows hwrite houtcome
  | set row rows hbefore =>
    apply discipline_guarded hbefore (by simp)
    exact iff_of_true ⟨_, rfl, rfl⟩ ⟨row, rows, rfl⟩
  | refused hbefore hanswer hafter hresult =>
    apply discipline_guarded hbefore hafter
    apply iff_of_false (not_reports_write hresult)
    rintro ⟨row, rows, rfl⟩
    exact hanswer row rows rfl

/-- Whatever a store answers, a command writes at most once, only right behind its probe or by the
guarded write, and its result reports a change exactly if the store has taken it. -/
theorem run_writes_with_discipline {σ : Type} (settings : OntologySettings) (command : Command)
    (backend : Backend σ) (state : σ) :
    WriteDiscipline settings command ((command.run settings).run.trace backend state)
      ((command.run settings).run.run backend state).1 :=
  course_discipline (run_course (Program.runs_trace backend _ state))

end Command

end OntologyGraph
