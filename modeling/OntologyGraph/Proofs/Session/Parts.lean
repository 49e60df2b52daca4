import OntologyGraph.Proofs.Script.Joining
import OntologyGraph.Proofs.Session.Conduct

/-!
A script is the sum of its parts. Two texts joined by a separator are read as the statements of one
followed by those of the other, and carrying them out is carrying out one text and then the other
in the same session, so it makes no difference whether lines are given at once or one by one.
-/

namespace OntologyGraph

open Script Store

namespace Session

/-- The messages of two runs one after the other. The first came to its end. -/
def Report.followedBy (first second : Report) : Report :=
  { second with messages := first.messages ++ second.messages }

/-- By induction on the statements in front; the store is passed on from each to the next. -/
theorem runStatements_append (settings : OntologySettings) (first second : Script) :
    runStatements settings (first ++ second) =
      (runStatements settings first).bind fun report =>
        match report.failure with
        | some _ => .done report
        | none => (runStatements settings second).bind fun later =>
          .done (report.followedBy later) := by
  induction first with
  | nil => exact (Program.bind_done (runStatements settings second)).symm
  | cons statement statements ih =>
    rw [List.cons_append, runStatements_cons, runStatements_cons, Program.bind_assoc]
    congr 1
    funext result
    cases result with
    | error fault => rfl
    | ok message =>
      simp only [ih, Program.bind_assoc]
      congr 1
      funext report
      cases hfailure : report.failure with
      | some fault => simp only [Program.bind, Report.cons, hfailure]
      | none =>
        simp only [Program.bind, Report.cons, hfailure, Program.bind_assoc]
        rfl

variable {σ : Type}

/-- The text `whole` is carried out like the text `first` and then, unless the store fails it, the
text `second`, in one session and on the store as the first has left it. -/
structure RunsInTurn (settings : OntologySettings) (backend : Backend σ) (state : σ)
    (first second whole : String) : Prop where
  both : ∀ report left, (run settings first).run backend state = (report, left) →
    report.failure = none →
    (run settings whole).run backend state =
        (report.followedBy ((run settings second).run backend left).1,
          ((run settings second).run backend left).2) ∧
      (run settings whole).trace backend state =
        (run settings first).trace backend state ++ (run settings second).trace backend left
  onlyFirst : ∀ report left, (run settings first).run backend state = (report, left) →
    report.failure ≠ none →
    (run settings whole).run backend state = (report, left) ∧
      (run settings whole).trace backend state = (run settings first).trace backend state

/-- A text that parses runs as its statements do. -/
theorem run_eq_runStatements (settings : OntologySettings) {source : String} {script : Script}
    (h : parse source = .ok script) : run settings source = runStatements settings script := by
  simp only [run, h]

theorem runsInTurn_of_parse (settings : OntologySettings) (backend : Backend σ) (state : σ)
    {first second whole : String} {script script' : Script} (hfirst : parse first = .ok script)
    (hsecond : parse second = .ok script') (hwhole : parse whole = .ok (script ++ script')) :
    RunsInTurn settings backend state first second whole := by
  have hrun := runStatements_append settings script script'
  rw [← run_eq_runStatements settings hfirst, ← run_eq_runStatements settings hsecond,
    ← run_eq_runStatements settings hwhole] at hrun
  constructor
  · intro report left hreport hfinished
    simp only [hrun, Program.run_bind, Program.trace_bind, hreport, hfinished, Program.run,
      Program.trace, List.append_nil, true_and]
  · intro report left hreport hbroken
    obtain ⟨fault, hfault⟩ := Option.ne_none_iff_exists'.mp hbroken
    simp only [hrun, Program.run_bind, Program.trace_bind, hreport, hfault, Program.run,
      Program.trace, List.append_nil, true_and]

/-- What a text that is a script means in front of other texts. -/
structure JoinsOthers (source : String) (script : Script) : Prop where
  parsed : ∀ sep ∈ separators, ∀ later script', parse later = .ok script' →
    parse (source ++ sep ++ later) = .ok (script ++ script')
  /-- What does not fit in a text does not fit in it on the lines below either. -/
  refused : ∀ later fault, parse later = .error fault →
    parse (source ++ "\n" ++ later) = .error
      { message := fault.message
        position :=
          { line := fault.position.line + 1 + source.toList.count '\n'
            column := fault.position.column } }
  carriedOut : ∀ sep ∈ separators, ∀ later script', parse later = .ok script' →
    ∀ (settings : OntologySettings) (σ : Type) (backend : Backend σ) (state : σ),
      RunsInTurn settings backend state source later (source ++ sep ++ later)

/-- A script and a text behind it, with a separator between, are read and carried out like one and
then the other. Nothing is left over from one statement to the next but the store, and whatever the
script ends with, the separator ends its last statement and nothing else. -/
theorem joinsOthers_of_parse {source : String} {script : Script} (h : parse source = .ok script) :
    JoinsOthers source script := by
  have hparsed : ∀ sep ∈ separators, ∀ later script', parse later = .ok script' →
      parse (source ++ sep ++ later) = .ok (script ++ script') :=
    fun sep hsep later script' hlater => parse_join h hsep hlater
  refine ⟨hparsed, fun later fault hlater => parse_below h hlater, ?_⟩
  intro sep hsep later script' hlater settings σ backend state
  exact runsInTurn_of_parse settings backend state h hlater (hparsed sep hsep later _ hlater)

def infoStatement : Statement where
  keyword := .info
  nodes := [⟨⟨"A", false⟩, none⟩]

private theorem wellFormed_infoStatement : WellFormed [infoStatement] := by
  have hlabel : Identifier.WellFormed ⟨"A", false⟩ := fun _ => (isName_iff _).mp (by decide)
  intro statement hmem
  obtain rfl := List.mem_singleton.mp hmem
  refine ⟨?_, ?_, ?_, ?_⟩
  · intro word hword
    cases hword
  · intro n hn
    cases hn
    rfl
  · intro _ node hnode
    obtain rfl := List.mem_singleton.mp hnode
    rfl
  · intro node hnode
    obtain rfl := List.mem_singleton.mp hnode
    exact ⟨hlabel, fun block hblock => nomatch hblock⟩

/-- Behind a script stands a text that is one, and one that is none. -/
theorem joinsOthers_infoStatement :
    parse "info A\r\ninfo A" = .ok [infoStatement, infoStatement] ∧
      parse "info A\n\\" = .error ⟨"unexpected character '\\\\'", ⟨2, 1⟩⟩ := by
  have hinfo : parse "info A" = .ok [infoStatement] := by
    have hprint : print [infoStatement] = "info A" := by decide
    rw [← hprint]
    exact parse_print wellFormed_infoStatement
  have hslash : parse "\\" = .error ⟨"unexpected character '\\\\'", ⟨1, 1⟩⟩ := by
    have hread : readScript "\\".toList = .error ⟨.unexpected, ['\\']⟩ := by
      change readStatements ['\\'] = _
      rw [readStatements_eq]
      rfl
    unfold parse
    rw [hread]
    rfl
  have hjoins := joinsOthers_of_parse hinfo
  constructor
  · exact hjoins.parsed "\r\n" (by simp [separators]) "info A" _ hinfo
  · exact hjoins.refused "\\" _ hslash

end Session

end OntologyGraph
