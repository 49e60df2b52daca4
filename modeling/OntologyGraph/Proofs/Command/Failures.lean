import OntologyGraph.Proofs.Schema.Lookups

/-!
Only the store makes a command fail. What a command finds in the graph, also classes that are
missing, double, in a cycle or under several parents, leads to an outcome; a failure of the store
ends the command at once and comes out as it is.
-/

namespace OntologyGraph

open Schema Store Action

namespace Command

/-- A fault of a command that is the store's, met by the command itself or on a walk. -/
def Carries (fault : CommandFault) (storeFault : StoreFault) : Prop :=
  fault = .store storeFault ∨ fault = .ontology (.store storeFault)

def CommandRelays {α : Type} : CommandAction α → Prop :=
  Relays (fun _ => False) Carries

/-- A read hands a failure of its call on, as a failure of the store. -/
theorem read_relays (query : Query) : CommandRelays (read query) :=
  relays_fetch (fun _ => .inl rfl) query

/-- A write hands a failure of its call on, as a failure of the store. -/
theorem change_relays (query : Query) : CommandRelays (change query) :=
  relays_execute (fun _ => .inl rfl) query

private theorem cycleObjection_of_lookup (subject target : String) {fault : OntologyFault}
    (h : fault.isLookup = true) :
    ∃ objection, cycleObjection subject target (.error fault) = .ok objection := by
  cases fault with
  | notFound => exact ⟨none, rfl⟩
  | multipleFound => exact ⟨none, rfl⟩
  | cycle => exact ⟨_, rfl⟩
  | unsupportedType => cases h
  | invalidNode => cases h
  | store => cases h

private theorem cycleCheck_relays (settings : OntologySettings) (subject target : String) :
    CommandRelays (do
      let walked ← Action.attempt (walk settings target)
      Action.ofExcept (cycleObjection subject target walked)) := by
  refine relays_recover (walk_lookups settings target).relays (fun lineage => ⟨_, rfl⟩)
    (fun _ => cycleObjection_of_lookup subject target) ?_
  rintro _ storeFault rfl
  exact ⟨_, rfl, .inr rfl⟩

/-- The checks fail only where one of their lookups failed: what a walk reports is an objection. -/
theorem objection?_relays (settings : OntologySettings) (subject target : String) :
    CommandRelays (objection? settings subject target) := by
  unfold objection?
  split
  · exact relays_pure _
  split
  · apply relays_bind (read_relays _)
    intro parents
    cases otherParent? subject target parents with
    | some outcome => exact relays_pure _
    | none => exact cycleCheck_relays settings subject target
  · exact cycleCheck_relays settings subject target

theorem whenUnset_relays (rows : List Row) (what : String) {proceed : CommandAction Outcome}
    (h : CommandRelays proceed) : CommandRelays (whenUnset rows what proceed) := by
  unfold whenUnset
  split
  · exact relays_pure _
  · split
    · exact relays_pure _
    · exact h
  · exact relays_pure _

theorem runDefine_relays (definition : Definition) (node : NodePattern) :
    CommandRelays (runDefine definition node) := by
  apply relays_bind (read_relays _)
  intro rows
  split
  · apply relays_bind relays_stamp
    intro stamp
    apply relays_bind (change_relays _)
    intro _
    exact relays_pure _
  · exact relays_pure _

/-- A guarded write that gives no row runs the checks once more; both hand failures on. -/
theorem runSubclassWrite_relays (settings : OntologySettings) (subject target : NodePattern) :
    CommandRelays (runSubclassWrite settings subject target) := by
  apply relays_bind (read_relays _)
  intro rows
  split
  · apply relays_bind (objection?_relays settings _ _)
    intro objection
    exact relays_pure _
  · exact relays_pure _

theorem runSubclass_relays (settings : OntologySettings) (subject target : NodePattern) :
    CommandRelays (runSubclass settings subject target) := by
  apply relays_bind (objection?_relays settings _ _)
  intro objection
  cases objection with
  | some outcome => exact relays_pure _
  | none => exact runSubclassWrite_relays settings subject target

theorem runPropertyWrite_relays (connection : Connection) (subject target : NodePattern) :
    CommandRelays (runPropertyWrite connection subject target) := by
  apply relays_bind (change_relays _)
  intro _
  exact relays_pure _

/-- A connection fails only where its store does, whichever edge it sets. -/
theorem runConnect_relays (settings : OntologySettings) (connection : Connection)
    (subject target : NodePattern) :
    CommandRelays (runConnect settings connection subject target) := by
  apply relays_bind (read_relays _)
  intro rows
  apply whenUnset_relays
  cases connection with
  | requireProperty => exact runPropertyWrite_relays _ subject target
  | setProperty => exact runPropertyWrite_relays _ subject target
  | setSubclass => exact runSubclass_relays settings subject target

theorem runSetRelationship_relays (subject relationship target : NodePattern) :
    CommandRelays (runSetRelationship subject relationship target) := by
  apply relays_bind (read_relays _)
  intro rows
  apply whenUnset_relays
  apply relays_bind (change_relays _)
  intro _
  exact relays_pure _

private theorem infoOutcome_of_lookup {fault : OntologyFault} (h : fault.isLookup = true) :
    ∃ outcome, infoOutcome (.error fault) = .ok outcome :=
  ⟨_, if_pos h⟩

/-- An `info` fails only where its store does: an unknown class is an outcome and not a failure. -/
theorem runInfo_relays (settings : OntologySettings) (label : String) :
    CommandRelays (runInfo settings label) := by
  refine relays_recover (walk_lookups settings label).relays (fun lineage => ⟨_, rfl⟩)
    (fun _ => infoOutcome_of_lookup) ?_
  rintro _ storeFault rfl
  exact ⟨_, rfl, .inr rfl⟩

/-- No command fails of itself: its failures are those of the calls it makes. -/
theorem run_relays (settings : OntologySettings) (command : Command) :
    CommandRelays (command.run settings) := by
  cases command with
  | define definition node => exact runDefine_relays definition node
  | connect connection subject target => exact runConnect_relays settings connection subject target
  | setRelationship subject relationship target =>
    exact runSetRelationship_relays subject relationship target
  | info label => exact runInfo_relays settings label

/-- How the result of a run tells whether the store has failed. -/
structure FailureReport (log : List Event) (result : Except CommandFault Outcome) : Prop where
  /-- Every failure of the store is an error, and nothing else is. -/
  error_iff : (∃ fault, result = .error fault) ↔ ∃ event ∈ log, event.failure? ≠ none
  /-- Whatever the requests were answered with, there is an outcome. -/
  outcome_iff : (∃ outcome, result = .ok outcome) ↔ ∀ event ∈ log, event.failure? = none
  /-- Nothing is asked after a failure, and the error is the very one that the store gave. -/
  failed_last : ∀ before event after storeFault, log = before ++ event :: after →
    event.failure? = some storeFault →
    after = [] ∧ ∃ fault, result = .error fault ∧ Carries fault storeFault

private theorem failureReport_of_ending {log : List Event} {result : Except CommandFault Outcome}
    (h : Ending (fun _ => False) Carries log result) : FailureReport log result := by
  cases h with
  | value outcome hanswered =>
    refine ⟨iff_of_false ?_ ?_, iff_of_true ⟨outcome, rfl⟩ hanswered, ?_⟩
    · rintro ⟨fault, hfault⟩
      cases hfault
    · rintro ⟨event, hmem, hfailure⟩
      exact hfailure (hanswered event hmem)
    · rintro before event after storeFault rfl hfailure
      rw [hanswered event (by simp)] at hfailure
      cases hfailure
  | own _ hown => exact hown.elim
  | @failed fault storeFault hlast hcarries =>
    have ⟨before, event, hlog, _, hfailure⟩ := hlast
    have hmem : event ∈ log := by simp [hlog]
    have hne : event.failure? ≠ none := by simp [hfailure]
    refine ⟨iff_of_true ⟨fault, rfl⟩ ⟨event, hmem, hne⟩, iff_of_false ?_ ?_, ?_⟩
    · rintro ⟨outcome, houtcome⟩
      cases houtcome
    · intro hanswered
      exact hne (hanswered event hmem)
    · intro before' event' after storeFault' hlog' hfailure'
      obtain ⟨rfl, rfl⟩ := hlast.of_failure hlog' hfailure'
      exact ⟨rfl, fault, rfl, hcarries⟩

/-- Whatever a store answers, a command fails exactly if one of its requests does, with the fault
of that request, which is its last; all else that it can meet ends in an outcome. -/
theorem run_fails_iff_store_fails {σ : Type} (settings : OntologySettings) (command : Command)
    (backend : Backend σ) (state : σ) :
    FailureReport ((command.run settings).run.trace backend state)
      ((command.run settings).run.run backend state).1 :=
  failureReport_of_ending (run_relays settings command _ _ (Program.runs_trace backend _ state))

end Command

end OntologyGraph
