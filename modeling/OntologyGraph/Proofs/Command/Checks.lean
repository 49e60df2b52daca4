import OntologyGraph.Proofs.Schema.Lookups

/-!
What commands do to look up classes: the checks of a subclass edge, and the report on a class. All
of it reads by the texts of lookups only, whatever the store answers, and none of it ends in an
outcome that reports a change.
-/

namespace OntologyGraph

open Schema Store Action

namespace Command

private theorem readLookup_keeps {text : String} (htext : text ∈ lookupTexts) (label : String) :
    Keeps IsLookup (fun _ => True) (read (aboutClass text label)) :=
  keeps_fetch fun rows => ⟨text, htext, label, rows, rfl⟩

/-- An answer of the checks, if there is one, reports no change of the graph. -/
def Objects (objection : Option Outcome) : Prop :=
  ∀ outcome, objection = some outcome → outcome.isWrite = false

/-- An objection on the parents already there only says what it found: it writes nothing. -/
theorem otherParent?_objects (subject target : String) (parents : List Row) :
    Objects (otherParent? subject target parents) := by
  intro outcome houtcome
  obtain ⟨parent, -, rfl⟩ := Option.map_eq_some_iff.mp houtcome
  rfl

/-- An objection on the walk above the target only says what it found: it writes nothing. -/
theorem cycleObjection_objects {subject target : String} {walked : Except OntologyFault Lineage}
    {objection : Option Outcome} (h : cycleObjection subject target walked = .ok objection) :
    Objects objection := by
  rintro outcome rfl
  unfold cycleObjection at h
  split at h
  · split at h
    · cases h
      rfl
    · cases h
  · cases h
    rfl
  · split at h
    · cases h
    · cases h

private theorem cycleCheck_keeps (settings : OntologySettings) (subject target : String) :
    Keeps IsLookup Objects (do
      let walked ← Action.attempt (walk settings target)
      Action.ofExcept (cycleObjection subject target walked)) := by
  apply keeps_bind (keeps_attempt (walk_lookups settings target).keeps)
  intro walked _
  exact keeps_ofExcept fun _ h => cycleObjection_objects h

/-- The checks before a guarded write send lookups only, whatever the store answers. -/
theorem objection?_keeps (settings : OntologySettings) (subject target : String) :
    Keeps IsLookup Objects (objection? settings subject target) := by
  unfold objection?
  split
  · apply keeps_pure
    rintro _ ⟨⟩
    rfl
  split
  · apply keeps_bind (readLookup_keeps (by simp [lookupTexts]) subject)
    intro parents _
    cases hparent : otherParent? subject target parents with
    | some outcome =>
      apply keeps_pure
      rintro _ ⟨⟩
      exact otherParent?_objects subject target parents outcome hparent
    | none => exact cycleCheck_keeps settings subject target
  · exact cycleCheck_keeps settings subject target

/-- An `info` sends lookups only and its outcome is never a write. -/
theorem runInfo_keeps (settings : OntologySettings) (label : String) :
    Keeps IsLookup (fun outcome => outcome.isWrite = false) (runInfo settings label) := by
  apply keeps_bind (keeps_attempt (walk_lookups settings label).keeps)
  intro walked _
  apply keeps_ofExcept
  intro outcome houtcome
  unfold infoOutcome at houtcome
  split at houtcome
  · cases houtcome
    rfl
  · split at houtcome
    · cases houtcome
      rfl
    · cases houtcome

end Command

end OntologyGraph
