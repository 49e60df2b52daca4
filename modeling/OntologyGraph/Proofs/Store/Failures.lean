import OntologyGraph.Proofs.Store.Trace

/-!
Failures of the store, and actions that pass them on. Such an action ends at the first request that
fails, in a fault that carries the store's own; without a failure it ends in a value, or in a fault
that is about what it has read.
-/

namespace OntologyGraph.Store

def Event.failure? : Event → Option StoreFault
  | .fetch _ (.error fault) | .execute _ (.error fault) => some fault
  | .fetch _ (.ok _) | .execute _ (.ok _) => none

def Answered (log : List Event) : Prop :=
  ∀ event ∈ log, event.failure? = none

def FailsLast (log : List Event) (fault : StoreFault) : Prop :=
  ∃ before event, log = before ++ [event] ∧ Answered before ∧ event.failure? = some fault

theorem answered_nil : Answered [] :=
  fun _ hevent => absurd hevent List.not_mem_nil

theorem answered_singleton {event : Event} (h : event.failure? = none) : Answered [event] :=
  List.forall_mem_singleton.mpr h

theorem Answered.append {log log' : List Event} (h : Answered log) (h' : Answered log') :
    Answered (log ++ log') :=
  List.forall_mem_append.mpr ⟨h, h'⟩

theorem failsLast_singleton {event : Event} {fault : StoreFault} (h : event.failure? = some fault) :
    FailsLast [event] fault :=
  ⟨[], event, rfl, answered_nil, h⟩

/-- A failure behind calls that were answered is still the last call and the only failure. -/
theorem Answered.append_failsLast {log log' : List Event} {fault : StoreFault} (h : Answered log)
    (h' : FailsLast log' fault) : FailsLast (log ++ log') fault := by
  obtain ⟨before, event, rfl, hbefore, hfailure⟩ := h'
  exact ⟨log ++ before, event, (List.append_assoc ..).symm, h.append hbefore, hfailure⟩

/-- A run that fails last has no other failure, so wherever one is found it is that one. -/
theorem FailsLast.of_failure {log before after : List Event} {event : Event}
    {fault fault' : StoreFault} (h : FailsLast log fault) (hlog : log = before ++ event :: after)
    (hfailure : event.failure? = some fault') : after = [] ∧ fault' = fault := by
  obtain ⟨answered, last, rfl, hanswered, hlast⟩ := h
  rcases List.eq_nil_or_concat after with rfl | ⟨after, last', rfl⟩
  · obtain ⟨-, hsame⟩ := List.append_inj' hlog rfl
    cases hsame
    rw [hlast] at hfailure
    exact ⟨rfl, (Option.some.inj hfailure).symm⟩
  · have hsplit : answered ++ [last] = (before ++ event :: after) ++ [last'] := by
      rw [hlog, List.concat_eq_append, List.append_assoc, List.cons_append]
    obtain ⟨rfl, -⟩ := List.append_inj' hsplit rfl
    rw [hanswered event (by simp)] at hfailure
    cases hfailure

namespace Action

variable {ε ε' α β : Type}

/-- The end of a run, by whether the store failed. -/
inductive Ending (own : ε → Prop) (carries : ε → StoreFault → Prop) :
    List Event → Except ε α → Prop where
  | value {log : List Event} (value : α) : Answered log → Ending own carries log (.ok value)
  | own {log : List Event} {fault : ε} :
      Answered log → own fault → Ending own carries log (.error fault)
  | failed {log : List Event} {fault : ε} {storeFault : StoreFault} :
      FailsLast log storeFault → carries fault storeFault →
      Ending own carries log (.error fault)

/-- Every run ends as soon as the store fails, and tells of it. -/
def Relays (own : ε → Prop) (carries : ε → StoreFault → Prop) (action : Action ε α) : Prop :=
  ∀ log result, action.Runs log result → Ending own carries log result

variable {own : ε → Prop} {carries : ε → StoreFault → Prop}

theorem relays_pure (value : α) : Relays own carries (pure value : Action ε α) := by
  intro log result hrun
  obtain ⟨rfl, rfl⟩ := runs_pure_iff.mp hrun
  exact .value value answered_nil

theorem relays_ofExcept {x : Except ε α} (h : ∀ fault, x = .error fault → own fault) :
    Relays own carries (ofExcept x) := by
  intro log result hrun
  obtain ⟨rfl, rfl⟩ := runs_ofExcept_iff.mp hrun
  cases result with
  | ok value => exact .value value answered_nil
  | error fault => exact .own answered_nil (h fault rfl)

theorem relays_stamp : Relays own carries (stamp : Action ε Stamp) := by
  intro log result hrun
  obtain ⟨rfl, drawn, rfl⟩ := runs_stamp_iff.mp hrun
  exact .value drawn answered_nil

/-- A read that fails ends the action with the failure it wraps. -/
theorem relays_fetch {wrap : StoreFault → ε} (h : ∀ fault, carries (wrap fault) fault)
    (query : Query) : Relays own carries (fetch wrap query : Action ε (List Row)) := by
  intro log result hrun
  obtain ⟨rows, rfl, rfl⟩ := runs_fetch_iff.mp hrun
  cases rows with
  | ok rows => exact .value rows (answered_singleton rfl)
  | error fault => exact .failed (failsLast_singleton rfl) (h fault)

/-- A write that fails ends the action with the failure it wraps. -/
theorem relays_execute {wrap : StoreFault → ε} (h : ∀ fault, carries (wrap fault) fault)
    (query : Query) : Relays own carries (execute wrap query : Action ε Unit) := by
  intro log result hrun
  obtain ⟨written, rfl, rfl⟩ := runs_execute_iff.mp hrun
  cases written with
  | ok _ => exact .value () (answered_singleton rfl)
  | error fault => exact .failed (failsLast_singleton rfl) (h fault)

/-- An action after another relays failures if both do: the second runs only if the first has not
failed. -/
theorem relays_bind {action : Action ε α} {f : α → Action ε β} (h : Relays own carries action)
    (hf : ∀ value, Relays own carries (f value)) : Relays own carries (action >>= f) := by
  intro log result hrun
  rcases runs_bind_iff.mp hrun with ⟨fault, rfl, hfirst⟩ |
    ⟨value, before, after, rfl, hfirst, hsecond⟩
  · cases h log _ hfirst with
    | own hanswered hown => exact .own hanswered hown
    | failed hlast hcarries => exact .failed hlast hcarries
  · cases h before _ hfirst with
    | value _ hbefore =>
      cases hf value after result hsecond with
      | value value' hafter => exact .value value' (hbefore.append hafter)
      | own hafter hown => exact .own (hbefore.append hafter) hown
      | failed hlast hcarries => exact .failed (hbefore.append_failsLast hlast) hcarries

/-- An action may make a value of a fault that another ends in, if that fault is not the store's. -/
theorem relays_recover {own' : ε' → Prop} {carries' : ε' → StoreFault → Prop}
    {action : Action ε α} {f : Except ε α → Except ε' β} (h : Relays own carries action)
    (hvalue : ∀ value, ∃ b, f (.ok value) = .ok b)
    (hown : ∀ fault, own fault → ∃ b, f (.error fault) = .ok b)
    (hcarries : ∀ fault storeFault, carries fault storeFault →
      ∃ fault', f (.error fault) = .error fault' ∧ carries' fault' storeFault) :
    Relays own' carries' (do ofExcept (f (← attempt action)) : Action ε' β) := by
  intro log result hrun
  rcases runs_bind_iff.mp hrun with ⟨fault, rfl, hattempt⟩ |
    ⟨inner, before, after, rfl, hattempt, hend⟩
  · obtain ⟨inner, hinner, -⟩ := runs_attempt_iff.mp hattempt
    cases hinner
  · obtain ⟨_, hsame, hinner⟩ := runs_attempt_iff.mp hattempt
    cases hsame
    obtain ⟨rfl, rfl⟩ := runs_ofExcept_iff.mp hend
    rw [List.append_nil]
    cases h before inner hinner with
    | value value hanswered =>
      obtain ⟨b, hb⟩ := hvalue value
      rw [hb]
      exact .value b hanswered
    | own hanswered hfault =>
      obtain ⟨b, hb⟩ := hown _ hfault
      rw [hb]
      exact .value b hanswered
    | failed hlast hfault =>
      obtain ⟨fault', hfault', hcarried⟩ := hcarries _ _ hfault
      rw [hfault']
      exact .failed hlast hcarried

end Action

end OntologyGraph.Store
