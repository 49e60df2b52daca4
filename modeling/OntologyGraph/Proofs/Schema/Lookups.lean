import OntologyGraph.Proofs.Command.Requests
import OntologyGraph.Proofs.Store.Failures
import OntologyGraph.Proofs.Store.Repeating

/-!
What a walk is made of: reads about classes, one after the other, and faults that tell what the
reads have found. From that alone follows what holds of every run of a walk: it reads by the texts
of lookups and not too often, it passes the failures of the store on, and it ends alike on stores
that reply alike.
-/

namespace OntologyGraph

open Schema Store Action

def IsLookup (event : Event) : Prop :=
  ∃ text ∈ lookupTexts, ∃ label rows, event = .fetch (aboutClass text label) rows

namespace Schema

/-- An action that is put together from at most `n` reads about classes. A fault in which it ends by
itself describes what the graph holds. -/
inductive Lookups : {α : Type} → Nat → SchemaAction α → Prop where
  | ofExcept {α : Type} {x : Except OntologyFault α} :
      (∀ fault, x = .error fault → fault.isLookup = true) → Lookups 0 (Action.ofExcept x)
  | ask {text : String} (label : String) : text ∈ lookupTexts → Lookups 1 (ask text label)
  | bind {α β : Type} {m n : Nat} {action : SchemaAction α} {f : α → SchemaAction β} :
      Lookups m action → (∀ value, Lookups n (f value)) → Lookups (m + n) (action >>= f)
  | weaken {α : Type} {m n : Nat} {action : SchemaAction α} :
      Lookups m action → m ≤ n → Lookups n action

namespace Lookups

variable {α : Type} {n : Nat} {action : SchemaAction α}

theorem pure (value : α) : Lookups 0 (pure value : SchemaAction α) :=
  .ofExcept (x := .ok value) nofun

theorem throw {fault : OntologyFault} (h : fault.isLookup = true) :
    Lookups 0 (throw fault : SchemaAction α) := by
  refine .ofExcept (x := .error fault) ?_
  rintro _ ⟨⟩
  exact h

/-- The requests of such an action are lookups. -/
theorem keeps (h : Lookups n action) : Keeps IsLookup (fun _ => True) action := by
  induction h with
  | ofExcept _ => exact keeps_ofExcept fun _ _ => trivial
  | ask label htext => exact keeps_fetch fun rows => ⟨_, htext, label, rows, rfl⟩
  | bind _ _ ih ihf => exact keeps_bind ih fun value _ => ihf value
  | weaken _ _ ih => exact ih

/-- A program of so many lookups sends no more requests than that. -/
theorem few_requests (h : Lookups n action) : AtMost n action := by
  induction h with
  | ofExcept _ => exact atMost_ofExcept _
  | ask label _ => exact atMost_fetch _ _
  | bind _ _ ih ihf => exact atMost_bind ih ihf
  | weaken _ hle ih => exact ih.mono hle

/-- Only a failure of the store can end it in a fault that describes nothing of the graph. -/
theorem relays (h : Lookups n action) :
    Relays (fun fault => fault.isLookup = true) (fun fault storeFault => fault = .store storeFault)
      action := by
  induction h with
  | ofExcept hown => exact relays_ofExcept hown
  | ask label _ =>
    apply relays_fetch
    intro storeFault
    rfl
  | bind _ _ ih ihf => exact relays_bind ih ihf
  | weaken _ _ ih => exact ih

/-- A program of lookups writes nothing and draws no stamp. -/
theorem readOnly (h : Lookups n action) : ReadOnly action := by
  induction h with
  | ofExcept _ => exact readOnly_ofExcept _
  | ask label _ => exact readOnly_fetch _ _
  | bind _ _ ih ihf => exact readOnly_bind ih ihf
  | weaken _ _ ih => exact ih

end Lookups

private theorem resolve_lookups (label : String) : Lookups 1 (resolve label) := by
  refine .bind (n := 0) (.ask label (by simp [lookupTexts])) ?_
  intro rows
  split
  · exact .throw rfl
  · exact .pure ()
  · exact .throw rfl

private theorem rulesOf_lookups (label : String) : Lookups 1 (rulesOf label) :=
  .bind (.ask label (by simp [lookupTexts])) fun _ => .pure _

private theorem relationshipsOf_lookups (label : String) : Lookups 2 (relationshipsOf label) :=
  .bind (.ask label (by simp [lookupTexts])) fun _ =>
    .bind (.ask label (by simp [lookupTexts])) fun _ => .pure _

private theorem chooseParent_isLookup {single : Bool} {label : String} {parents : List String}
    {fault : OntologyFault} (h : chooseParent single label parents = .error fault) :
    fault.isLookup = true := by
  unfold chooseParent at h
  split at h
  · cases h
  · cases h
  · split at h
    · cases h
      rfl
    · cases h

private theorem parentOf_lookups (single : Bool) (label : String) :
    Lookups 1 (parentOf single label) :=
  .bind (.ask label (by simp [lookupTexts] : parentQuery ∈ lookupTexts)) fun _ =>
    .ofExcept fun _ => chooseParent_isLookup

/-- Four lookups for each class that the walk may still take, by induction on those classes. -/
theorem walkFrom_lookups (single : Bool) (left : Nat) (before : Lineage) (label : String) :
    Lookups (4 * left) (walkFrom single left before label) := by
  induction left generalizing before label with
  | zero => exact .throw rfl
  | succ left ih =>
    rw [walkFrom]
    split
    · exact .weaken (.throw rfl) (Nat.zero_le _)
    · have hclass : 1 + (2 + (1 + 4 * left)) ≤ 4 * (left + 1) := by omega
      refine .weaken (.bind (rulesOf_lookups label) fun declared => ?_) hclass
      refine .bind (relationshipsOf_lookups label) fun relationships => ?_
      refine .bind (parentOf_lookups single label) ?_
      rintro (_ | parent)
      · exact .weaken (.pure _) (Nat.zero_le _)
      · exact ih _ parent

/-- A walk is made of lookups: one for the class it starts from, and at most four for each class its
limit lets it come through. -/
theorem walk_lookups (settings : OntologySettings) (label : String) :
    Lookups (1 + 4 * settings.maxLineageDepth) (walk settings label) :=
  .bind (resolve_lookups label) fun _ => walkFrom_lookups _ _ _ label

end Schema

end OntologyGraph
