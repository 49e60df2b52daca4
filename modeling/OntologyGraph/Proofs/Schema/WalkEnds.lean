import OntologyGraph.Proofs.Schema.Lookups

/-!
The ends of walks on any store that replies to a read by its query alone: in a lineage that begins
with the label, in a fault that is about the classes on the way, or in a failure of the store.
-/

namespace OntologyGraph.Schema

open Store Action

variable {replies : Query → Rows}

/-- By induction on the classes left: a walk keeps the classes that it has taken. -/
private theorem prefix_of_walkFrom {single : Bool} {left : Nat} {before lineage : Lineage}
    {label : String} (h : (walkFrom single left before label).endOn replies = .ok lineage) :
    before.classes ++ [label] <+: lineage.classes := by
  induction left generalizing before label with
  | zero => cases h
  | succ left ih =>
    simp only [walkFrom] at h
    split at h
    · cases h
    · obtain ⟨declared, -, h⟩ := endOn_bind_eq_ok_iff.mp h
      obtain ⟨relationships, -, h⟩ := endOn_bind_eq_ok_iff.mp h
      obtain ⟨parent?, -, h⟩ := endOn_bind_eq_ok_iff.mp h
      cases parent? with
      | none =>
        cases h
        exact List.prefix_rfl
      | some parent => exact (List.prefix_append _ [parent]).trans (ih h)

theorem label_of_walk {settings : OntologySettings} {label : String} {lineage : Lineage}
    (h : (walk settings label).endOn replies = .ok lineage) : lineage.label = label := by
  obtain ⟨_, -, h⟩ := endOn_bind_eq_ok_iff.mp h
  obtain ⟨rest, hclasses⟩ := prefix_of_walkFrom h
  rw [Lineage.label, ← hclasses]
  rfl

/-- A walk that ends in a fault tells of the classes or of the store. -/
theorem fault_of_walk {settings : OntologySettings} {label : String} {fault : OntologyFault}
    (h : (walk settings label).endOn replies = .error fault) :
    fault.isLookup = true ∨ ∃ storeFault, fault = .store storeFault := by
  have hrun := Program.runs_trace (.ofReplies replies) (walk settings label).run ()
  change Program.Runs _ _ ((walk settings label).endOn replies) at hrun
  rw [h] at hrun
  cases (walk_lookups settings label).relays _ _ hrun with
  | own _ hlookup => exact .inl hlookup
  | failed _ hstore => exact .inr ⟨_, hstore⟩

end OntologyGraph.Schema
