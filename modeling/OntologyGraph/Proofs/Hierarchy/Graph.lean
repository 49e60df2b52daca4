import Mathlib.Logic.Relation
import OntologyGraph.Proofs.Command.GuardedText

/-!
The classes of a graph and the edges between them, and what a merge of a subclass edge under guards
does to them. The guards alone keep the hierarchy free of cycles and each class with one parent; no
check before the merge is needed for that.
-/

namespace OntologyGraph

open Schema Store Relation

/-- What a graph says of its classes, over nodes of any kind. Labels of classes are unique. -/
structure Hierarchy (N : Type) where
  isClass : N → Prop
  /-- The text that a node holds under a key. -/
  property : N → String → Option String
  /-- An edge from a class to a parent. -/
  parent : N → N → Prop
  label_unique : ∀ a b label, isClass a → isClass b → property a "label" = some label →
    property b "label" = some label → a = b

namespace Hierarchy

variable {N : Type}

def Acyclic (g : Hierarchy N) : Prop :=
  ∀ a, ¬ TransGen g.parent a a

def SingleParent (g : Hierarchy N) : Prop :=
  ∀ a b c, g.parent a b → g.parent a c → b = c

def Matches (g : Hierarchy N) (node : NodePattern) (a : N) : Prop :=
  g.isClass a ∧ ∀ pair ∈ node.pairs, g.property a pair.key.name = some pair.value

def Holds (g : Hierarchy N) (s t : N) : Guard → Prop
  | .noPathBack => ¬ ReflTransGen g.parent t s
  | .noParent => ∀ p, ¬ g.parent s p

/-- Ends that a merge applies to: both match, and every guard holds. -/
structure Eligible (g : Hierarchy N) (merge : GuardedMerge) (s t : N) : Prop where
  subject_matches : g.Matches merge.subject s
  target_matches : g.Matches merge.target t
  guards : ∀ guard ∈ merge.guards, g.Holds s t guard

/-- What a merge does as one step: it sets the edge and gives a row exactly where both ends match
and the guards hold. A merge that fails sets nothing. -/
def Sets (before : Hierarchy N) (merge : GuardedMerge) (answer : Rows) (after : Hierarchy N) :
    Prop :=
  match answer with
  | .ok rows =>
    (rows ≠ [] ↔ ∃ s t, before.Eligible merge s t) ∧
      ∀ s t, after.parent s t ↔ before.parent s t ∨ before.Eligible merge s t
  | .error _ => ∀ s t, after.parent s t ↔ before.parent s t

/-- No parent is new, though some may have gone. -/
def Shrinks (before after : Hierarchy N) : Prop :=
  ∀ s t, after.parent s t → before.parent s t

/-- Every block begins with the label, so nodes that match one pattern have one label. -/
theorem Matches.label {g : Hierarchy N} {node : NodePattern} {a : N} (h : g.Matches node a) :
    g.property a "label" = some node.label := by
  have hmem := TextMap.mem_withFirst node.properties ("label", .text node.label)
  exact h.2 _ (List.mem_map_of_mem hmem)

/-- A pattern matches one node at most. -/
theorem Matches.unique {g : Hierarchy N} {node : NodePattern} {a b : N} (ha : g.Matches node a)
    (hb : g.Matches node b) : a = b :=
  g.label_unique a b node.label ha.1 hb.1 ha.label hb.label

/-- Where the guard against a path back stands, an eligible pair has no path from target to
subject. -/
theorem Eligible.no_path {g : Hierarchy N} {merge : GuardedMerge} {s t : N}
    (h : g.Eligible merge s t) (hguard : .noPathBack ∈ merge.guards) :
    ¬ ReflTransGen g.parent t s :=
  h.guards _ hguard

/-- Where the guard against a parent stands, an eligible subject has none. -/
theorem Eligible.no_parent {g : Hierarchy N} {merge : GuardedMerge} {s t : N}
    (h : g.Eligible merge s t) (hguard : .noParent ∈ merge.guards) (p : N) : ¬ g.parent s p :=
  h.guards _ hguard p

/-- A path over the old edges and one new edge `s` to `t` that nothing leads back over: it either
does without the new edge, or takes it once. -/
private theorem path_with_edge {r : N → N → Prop} {s t : N} (hguard : ¬ ReflTransGen r t s)
    {a b : N} (h : TransGen (fun x y => r x y ∨ (x = s ∧ y = t)) a b) :
    TransGen r a b ∨ (ReflTransGen r a s ∧ ReflTransGen r t b) := by
  induction h with
  | single hab =>
    rcases hab with hab | ⟨rfl, rfl⟩
    · exact .inl (.single hab)
    · exact .inr ⟨.refl, .refl⟩
  | tail _ hbc ih =>
    rcases ih with hpath | ⟨hto, hfrom⟩
    · rcases hbc with hbc | ⟨rfl, rfl⟩
      · exact .inl (hpath.tail hbc)
      · exact .inr ⟨hpath.to_reflTransGen, .refl⟩
    · rcases hbc with hbc | ⟨rfl, rfl⟩
      · exact .inr ⟨hto, hfrom.tail hbc⟩
      · exact absurd hfrom hguard

private theorem acyclic_with_edge {r : N → N → Prop} {s t : N} (hguard : ¬ ReflTransGen r t s)
    (h : ∀ a, ¬ TransGen r a a) (a : N) :
    ¬ TransGen (fun x y => r x y ∨ (x = s ∧ y = t)) a a := by
  intro hcycle
  rcases path_with_edge hguard hcycle with hpath | ⟨hto, hfrom⟩
  · exact h a hpath
  · exact hguard (hfrom.trans hto)

/-- Losing edges makes no cycle. -/
theorem Shrinks.acyclic {before after : Hierarchy N} (h : before.Shrinks after)
    (hbefore : before.Acyclic) : after.Acyclic :=
  fun a hcycle => hbefore a (TransGen.mono h _ _ hcycle)

/-- Losing edges gives no class a second parent. -/
theorem Shrinks.singleParent {before after : Hierarchy N} (h : before.Shrinks after)
    (hbefore : before.SingleParent) : after.SingleParent :=
  fun a b c hab hac => hbefore a b c (h a b hab) (h a c hac)

variable {before after : Hierarchy N} {merge merge' : GuardedMerge} {answer : Rows}

/-- What a merge sets depends on its guards and the blocks of its ends only, as its text has
them. -/
theorem Sets.congr (htext : merge.text = merge'.text) (h : before.Sets merge answer after) :
    before.Sets merge' answer after := by
  obtain ⟨hguards, hsubject, htarget⟩ := GuardedMerge.text_inj htext
  have heligible (s t : N) : before.Eligible merge' s t ↔ before.Eligible merge s t := by
    constructor
    · rintro ⟨hs, ht, hhold⟩
      exact ⟨by rwa [Matches, hsubject], by rwa [Matches, htarget], by rwa [hguards]⟩
    · rintro ⟨hs, ht, hhold⟩
      exact ⟨by rwa [Matches, ← hsubject], by rwa [Matches, ← htarget], by rwa [← hguards]⟩
  cases answer with
  | error fault => exact h
  | ok rows => simpa only [Sets, heligible] using h

/-- A merge can always be answered. -/
theorem exists_sets (before : Hierarchy N) (merge : GuardedMerge) :
    ∃ rows after, before.Sets merge (.ok rows) after := by
  let after : Hierarchy N :=
    { before with parent := fun s t => before.parent s t ∨ before.Eligible merge s t }
  by_cases hends : ∃ s t, before.Eligible merge s t
  · exact ⟨[.empty], after, iff_of_true (List.cons_ne_nil _ _) hends, fun _ _ => Iff.rfl⟩
  · exact ⟨[], after, iff_of_false (not_not_intro rfl) hends, fun _ _ => Iff.rfl⟩

/-- A merge adds nothing, or one edge between ends that it applies to. -/
theorem Sets.shrinks_or_adds (h : before.Sets merge answer after) :
    before.Shrinks after ∨ ∃ s t, before.Eligible merge s t ∧
      ∀ a b, after.parent a b → before.parent a b ∨ (a = s ∧ b = t) := by
  cases answer with
  | error fault => exact .inl fun s t => (h s t).mp
  | ok rows =>
    obtain ⟨-, hparent⟩ := h
    by_cases hends : ∃ s t, before.Eligible merge s t
    · obtain ⟨s, t, heligible⟩ := hends
      refine .inr ⟨s, t, heligible, ?_⟩
      intro a b hab
      rcases (hparent a b).mp hab with hold | hnew
      · exact .inl hold
      · have hs := hnew.subject_matches.unique heligible.subject_matches
        have ht := hnew.target_matches.unique heligible.target_matches
        exact .inr ⟨hs, ht⟩
    · refine .inl fun a b hab => ?_
      rcases (hparent a b).mp hab with hold | hnew
      · exact hold
      · exact absurd ⟨a, b, hnew⟩ hends

/-- The guard against a path back keeps the hierarchy free of cycles. -/
theorem Sets.acyclic (h : before.Sets merge answer after) (hguard : .noPathBack ∈ merge.guards)
    (hbefore : before.Acyclic) : after.Acyclic := by
  rcases h.shrinks_or_adds with hshrinks | ⟨s, t, heligible, hadds⟩
  · exact hshrinks.acyclic hbefore
  · intro a hcycle
    exact acyclic_with_edge (heligible.no_path hguard) hbefore a (TransGen.mono hadds _ _ hcycle)

/-- The guard against a parent keeps every class to one parent. -/
theorem Sets.singleParent (h : before.Sets merge answer after)
    (hguard : .noParent ∈ merge.guards) (hbefore : before.SingleParent) :
    after.SingleParent := by
  rcases h.shrinks_or_adds with hshrinks | ⟨s, t, heligible, hadds⟩
  · exact hshrinks.singleParent hbefore
  intro a b c hab hac
  rcases hadds a b hab with hab | ⟨rfl, rfl⟩ <;> rcases hadds a c hac with hac | ⟨hsame, hc⟩
  · exact hbefore a b c hab hac
  · subst hsame
    exact absurd hab (heligible.no_parent hguard b)
  · exact absurd hac (heligible.no_parent hguard c)
  · exact hc.symm

end Hierarchy

end OntologyGraph
