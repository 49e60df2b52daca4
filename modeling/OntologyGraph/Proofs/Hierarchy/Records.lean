import Mathlib.Data.List.Nodup
import OntologyGraph.Proofs.Hierarchy.Graph
import OntologyGraph.Proofs.Schema.Ascent

/-!
Rows that record a hierarchy. The chain of classes that a walk takes is then a path over the edges
of the hierarchy. Without cycles the chain does not come back, and it has no more classes than
there are.
-/

namespace OntologyGraph

open Schema Store Relation

namespace Hierarchy

variable {N : Type}

def Names (g : Hierarchy N) (label : String) (a : N) : Prop :=
  g.isClass a ∧ g.property a "label" = some label

/-- A label without backticks at its ends, which a read would take away. -/
def Bare (label : String) : Prop :=
  Text.stripBoth (· = '\x60') label.toList = label.toList

instance (label : String) : Decidable (Bare label) :=
  inferInstanceAs (Decidable (_ = _))

/-- Rows that have the label of every parent of a class, once. -/
structure Lists (g : Hierarchy N) (rows : List Row) (a : N) : Prop where
  nodup : (rows.map (·.text "label")).Nodup
  mem_iff : ∀ label, label ∈ rows.map (·.text "label") ↔ ∃ p, g.parent a p ∧ g.Names label p

/-- Reads of classes and of their parents are answered as the hierarchy has it, in any order. -/
structure Recorded (g : Hierarchy N) (answers : Query → List Row) : Prop where
  edge_ends : ∀ a b, g.parent a b → g.isClass a ∧ g.isClass b
  labelled : ∀ a, g.isClass a → ∃ label, Bare label ∧ g.Names label a
  class_rows : ∀ label a, g.Names label a → (answers (aboutClass classQuery label)).length = 1
  parent_rows : ∀ label a, g.Names label a → g.Lists (answers (aboutClass parentQuery label)) a
  check_rows : ∀ label a, g.Names label a →
    g.Lists (answers (aboutClass Subclass.parentsQuery label)) a

def HasAtMost (g : Hierarchy N) (n : Nat) : Prop :=
  ∃ nodes : List N, nodes.length ≤ n ∧ ∀ a, g.isClass a → a ∈ nodes

variable {g : Hierarchy N} {label label' : String} {a b p : N}

/-- A label names one class at most. -/
theorem Names.unique (ha : g.Names label a) (hb : g.Names label b) : a = b :=
  g.label_unique a b label ha.1 hb.1 ha.2 hb.2

/-- A class has one label at most. -/
theorem Names.label_eq (h : g.Names label a) (h' : g.Names label' a) : label = label' :=
  Option.some.inj (h.2.symm.trans h'.2)

/-- The label of a pattern that matches a class names this class. -/
theorem Matches.names {node : NodePattern} (h : g.Matches node a) : g.Names node.label a :=
  ⟨h.1, h.label⟩

theorem Lists.eq_nil_iff {rows : List Row} (h : g.Lists rows a)
    (hnamed : ∀ p, g.parent a p → ∃ label, g.Names label p) :
    rows = [] ↔ ∀ p, ¬ g.parent a p := by
  constructor
  · rintro rfl p hparent
    obtain ⟨label, hlabel⟩ := hnamed p hparent
    exact absurd ((h.mem_iff label).mpr ⟨p, hparent, hlabel⟩) List.not_mem_nil
  · intro hnone
    apply List.map_eq_nil_iff.mp
    apply List.eq_nil_iff_forall_not_mem.mpr
    intro label hmem
    obtain ⟨p, hparent, -⟩ := (h.mem_iff label).mp hmem
    exact hnone p hparent

namespace Recorded

variable {answers : Query → List Row}

/-- A recorded label has nothing around it that is stripped when it is read. -/
theorem bare (h : g.Recorded answers) (hlabel : g.Names label a) : Bare label := by
  obtain ⟨label', hbare, hlabel'⟩ := h.labelled a hlabel.1
  rwa [hlabel.label_eq hlabel']

/-- Every recorded parent has a label. -/
theorem exists_parent_name (h : g.Recorded answers) (hparent : g.parent a p) :
    ∃ label, g.Names label p := by
  obtain ⟨label, -, hlabel⟩ := h.labelled p (h.edge_ends a p hparent).2
  exact ⟨label, hlabel⟩

/-- The labels of the parents are read as they are. -/
theorem parentLabels_eq (h : g.Recorded answers) (hlabel : g.Names label a) :
    parentLabels answers label =
      (answers (aboutClass parentQuery label)).map (·.text "label") := by
  apply List.map_congr_left
  intro row hrow
  obtain ⟨p, -, hname⟩ := ((h.parent_rows label a hlabel).mem_iff _).mp (List.mem_map_of_mem hrow)
  have hbare : Text.stripBoth (· = '\x60') (row.text "label").toList = _ := h.bare hname
  rw [cleanLabel, hbare, String.ofList_toList]

/-- The parent labels a walk reads are the labels of the parents. -/
theorem mem_parentLabels_iff (h : g.Recorded answers) (hlabel : g.Names label a) :
    label' ∈ parentLabels answers label ↔ ∃ p, g.parent a p ∧ g.Names label' p := by
  rw [h.parentLabels_eq hlabel]
  exact (h.parent_rows label a hlabel).mem_iff label'

/-- A walk reads no parent label exactly of a class without parents. -/
theorem parentLabels_eq_nil_iff (h : g.Recorded answers) (hlabel : g.Names label a) :
    parentLabels answers label = [] ↔ ∀ p, ¬ g.parent a p := by
  rw [h.parentLabels_eq hlabel, List.map_eq_nil_iff]
  exact (h.parent_rows label a hlabel).eq_nil_iff fun _ => h.exists_parent_name

/-- A walk reads at most one parent label exactly of a class with one parent at most. -/
theorem parentLabels_length_le_one_iff (h : g.Recorded answers) (hlabel : g.Names label a) :
    (parentLabels answers label).length ≤ 1 ↔ ∀ p q, g.parent a p → g.parent a q → p = q := by
  have hmem (l : String) : l ∈ parentLabels answers label ↔ ∃ p, g.parent a p ∧ g.Names l p :=
    h.mem_parentLabels_iff hlabel
  have hnodup : (parentLabels answers label).Nodup := by
    rw [h.parentLabels_eq hlabel]
    exact (h.parent_rows label a hlabel).nodup
  generalize parentLabels answers label = labels at hmem hnodup
  constructor
  · intro hlength p q hp hq
    obtain ⟨l, hl⟩ := h.exists_parent_name hp
    obtain ⟨l', hl'⟩ := h.exists_parent_name hq
    have hfirst := (hmem l).mpr ⟨p, hp, hl⟩
    have hsecond := (hmem l').mpr ⟨q, hq, hl'⟩
    obtain ⟨first, rfl⟩ := List.length_eq_one_iff.mp
      (Nat.le_antisymm hlength (List.length_pos_of_mem hfirst))
    obtain rfl := List.mem_singleton.mp hfirst
    obtain rfl := List.mem_singleton.mp hsecond
    exact hl.unique hl'
  · intro hone
    match labels with
    | [] => exact Nat.zero_le 1
    | [first] => exact Nat.le_refl 1
    | first :: second :: rest =>
      obtain ⟨p, hp, hl⟩ := (hmem first).mp List.mem_cons_self
      obtain ⟨q, hq, hl'⟩ := (hmem second).mp (List.mem_cons_of_mem first List.mem_cons_self)
      obtain rfl := hone p q hp hq
      have hsame := hl.label_eq hl'
      simp [hsame] at hnodup

theorem exists_next (h : g.Recorded answers) (hlabel : g.Names label a)
    (hnext : nextClass (parentLabels answers) label = some label') :
    ∃ p, g.parent a p ∧ g.Names label' p :=
  (h.mem_parentLabels_iff hlabel).mp (List.min?_eq_some_iff.mp hnext).1

/-- The classes of the chain lie above its first. -/
theorem exists_path (h : g.Recorded answers) (hlabel : g.Names label a) {i : Nat}
    (hclass : classAt (parentLabels answers) label i = some label') :
    ∃ b, g.Names label' b ∧ ReflTransGen g.parent a b := by
  induction i generalizing label' with
  | zero =>
    cases hclass
    exact ⟨a, hlabel, .refl⟩
  | succ i ih =>
    obtain ⟨below, hbelow, hnext⟩ := Option.bind_eq_some_iff.mp hclass
    obtain ⟨b, hb, hpath⟩ := ih hbelow
    obtain ⟨p, hparent, hp⟩ := h.exists_next hb hnext
    exact ⟨p, hp, hpath.tail hparent⟩

end Recorded

end Hierarchy

namespace Hierarchy.Recorded

variable {N : Type} {g : Hierarchy N} {answers : Query → List Row} {label label' : String} {a : N}

/-- Without cycles no class comes twice. -/
theorem classAt_inj (h : g.Recorded answers) (hacyclic : g.Acyclic) (hlabel : g.Names label a)
    {i j : Nat} (hi : classAt (parentLabels answers) label i = some label')
    (hj : classAt (parentLabels answers) label j = some label') : i = j := by
  wlog hlt : i < j generalizing i j
  · rcases Nat.lt_trichotomy i j with h' | h' | h'
    · exact absurd h' hlt
    · exact h'
    · exact (this hj hi h').symm
  obtain ⟨b, hb, -⟩ := h.exists_path hlabel hi
  obtain ⟨k, rfl⟩ := Nat.exists_eq_add_of_lt hlt
  rw [Nat.add_assoc, classAt_add hi] at hj
  obtain ⟨below, hbelow, hnext⟩ := Option.bind_eq_some_iff.mp hj
  obtain ⟨c, hc, hpath⟩ := h.exists_path hb hbelow
  obtain ⟨p, hparent, hp⟩ := h.exists_next hc hnext
  obtain rfl := hp.unique hb
  exact absurd (TransGen.tail' hpath hparent) (hacyclic p)

variable {settings : OntologySettings} {classes : List String}

/-- Every class a walk comes through lies above the class it starts from. -/
theorem exists_path_of_mem (h : g.Recorded answers) (hlabel : g.Names label a)
    (hwalked : Walked (parentLabels answers) label classes) (hmem : label' ∈ classes) :
    ∃ b, g.Names label' b ∧ ReflTransGen g.parent a b := by
  obtain ⟨i, -, hclass⟩ := hwalked.mem_iff.mp hmem
  exact h.exists_path hlabel hclass

/-- A walk through distinct classes is no longer than the graph has classes. -/
theorem length_le (h : g.Recorded answers) (hlabel : g.Names label a)
    (hwalked : Walked (parentLabels answers) label classes) (hdistinct : classes.Nodup) {n : Nat}
    (hmost : g.HasAtMost n) : classes.length ≤ n := by
  obtain ⟨nodes, hlength, hnodes⟩ := hmost
  have hsubset : classes ⊆ nodes.filterMap (g.property · "label") := by
    intro c hc
    obtain ⟨b, hb, -⟩ := h.exists_path_of_mem hlabel hwalked hc
    exact List.mem_filterMap.mpr ⟨b, hnodes b hb.1, hb.2⟩
  have hclasses := hdistinct.length_le_of_subset hsubset
  exact hclasses.trans ((List.length_filterMap_le _ _).trans hlength)

/-- In a hierarchy without cycles, and with no more classes than the greatest depth, a walk ends at
a root, or at a class with several parents where only one is allowed. -/
theorem comes_cases (h : g.Recorded answers) (hacyclic : g.Acyclic)
    (hmost : g.HasAtMost settings.maxLineageDepth) (hlabel : g.Names label a)
    {result : Except OntologyFault (List String)}
    (hcomes : Comes (parentLabels answers) settings label result) :
    (∃ classes root, Ascends (parentLabels answers) settings label (classes ++ [root]) ∧
      parentLabels answers root = [] ∧ result = .ok (classes ++ [root])) ∨
    ∃ classes next, Ascends (parentLabels answers) settings label classes ∧
      classAt (parentLabels answers) label classes.length = some next ∧
      settings.singleInheritance = true ∧ 2 ≤ (parentLabels answers next).length ∧
      result = .error (.multipleFound "parent class" next (parentLabels answers next).length) := by
  have hfresh {classes : List String} {next : String}
      (hwalked : Walked (parentLabels answers) label classes)
      (hnext : classAt (parentLabels answers) label classes.length = some next) :
      next ∉ classes := by
    intro hmem
    obtain ⟨i, hi, hclass⟩ := hwalked.mem_iff.mp hmem
    have hsame := h.classAt_inj hacyclic hlabel hclass hnext
    omega
  cases hcomes with
  | root hascends hroot => exact .inl ⟨_, _, hascends, hroot, rfl⟩
  | back hascends hnext hmem => exact absurd hmem (hfresh hascends.walked hnext)
  | @tooFar classes next hascends hnext hfull =>
    have hwalked := walked_concat_iff.mpr ⟨hascends.walked, hnext⟩
    have hdistinct : (classes ++ [next]).Nodup := by
      rw [← List.concat_eq_append]
      exact List.Nodup.concat (hfresh hascends.walked hnext) hascends.distinct
    have hlength := h.length_le hlabel hwalked hdistinct hmost
    rw [List.length_append, List.length_singleton] at hlength
    omega
  | severalParents hascends hnext _ _ hsingle hseveral =>
    exact .inr ⟨_, _, hascends, hnext, hsingle, hseveral, rfl⟩

end Hierarchy.Recorded

end OntologyGraph
