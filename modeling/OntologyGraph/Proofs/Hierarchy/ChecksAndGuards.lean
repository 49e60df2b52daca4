import OntologyGraph.Proofs.Hierarchy.Served

/-!
The checks of a subclass edge beside the guards of its write. The guards ask for every path from
the target; the checks walk from the target and follow one parent of each class, or none where
there are several and only one is allowed. So the checks object to nothing that the guards let
pass, but they miss a subject that lies above the target off the walk.
-/

namespace OntologyGraph

open Schema Store Relation

namespace Hierarchy

variable {N : Type} {g : Hierarchy N} {single : Bool} {s t a p : N}

/-- A walk goes on from a class to a parent: to the one with the least label, and where only one
parent is allowed to none of several. -/
structure Follows (g : Hierarchy N) (single : Bool) (a p : N) : Prop where
  parent : g.parent a p
  least : ∀ q label label', g.parent a q → g.Names label p → g.Names label' q → label ≤ label'
  only : single = true → ∀ q, g.parent a q → q = p

private theorem path_of_follows (h : ReflTransGen (g.Follows single) t s) :
    ReflTransGen g.parent t s :=
  ReflTransGen.mono (fun _ _ hfollows => hfollows.parent) _ _ h

/-- The guards of a subclass write hold exactly if no path leads back and, under single
inheritance, the subject has no parent. -/
theorem guardsHold_iff :
    g.GuardsHold single s t ↔
      ¬ ReflTransGen g.parent t s ∧ (single = true → ∀ p, ¬ g.parent s p) := by
  simp [GuardsHold, Guard.text_mem_guards_iff, or_imp, forall_and, Holds]

/-- Where no class has several parents a walk follows every edge. -/
theorem follows_of_path
    (hone : ∀ a p q, ReflTransGen g.parent t a → g.parent a p → g.parent a q → p = q)
    (hpath : ReflTransGen g.parent t s) : ReflTransGen (g.Follows single) t s := by
  induction hpath with
  | refl => exact .refl
  | @tail a p hbelow hparent ih =>
    refine ih.tail ⟨hparent, ?_, fun _ q hq => hone a q p hbelow hq hparent⟩
    intro q l l' hq hl hl'
    obtain rfl := hone a p q hbelow hparent hq
    rw [hl.label_eq hl']

inductive Checked (g : Hierarchy N) (single : Bool) (subject target : String) (s t : N) :
    Option Outcome → Prop where
  | same : s = t → Checked g single subject target s t (some (.wouldCycle subject target))
  | secondParent {p : N} {parent : String} : s ≠ t → single = true → g.parent s p →
      g.Names parent p →
      Checked g single subject target s t (some (.multipleParents subject parent))
  | met : s ≠ t → (single = true → ∀ p, ¬ g.parent s p) →
      ReflTransGen (g.Follows single) t s →
      Checked g single subject target s t (some (.wouldCycle subject target))
  | passed : (single = true → ∀ p, ¬ g.parent s p) → ¬ ReflTransGen (g.Follows single) t s →
      Checked g single subject target s t none

variable {subject target : String} {objection : Option Outcome}

/-- The checks object to nothing exactly if the subject is free to take a parent and the one chain
of parents they follow does not reach it. -/
theorem Checked.eq_none_iff (h : g.Checked single subject target s t objection) :
    objection = none ↔
      (single = true → ∀ p, ¬ g.parent s p) ∧ ¬ ReflTransGen (g.Follows single) t s := by
  cases h with
  | same hsame => exact iff_of_false nofun fun hmissed => hmissed.2 (hsame ▸ .refl)
  | @secondParent p _ _ hsingle hparent =>
    exact iff_of_false nofun fun hmissed => hmissed.1 hsingle p hparent
  | met _ _ hreaches => exact iff_of_false nofun fun hmissed => hmissed.2 hreaches
  | passed hfree hmissed => exact iff_of_true rfl ⟨hfree, hmissed⟩

/-- What the checks object with is neither a write nor the answer for missing nodes. -/
theorem Checked.isWrite {outcome : Outcome}
    (h : g.Checked single subject target s t (some outcome)) :
    outcome.isWrite = false ∧ outcome ≠ .incorrectNodes := by
  cases h <;> exact ⟨rfl, nofun⟩

namespace Recorded

variable {answers : Query → List Row} {label label' : String}

/-- Where a walk goes on, it goes to a parent the checks may follow. -/
theorem follows_of_next (h : g.Recorded answers) (hlabel : g.Names label a)
    (hnext : nextClass (parentLabels answers) label = some label')
    (hone : single = true → (parentLabels answers label).length ≤ 1) :
    ∃ p, g.Follows single a p ∧ g.Names label' p := by
  obtain ⟨p, hparent, hp⟩ := h.exists_next hlabel hnext
  refine ⟨p, ⟨hparent, ?_, ?_⟩, hp⟩
  · intro q l l' hq hl hl'
    obtain rfl := hp.label_eq hl
    exact (List.min?_eq_some_iff.mp hnext).2 l' ((h.mem_parentLabels_iff hlabel).mpr ⟨q, hq, hl'⟩)
  · intro hsingle q hq
    exact (h.parentLabels_length_le_one_iff hlabel).mp (hone hsingle) q p hq hparent

/-- A class the checks may follow is the next one of a walk. -/
theorem next_of_follows (h : g.Recorded answers) (hlabel : g.Names label a)
    (hfollows : g.Follows single a p) :
    ∃ label', nextClass (parentLabels answers) label = some label' ∧ g.Names label' p := by
  obtain ⟨l, hl⟩ := h.exists_parent_name hfollows.parent
  refine ⟨l, List.min?_eq_some_iff.mpr ⟨?_, ?_⟩, hl⟩
  · exact (h.mem_parentLabels_iff hlabel).mpr ⟨p, hfollows.parent, hl⟩
  · intro l' hl'
    obtain ⟨q, hq, hname⟩ := (h.mem_parentLabels_iff hlabel).mp hl'
    exact hfollows.least q l l' hq hl hname

/-- Under single inheritance the checks follow no class that has two parents. -/
theorem length_le_one_of_follows (h : g.Recorded answers) (hlabel : g.Names label a)
    (hfollows : g.Follows true a p) : (parentLabels answers label).length ≤ 1 := by
  apply (h.parentLabels_length_le_one_iff hlabel).mpr
  intro q r hq hr
  rw [hfollows.only rfl q hq, hfollows.only rfl r hr]

variable {settings : OntologySettings} {classes : List String} {next : String}

/-- Every class that a walk takes is one that the walk comes to in the hierarchy. By induction on
the place of the class, since the walk follows it from the class before. -/
theorem reaches_of_mem (h : g.Recorded answers) (ht : g.Names label t) (hs : g.Names label' s)
    (hascends : Ascends (parentLabels answers) settings label classes) (hmem : label' ∈ classes) :
    ReflTransGen (g.Follows settings.singleInheritance) t s := by
  obtain ⟨i, hi, hclass⟩ := hascends.walked.mem_iff.mp hmem
  clear hmem
  induction i generalizing label' s with
  | zero =>
    cases hclass
    rw [ht.unique hs]
  | succ i ih =>
    obtain ⟨below, hbelow, hnext⟩ := Option.bind_eq_some_iff.mp hclass
    have hlt : i < classes.length := by omega
    have hmem : below ∈ classes := hascends.walked.mem_iff.mpr ⟨i, hlt, hbelow⟩
    obtain ⟨b, hb, -⟩ := h.exists_path ht hbelow
    obtain ⟨p, hfollows, hp⟩ :=
      h.follows_of_next hb hnext fun hsingle => hascends.single hsingle below hmem
    obtain rfl := hp.unique hs
    exact (ih hb hlt hbelow).tail hfollows

/-- Where the walk follows no parent of `next`, it comes to no class but those up to there. -/
theorem mem_of_reaches (h : g.Recorded answers) (ht : g.Names label t) (hs : g.Names label' s)
    (hwalked : Walked (parentLabels answers) label (classes ++ [next]))
    (hstop : ∀ b p, g.Names next b → ¬ g.Follows single b p)
    (hreaches : ReflTransGen (g.Follows single) t s) : label' ∈ classes ++ [next] := by
  induction hreaches generalizing label' with
  | refl =>
    rw [hs.label_eq ht]
    exact hwalked.mem_iff.mpr ⟨0, by simp, rfl⟩
  | @tail b p _ hfollows ih =>
    obtain ⟨l, -, hl⟩ := h.labelled b (h.edge_ends b p hfollows.parent).1
    obtain ⟨l', hnext, hl'⟩ := h.next_of_follows hl hfollows
    obtain rfl := hs.label_eq hl'
    obtain ⟨i, hi, hclass⟩ := hwalked.mem_iff.mp (ih hl)
    have hlast : i ≠ classes.length := by
      rintro rfl
      rw [(walked_concat_iff.mp hwalked).2] at hclass
      cases hclass
      exact hstop b p hl hfollows
    refine hwalked.mem_iff.mpr ⟨i + 1, ?_, ?_⟩
    · rw [List.length_append, List.length_singleton] at hi ⊢
      omega
    · rw [classAt, hclass]
      exact hnext

/-- A walk that ends at a class with several parents has met no class without parents. -/
theorem not_reaches_of_several (h : g.Recorded answers) (hs : g.Names subject s)
    (ht : g.Names target t) (hwalked : Walked (parentLabels answers) target (classes ++ [next]))
    (hseveral : 2 ≤ (parentLabels answers next).length) (hfree : ∀ p, ¬ g.parent s p) :
    ¬ ReflTransGen (g.Follows true) t s := by
  intro hreaches
  have hnone : parentLabels answers subject = [] := (h.parentLabels_eq_nil_iff hs).mpr hfree
  have hstop (b p : N) (hb : g.Names next b) : ¬ g.Follows true b p := by
    intro hfollows
    have hone := h.length_le_one_of_follows hb hfollows
    omega
  have hmem := h.mem_of_reaches ht hs hwalked hstop hreaches
  rw [← hwalked.eq_last hmem hnone, hnone, List.length_nil] at hseveral
  omega

/-- What the check above the target finds is what its chain of parents holds. -/
theorem cycleObjection_checked (h : g.Recorded answers) (hacyclic : g.Acyclic)
    (hmost : g.HasAtMost settings.maxLineageDepth) (hs : g.Names subject s)
    (ht : g.Names target t) (hne : s ≠ t)
    (hfree : settings.singleInheritance = true → ∀ p, ¬ g.parent s p) :
    ∃ objection, Command.cycleObjection subject target (lineageOf answers settings target) =
      .ok objection ∧ Checked g settings.singleInheritance subject target s t objection := by
  have hcomes : Comes (parentLabels answers) settings target _ :=
    lineageOf_comes (h.class_rows target t ht)
  rcases h.comes_cases hacyclic hmost ht hcomes with
    ⟨classes, root, hascends, hroot, hresult⟩ |
    ⟨classes, next, hascends, hnext, hsingle, hseveral, hresult⟩
  · obtain ⟨lineage, hlineage, hclasses⟩ := Except.map_eq_ok_iff.mp hresult
    rw [hlineage, Command.cycleObjection, Lineage.descendsFrom, hclasses]
    refine ⟨_, rfl, ?_⟩
    split
    · next hmem =>
      exact .met hne hfree (h.reaches_of_mem ht hs hascends (List.contains_iff_mem.mp hmem))
    · next hmem =>
      refine .passed hfree fun hreaches => hmem (List.contains_iff_mem.mpr ?_)
      refine h.mem_of_reaches ht hs hascends.walked (fun b p hb hfollows => ?_) hreaches
      exact (h.parentLabels_eq_nil_iff hb).mp hroot p hfollows.parent
  · have hwalked := walked_concat_iff.mpr ⟨hascends.walked, hnext⟩
    cases hlineage : lineageOf answers settings target with
    | ok lineage =>
      rw [hlineage] at hresult
      cases hresult
    | error fault =>
      rw [hlineage] at hresult
      cases hresult
      refine ⟨none, rfl, .passed hfree ?_⟩
      rw [hsingle]
      exact h.not_reaches_of_several hs ht hwalked hseveral (hfree hsingle)

/-- What the checks find in the rows is what the recorded graph holds. -/
theorem objectionOf_checked (h : g.Recorded answers) (hacyclic : g.Acyclic)
    (hmost : g.HasAtMost settings.maxLineageDepth) (hs : g.Names subject s)
    (ht : g.Names target t) (hunset : ¬ g.parent s t) :
    ∃ objection, Command.objectionOf answers settings subject target = .ok objection ∧
      Checked g settings.singleInheritance subject target s t objection := by
  unfold Command.objectionOf
  split
  · next hsame =>
    subst hsame
    exact ⟨_, rfl, .same (hs.unique ht)⟩
  next hlabels =>
  have hne : s ≠ t := by
    rintro rfl
    exact hlabels (hs.label_eq ht)
  by_cases hsingle : settings.singleInheritance = true
  · rw [if_pos hsingle]
    have hrows := h.check_rows subject s hs
    have hnil := hrows.eq_nil_iff fun _ => h.exists_parent_name
    generalize answers (aboutClass Subclass.parentsQuery subject) = rows at hrows hnil
    cases rows with
    | nil => exact h.cycleObjection_checked hacyclic hmost hs ht hne fun _ => hnil.mp rfl
    | cons row rows =>
      -- The edge to the target is not set, so the parent in the row is another class.
      obtain ⟨p, hparent, hp⟩ := (hrows.mem_iff (row.text "label")).mp List.mem_cons_self
      have hother : row.text "label" ≠ target := by
        intro hlabel
        rw [hlabel] at hp
        exact hunset (hp.unique ht ▸ hparent)
      have hfirst : Command.otherParent? subject target (row :: rows) =
          some (.multipleParents subject (row.text "label")) := by
        simp [Command.otherParent?, hother]
      rw [hfirst]
      exact ⟨_, rfl, .secondParent hne hsingle hparent hp⟩
  · rw [if_neg hsingle]
    exact h.cycleObjection_checked hacyclic hmost hs ht hne fun hone => absurd hone hsingle

end Recorded

end Hierarchy

/-- How the checks of an edge from `s` to `t`, and the whole command, compare with the guards of the
write. -/
structure Compared {N : Type} (g : Hierarchy N) (single : Bool) (subject target : String)
    (s t : N) (check : Except CommandFault (Option Outcome))
    (result : Except CommandFault Outcome) : Prop where
  /-- The checks object to a second parent where one is allowed, and to a subject on the walk. -/
  unobjected_iff : check = .ok none ↔
    (single = true → ∀ p, ¬ g.parent s p) ∧ ¬ ReflTransGen (g.Follows single) t s
  /-- What they object to is reported. -/
  reported : ∀ objection, check = .ok objection →
    g.Checked single subject target s t objection ∧
      ∀ outcome, objection = some outcome → result = .ok outcome
  /-- They object to nothing that the guards let pass. -/
  guarded : g.GuardsHold single s t → check = .ok none
  /-- Where no class from the target upward has several parents, they miss nothing. -/
  agree : (∀ a p q, ReflTransGen g.parent t a → g.parent a p → g.parent a q → p = q) →
    check = .ok none → g.GuardsHold single s t
  connected_iff : result = .ok (.connected subject subclassEdge target) ↔
    g.GuardsHold single s t
  /-- What they miss is a subject above the target that is not on the walk. -/
  incorrectNodes_iff : result = .ok .incorrectNodes ↔
    (single = true → ∀ p, ¬ g.parent s p) ∧ ReflTransGen g.parent t s ∧
      ¬ ReflTransGen (g.Follows single) t s

section Comparison

variable {N : Type} {g : Hierarchy N} {single : Bool} {s t : N} {subject target : String}
  {objection : Option Outcome} {result : Except CommandFault Outcome}

/-- An objection is the end of the command, and without one the guards decide. -/
theorem Hierarchy.Checked.compared (h : g.Checked single subject target s t objection)
    (hobjected : ∀ outcome, objection = some outcome → result = .ok outcome)
    (hset : objection = none → g.GuardsHold single s t →
      result = .ok (.connected subject subclassEdge target))
    (hrefused : objection = none → ¬ g.GuardsHold single s t →
      result = .ok .incorrectNodes) :
    Compared g single subject target s t (.ok objection) result := by
  have hnone := h.eq_none_iff
  have hguards : g.GuardsHold single s t ↔ _ := Hierarchy.guardsHold_iff
  have hpassed (hhold : g.GuardsHold single s t) : objection = none := by
    obtain ⟨hpath, hfree⟩ := hguards.mp hhold
    exact hnone.mpr ⟨hfree, fun hreaches => hpath (Hierarchy.path_of_follows hreaches)⟩
  constructor
  case unobjected_iff => rw [Except.ok.injEq, hnone]
  case reported =>
    rintro _ ⟨⟩
    exact ⟨h, hobjected⟩
  case guarded => exact fun hhold => congrArg _ (hpassed hhold)
  case agree =>
    rintro hone ⟨⟩
    obtain ⟨hfree, hmissed⟩ := hnone.mp rfl
    exact hguards.mpr ⟨fun hpath => hmissed (Hierarchy.follows_of_path hone hpath), hfree⟩
  case connected_iff =>
    refine ⟨fun hresult => ?_, fun hhold => hset (hpassed hhold) hhold⟩
    cases objection with
    | some outcome =>
      cases (hobjected outcome rfl).symm.trans hresult
      cases h.isWrite.1
    | none =>
      by_contra hhold
      cases (hrefused rfl hhold).symm.trans hresult
  case incorrectNodes_iff =>
    constructor
    · intro hresult
      cases objection with
      | some outcome =>
        cases (hobjected outcome rfl).symm.trans hresult
        exact absurd rfl h.isWrite.2
      | none =>
        -- No objection and no edge: the guards see a path that the checks do not follow.
        obtain ⟨hfree, hmissed⟩ := hnone.mp rfl
        refine ⟨hfree, ?_, hmissed⟩
        by_contra hpath
        cases (hset rfl (hguards.mpr ⟨hpath, hfree⟩)).symm.trans hresult
    · rintro ⟨hfree, hpath, hmissed⟩
      exact hrefused (hnone.mpr ⟨hfree, hmissed⟩) fun hhold => (hguards.mp hhold).1 hpath

end Comparison

/-- On a store that serves one command only, in a hierarchy without cycles and with no more classes
than the greatest depth, the checks let pass what the guards let pass, and besides it just a subject
that lies above the target off the walk. -/
theorem Serves.checks_beside_guards {σ N : Type} {backend : Backend σ} {settings : OntologySettings}
    {subject target : NodePattern} {view : σ → Snapshot N} {state : σ} {s t : N}
    (h : Serves backend subject target view) (hacyclic : (view state).graph.Acyclic)
    (hmost : (view state).graph.HasAtMost settings.maxLineageDepth)
    (hs : (view state).graph.Matches subject s) (ht : (view state).graph.Matches target t)
    (hunset : ¬ (view state).graph.parent s t) :
    Compared (view state).graph settings.singleInheritance subject.label target.label s t
      ((Command.objection? settings subject.label target.label).run.run backend state).1
      (((Command.connect .setSubclass subject target).run settings).run.run backend state).1 := by
  obtain ⟨objection, hobjection, hchecked⟩ :=
    (view state).recorded.objectionOf_checked hacyclic hmost hs.names ht.names hunset
  rw [(h.run_check settings state).1, hobjection]
  apply hchecked.compared
  · rintro outcome rfl
    exact h.run_of_objection hs ht hunset hobjection
  · rintro rfl hhold
    exact (h.run_of_none hs ht hunset hobjection).1 hhold
  · rintro rfl hrefused
    exact (h.run_of_none hs ht hunset hobjection).2 hrefused

/-- `T` has the parents `A` and `S`, and a walk from it goes on to `A`. -/
def twoParents (a b : String) : Bool :=
  a == "T" && (b == "A" || b == "S")

private theorem twoParents_ends {a b : String}
    (h : (classGraph threeClasses twoParents).parent a b) :
    a = "T" ∧ b ≠ "T" := by
  have hedge : twoParents a b = true := h.2.2
  simp only [twoParents, Bool.and_eq_true, Bool.or_eq_true, beq_iff_eq] at hedge
  obtain ⟨rfl, rfl | rfl⟩ := hedge <;> simp

private theorem twoParents_acyclic : (classGraph threeClasses twoParents).Acyclic := by
  intro a hcycle
  obtain ⟨b, hfirst, -⟩ := TransGen.head'_iff.mp hcycle
  obtain ⟨c, -, hlast⟩ := TransGen.tail'_iff.mp hcycle
  exact (twoParents_ends hlast).2 (twoParents_ends hfirst).1

private theorem threeClasses_atMost (edges : String → String → Bool) :
    (classGraph threeClasses edges).HasAtMost 3 :=
  ⟨threeClasses.all, Nat.le_refl 3, fun _ ha => ha⟩

private theorem twoParents_path :
    ReflTransGen (classGraph threeClasses twoParents).parent "T" "S" :=
  .single ⟨by simp, by simp, rfl⟩

/-- The comparison where `T` has two parents. -/
theorem checks_beside_guards_twoParents :
    let settings : OntologySettings := { singleInheritance := false, maxLineageDepth := 3 }
    let store := classStore threeClasses "S" "T"
    Compared (classGraph threeClasses twoParents) false "S" "T" "S" "T"
      ((Command.objection? settings "S" "T").run.run store twoParents).1
      (((Command.connect .setSubclass (labelPattern "S") (labelPattern "T")).run
        settings).run.run store twoParents).1 := by
  intro settings store
  have hmost : (classGraph threeClasses twoParents).HasAtMost settings.maxLineageDepth :=
    threeClasses_atMost twoParents
  exact (classStore_serves threeClasses "S" "T").checks_beside_guards twoParents_acyclic hmost
    (classGraph_matches (by simp)) (classGraph_matches (by simp)) fun hparent =>
      absurd (twoParents_ends hparent).1 (by simp)

/-- A walk from `T` goes on to `A`, where it ends. -/
private theorem twoParents_missed :
    ¬ ReflTransGen ((classGraph threeClasses twoParents).Follows false) "T" "S" := by
  intro hreaches
  obtain hsame | ⟨b, hfirst, hrest⟩ := hreaches.cases_head
  · simp at hsame
  have hleast : b ≤ "A" :=
    hfirst.least "A" b "A" ⟨by simp, by simp, rfl⟩
      (classGraph_names_iff.mpr ⟨hfirst.parent.2.1, rfl⟩)
      (classGraph_names_iff.mpr ⟨by simp, rfl⟩)
  obtain rfl | ⟨c, hsecond, -⟩ := hrest.cases_head
  · revert hleast
    decide
  · exact absurd (twoParents_ends hsecond.parent).1 (twoParents_ends hfirst.parent).2

/-- `S` is a parent of `T`, but the walk from `T` goes past it. So the checks have no objection to
the edge back, and the command ends without a reason when the guards refuse it. -/
theorem checks_miss_second_parent :
    let settings : OntologySettings := { singleInheritance := false, maxLineageDepth := 3 }
    let store := classStore threeClasses "S" "T"
    let graph := classGraph threeClasses twoParents
    graph.Acyclic ∧ graph.HasAtMost 3 ∧ ¬ graph.parent "S" "T" ∧
      ((Command.objection? settings "S" "T").run.run store twoParents).1 = .ok none ∧
      ¬ graph.GuardsHold false "S" "T" ∧
      (((Command.connect .setSubclass (labelPattern "S") (labelPattern "T")).run
        settings).run.run store twoParents).1 = .ok .incorrectNodes := by
  intro settings store graph
  have hserves := classStore_serves threeClasses "S" "T"
  have hs : graph.Matches (labelPattern "S") "S" := classGraph_matches (by simp)
  have ht : graph.Matches (labelPattern "T") "T" := classGraph_matches (by simp)
  have hunset : ¬ graph.parent "S" "T" := fun hparent =>
    absurd (twoParents_ends hparent).1 (by simp)
  have hmost : graph.HasAtMost settings.maxLineageDepth := threeClasses_atMost twoParents
  obtain ⟨objection, hobjection, hchecked⟩ :=
    (classGraph_recorded threeClasses twoParents "S" "T").objectionOf_checked twoParents_acyclic
      hmost hs.names ht.names hunset
  obtain rfl : objection = none := hchecked.eq_none_iff.mpr ⟨nofun, twoParents_missed⟩
  have hrefused : ¬ graph.GuardsHold false "S" "T" :=
    fun hhold => (Hierarchy.guardsHold_iff.mp hhold).1 twoParents_path
  refine ⟨twoParents_acyclic, hmost, hunset, ?_, hrefused, ?_⟩
  · exact (hserves.run_check settings twoParents).1.trans hobjection
  · exact (hserves.run_of_none hs ht hunset hobjection).2 hrefused

end OntologyGraph
