import OntologyGraph.Proofs.Schema.Declarations
import OntologyGraph.Proofs.Validation.Labels

/-!
Labels of ancestors. On a steady store the walk from a class of a lineage takes the rest of that
lineage, which is shorter than the whole. A node that has the class of the longer lineage among its
labels is therefore validated in the same way with and without the labels of the ancestors.
-/

namespace OntologyGraph.Schema

open Store

section Ancestors

variable {answers : Query → List Row} {settings : OntologySettings} {label ancestor : String}

/-- A walk ends in a lineage exactly if it may take all of its classes and the last is a root. -/
theorem comes_ok_iff {classes : List String} :
    Comes (parentLabels answers) settings label (.ok classes) ↔
      Ascends (parentLabels answers) settings label classes ∧
        ∃ root, classes.getLast? = some root ∧ parentLabels answers root = [] := by
  constructor
  · intro h
    generalize hresult : Except.ok classes = result at h
    cases h with
    | @root before root hascends hroot =>
      cases hresult
      exact ⟨hascends, root, by simp, hroot⟩
    | back | tooFar | severalParents => cases hresult
  · rintro ⟨hascends, root, hlast, hroot⟩
    obtain ⟨before, rfl⟩ := List.getLast?_eq_some_iff.mp hlast
    exact .root hascends hroot

/-- What a walk may take from a class on, it may take from any class on its way. -/
theorem Ascends.from_class {below above : List String}
    (h : Ascends (parentLabels answers) settings label (below ++ ancestor :: above)) :
    Ascends (parentLabels answers) settings ancestor (ancestor :: above) where
  walked i hi := by
    have hreached : classAt (parentLabels answers) label below.length = some ancestor := by
      rw [h.walked _ (by simp)]
      simp
    have hlength : below.length + i < (below ++ ancestor :: above).length := by
      rw [List.length_append]
      omega
    rw [← classAt_add hreached, h.walked _ hlength,
      List.getElem?_append_right (Nat.le_add_right _ _), Nat.add_sub_cancel_left]
  distinct := (List.sublist_append_right below _).nodup h.distinct
  within := (List.sublist_append_right below _).length_le.trans h.within
  single hsingle c hc := h.single hsingle c (List.mem_append_right below hc)

theorem length_classRows_of_lineageOf {lineage : Lineage}
    (h : lineageOf answers settings label = .ok lineage) :
    (answers (aboutClass classQuery label)).length = 1 := by
  unfold lineageOf at h
  split at h
  · cases h
  · assumption
  · cases h

/-- The walk from an ancestor takes the rest of the lineage, if the label of the ancestor leads to
one class. -/
theorem lineageOf_ancestor {lineage : Lineage}
    (h : lineageOf answers settings label = .ok lineage) (hmem : ancestor ∈ lineage.classes)
    (hother : ancestor ≠ label) (hone : (answers (aboutClass classQuery ancestor)).length = 1) :
    ∃ below rest, below ≠ [] ∧ lineageOf answers settings ancestor = .ok rest ∧
      lineage.classes = below ++ rest.classes := by
  have hcomes : Comes (parentLabels answers) settings label _ :=
    lineageOf_comes (length_classRows_of_lineageOf h)
  obtain ⟨below, above, hclasses⟩ := List.append_of_mem hmem
  rw [h] at hcomes
  change Comes (parentLabels answers) settings label (.ok lineage.classes) at hcomes
  rw [hclasses] at hcomes
  obtain ⟨hascends, root, hlast, hroot⟩ := comes_ok_iff.mp hcomes
  have hbelow : below ≠ [] := by
    rintro rfl
    have hfirst := hascends.walked 0 (by simp)
    simp only [classAt, List.nil_append, List.getElem?_cons_zero, Option.some.injEq] at hfirst
    exact hother hfirst.symm
  have hrest : Comes (parentLabels answers) settings ancestor (.ok (ancestor :: above)) := by
    refine comes_ok_iff.mpr ⟨hascends.from_class, root, ?_, hroot⟩
    simpa using hlast
  obtain ⟨rest, hlineage, hrest⟩ := Except.map_eq_ok_iff.mp
    ((lineageOf_comes hone).unique hrest)
  exact ⟨below, rest, hbelow, hlineage, by rw [hclasses, hrest]⟩

end Ancestors

end OntologyGraph.Schema

namespace OntologyGraph.Validation

open Schema Store Action

/-- The second list is the first with copies of `extra` put in, anywhere and as often as one
likes. -/
inductive PaddedWith (extra : String) : List String → List String → Prop where
  | nil : PaddedWith extra [] []
  | keep {labels padded : List String} (label : String) : PaddedWith extra labels padded →
      PaddedWith extra (label :: labels) (label :: padded)
  | pad {labels padded : List String} : PaddedWith extra labels padded →
      PaddedWith extra labels (extra :: padded)

variable {ends : String → Except OntologyFault Lineage} {shorter lineage : Lineage}
  {findings findings' : LabelFindings} {label extra : String} {labels padded : List String}

/-- The second findings are those of more labels, whose lineages are all `shorter`. It may be their
deepest only as long as the first findings have none that is longer. -/
structure Trails (shorter : Lineage) (findings findings' : LabelFindings) : Prop where
  undefinedLabels : findings'.undefinedLabels = findings.undefinedLabels
  brokenClasses : findings'.brokenClasses = findings.brokenClasses
  deepest : findings'.deepest = findings.deepest ∨
    findings'.deepest = some shorter ∧
      ∀ deepest, findings.deepest = some deepest → deepest.depth ≤ shorter.depth

private theorem trails_refl (shorter : Lineage) (findings : LabelFindings) :
    Trails shorter findings findings :=
  ⟨rfl, rfl, .inl rfl⟩

/-- The deepest lineage after one more. -/
private theorem deepest_addLineage (findings : LabelFindings) (lineage : Lineage) :
    (findings.addLineage lineage).deepest =
      match findings.deepest with
      | none => some lineage
      | some deepest => if deepest.depth < lineage.depth then some lineage else some deepest := by
  unfold LabelFindings.addLineage
  split
  · simp [*]
  · split <;> simp [*]

/-- The findings may take in the shorter lineage once more. -/
theorem Trails.pad (h : Trails shorter findings findings') :
    Trails shorter findings (findings'.addLineage shorter) where
  undefinedLabels := by rw [addLineage_undefinedLabels, h.undefinedLabels]
  brokenClasses := by rw [addLineage_brokenClasses, h.brokenClasses]
  deepest := by
    rw [deepest_addLineage]
    rcases h.deepest with hsame | ⟨hshorter, hle⟩
    · rw [hsame]
      cases findings.deepest with
      | none => simp
      | some deepest =>
        by_cases hlt : deepest.depth < shorter.depth
        · simp [hlt, Nat.le_of_lt hlt]
        · simp [hlt]
    · rw [hshorter]
      simpa using .inr hle

/-- The findings stay in step when both take in one more lineage. -/
theorem Trails.addLineage (h : Trails shorter findings findings') (lineage : Lineage) :
    Trails shorter (findings.addLineage lineage) (findings'.addLineage lineage) where
  undefinedLabels := by simp only [addLineage_undefinedLabels, h.undefinedLabels]
  brokenClasses := by simp only [addLineage_brokenClasses, h.brokenClasses]
  deepest := by
    rw [deepest_addLineage, deepest_addLineage]
    rcases h.deepest with hsame | ⟨hshorter, hle⟩
    · rw [hsame]
      exact .inl rfl
    · rw [hshorter]
      by_cases hlonger : shorter.depth < lineage.depth
      · -- The new lineage is longer than both.
        left
        cases hdeepest : findings.deepest with
        | none => simp [hlonger]
        | some deepest =>
          have hlt := Nat.lt_of_le_of_lt (hle deepest hdeepest) hlonger
          simp [hlonger, hlt]
      · refine .inr ⟨by simp [hlonger], ?_⟩
        intro deepest hdeepest
        split at hdeepest
        · cases hdeepest
          omega
        · next old hold =>
          have hold := hle old hold
          split at hdeepest <;> cases hdeepest <;> omega

/-- What the findings may hold as their deepest makes no difference to where a label is filed. -/
theorem Trails.add (h : Trails shorter findings findings') {result : Except OntologyFault Lineage}
    {next : LabelFindings} (hadd : findings.add label result = .ok next) :
    ∃ next', findings'.add label result = .ok next' ∧ Trails shorter next next' := by
  cases result with
  | ok lineage =>
    cases hadd
    exact ⟨_, rfl, h.addLineage lineage⟩
  | error fault =>
    cases fault
    case notFound =>
      cases hadd
      exact ⟨_, rfl, by simp [h.undefinedLabels], h.brokenClasses, h.deepest⟩
    case multipleFound | cycle =>
      cases hadd
      exact ⟨_, rfl, h.undefinedLabels, by simp [h.brokenClasses], h.deepest⟩
    case unsupportedType | invalidNode | store => cases hadd

/-- Ends of two runs over labels, the second over more of them. -/
inductive EndsTrail (shorter : Lineage) :
    Except OntologyFault LabelFindings → Except OntologyFault LabelFindings → Prop where
  | fault (fault : OntologyFault) : EndsTrail shorter (.error fault) (.error fault)
  | found {findings findings' : LabelFindings} : Trails shorter findings findings' →
      EndsTrail shorter (.ok findings) (.ok findings')

/-- By induction on how the copies are put in. -/
theorem PaddedWith.endsTrail (h : PaddedWith extra labels padded)
    (hshorter : ends extra = .ok shorter) (htrails : Trails shorter findings findings') :
    EndsTrail shorter (fileAll ends findings labels) (fileAll ends findings' padded) := by
  induction h generalizing findings findings' with
  | nil => exact .found htrails
  | keep label _ ih =>
    unfold fileAll
    cases hadd : findings.add label (ends label) with
    | error fault =>
      have hadd' : findings'.add label (ends label) = .error fault :=
        add_eq_error_iff.mpr (add_eq_error_iff.mp hadd)
      rw [hadd']
      exact .fault fault
    | ok next =>
      obtain ⟨next', hadd', hnext⟩ := htrails.add hadd
      rw [hadd']
      exact ih hnext
  | pad _ ih =>
    have hadd : findings'.add extra (ends extra) = .ok (findings'.addLineage shorter) := by
      rw [hshorter]
      rfl
    rw [fileAll.eq_def ends findings' (_ :: _)]
    simp only [hadd, Except.bind]
    exact ih htrails.pad

/-- The deepest lineage is as long as that of any label. -/
private theorem exists_deepest {deepest? : Option Lineage} (h : DeepestOf ends labels deepest?)
    (hlabel : label ∈ labels) (hlineage : ends label = .ok lineage) :
    ∃ deepest, deepest? = some deepest ∧ lineage.depth ≤ deepest.depth := by
  cases h with
  | none hnone => exact absurd hlineage (hnone label hlabel lineage)
  | @some _ deepest hdeep => exact ⟨deepest, rfl, hdeep.length_le label hlabel lineage hlineage⟩

/-- A label with a longer lineage than that of the copies has the last word on the deepest. -/
theorem PaddedWith.fileAll_eq (h : PaddedWith extra labels padded)
    (hshorter : ends extra = .ok shorter) (hlabel : label ∈ labels)
    (hlineage : ends label = .ok lineage) (hlonger : shorter.depth < lineage.depth) :
    fileAll ends {} padded = fileAll ends {} labels := by
  have hends := h.endsTrail hshorter (trails_refl shorter {})
  generalize fileAll ends {} padded = second at hends ⊢
  cases hall : fileAll ends {} labels with
  | error fault =>
    rw [hall] at hends
    cases hends
    rfl
  | ok findings =>
    rw [hall] at hends
    cases hends with
    | @found _ findings' htrails =>
      obtain ⟨deepest, hdeepest, hdepth⟩ :=
        exists_deepest (found_nil.fileAll hall).deepest hlabel hlineage
      have hsame : findings'.deepest = findings.deepest := by
        refine htrails.deepest.resolve_right ?_
        rintro ⟨-, hle⟩
        have hshort := hle deepest hdeepest
        omega
      obtain ⟨_, _, _⟩ := findings
      obtain ⟨_, _, _⟩ := findings'
      obtain ⟨hundefined, hbroken, -⟩ := htrails
      simp only at hundefined hbroken hsame
      rw [hundefined, hbroken, hsame]

/-- On a steady store it makes no difference to the validation of a node how often and where the
label of an ancestor stands among its labels, if a label of the node leads to a lineage with that
ancestor above it. -/
theorem ancestor_labels_redundant {σ : Type} {backend : Backend σ} {answers : Query → List Row}
    {state : σ} (hsteady : backend.Steady answers state) (settings : OntologySettings)
    (validator : Validator) {node : Node} {label ancestor : String} {lineage : Lineage}
    (hlabel : label ∈ node.labels)
    (hwalk : ((walk settings label).run.run backend state).1 = .ok lineage)
    (hancestor : ancestor ∈ lineage.classes) (hother : ancestor ≠ label)
    (hone : (answers (aboutClass classQuery ancestor)).length = 1) {padded : List String}
    (hpadded : PaddedWith ancestor node.labels padded) :
    ((validateNode settings validator { node with labels := padded }).run.run backend state).1 =
      ((validateNode settings validator node).run.run backend state).1 := by
  rw [walk_run hsteady settings label] at hwalk
  obtain ⟨below, rest, hbelow, hrest, hclasses⟩ :=
    lineageOf_ancestor hwalk hancestor hother hone
  have hlonger : rest.depth < lineage.depth := by
    have := List.length_pos_iff.mpr hbelow
    simp only [Lineage.depth, hclasses, List.length_append]
    omega
  simp only [(validateNode_readOnly settings validator _).run_eq_endOn hsteady,
    validateNode_endOn, walk_endOn]
  rw [hpadded.fileAll_eq hrest hlabel hwalk hlonger]

/-- The class `A` stands before, between and behind the labels of a node of its subclass `B`. -/
theorem ancestor_labels_redundant_twoLevels :
    let report (labels : List String) :=
      ((validateNode {} {} ⟨⟨0⟩, labels, .empty⟩).run.run (.ofAnswers twoLevels) ()).1
    ((walk {} "B").run.run (.ofAnswers twoLevels) ()).1.map (·.classes) = .ok ["B", "A"] ∧
      report ["A", "C", "A", "A", "B", "A"] = report ["C", "B"] := by
  have hsteady := Backend.ofAnswers_steady twoLevels
  have hwalk := walk_run hsteady {} "B"
  rw [lineageOf_twoLevels] at hwalk
  have hclasses : (["B", "A"].foldl (Lineage.extend twoLevels) .start).classes = ["B", "A"] :=
    extend_classes ["B", "A"] .start
  constructor
  · rw [hwalk]
    exact congrArg Except.ok hclasses
  · let node : Node := ⟨⟨0⟩, ["C", "B"], .empty⟩
    have hlabel : "B" ∈ node.labels := by simp [node]
    have hancestor : "A" ∈ (["B", "A"].foldl (Lineage.extend twoLevels) .start).classes := by
      rw [hclasses]
      simp
    have hpadded : PaddedWith "A" node.labels ["A", "C", "A", "A", "B", "A"] :=
      .pad (.keep "C" (.pad (.pad (.keep "B" (.pad .nil)))))
    exact ancestor_labels_redundant hsteady {} {} hlabel hwalk hancestor (by decide) (by decide)
      hpadded

end OntologyGraph.Validation
