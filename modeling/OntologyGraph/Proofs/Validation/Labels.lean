import Mathlib.Data.List.Forall2
import OntologyGraph.Proofs.Schema.Declarations
import OntologyGraph.Proofs.Schema.WalkEnds
import OntologyGraph.Validation.Instances

/-!
What becomes of the labels of a node when it is validated, on a store that replies to a read by its
query alone. Each label is filed once by the end of its walk: as undefined, as broken, or as one of
those whose lineages compete for the longest, which gives the rules. The first walk that meets a
failure of the store ends all.
-/

namespace OntologyGraph.Validation

open Schema Store Action

/-- One of the items fails, and none before it. -/
def FirstFault {α : Type} (fails : α → OntologyFault → Prop) (items : List α)
    (fault : OntologyFault) : Prop :=
  ∃ before item after, items = before ++ item :: after ∧ fails item fault ∧
    ∀ earlier ∈ before, ∀ fault', ¬ fails earlier fault'

section Spec

-- Where the walk from each label ends.
variable (ends : String → Except OntologyFault Lineage)

def isUndefined (label : String) : Bool :=
  match ends label with
  | .error (.notFound ..) => true
  | _ => false

/-- The label with the reason why its lineage cannot be walked, if its classes are the reason. -/
def brokenClass? (label : String) : Option (String × String) :=
  match ends label with
  | .error (.multipleFound entity id count) =>
    some (label, (OntologyFault.multipleFound entity id count).message)
  | .error (.cycle last lineage) => some (label, (OntologyFault.cycle last lineage).message)
  | _ => none

def StoreFails (label : String) (fault : OntologyFault) : Prop :=
  ends label = .error fault ∧ ∃ storeFault, fault = .store storeFault

/-- The lineage of the label is the longest among those of the labels, and the first as long. -/
def Deepest (labels : List String) (label : String) (lineage : Lineage) : Prop :=
  ∃ before after, labels = before ++ label :: after ∧ ends label = .ok lineage ∧
    (∀ earlier ∈ before, ∀ other, ends earlier = .ok other →
      other.classes.length < lineage.classes.length) ∧
    ∀ later ∈ after, ∀ other, ends later = .ok other →
      other.classes.length ≤ lineage.classes.length

def Unclassed (labels : List String) : Prop :=
  ∀ label ∈ labels, ∀ lineage, ends label ≠ .ok lineage

structure SameOnProperties (report report' : Report) : Prop where
  missing : report.missing = report'.missing
  undefined : report.undefined = report'.undefined
  invalid : report.invalid = report'.invalid
  strict : report.strict = report'.strict

/-- How validation files the labels of a node. -/
structure Classifies (validator : Validator) (node : Node) (result : Except OntologyFault Report) :
    Prop where
  fails_iff : ∀ fault, result = .error fault ↔
    FirstFault (StoreFails ends) node.labels fault
  undefinedLabels : ∀ report, result = .ok report →
    report.undefinedLabels = node.labels.filter (isUndefined ends)
  brokenClasses : ∀ report, result = .ok report →
    report.brokenClasses = node.labels.filterMap (brokenClass? ends)
  properties : ∀ report, result = .ok report →
    (∃ label lineage, Deepest ends node.labels label lineage ∧
      SameOnProperties report (validator.validate node.properties lineage.rules label)) ∨
    Unclassed ends node.labels ∧ SameOnProperties report { strict := validator.strict }

end Spec

/-- How the reports on nodes make up the report on all of them. -/
structure ReportsAll (reports : Node → Except OntologyFault Report) (nodes : List Node)
    (result : Except OntologyFault (List (NodeId × Report))) : Prop where
  reported_iff : ∀ pairs, result = .ok pairs ↔
    List.Forall₂ (fun node pair => pair.1 = node.id ∧ reports node = .ok pair.2) nodes pairs
  fails_iff : ∀ fault, result = .error fault ↔
    FirstFault (fun node fault => reports node = .error fault) nodes fault

section First

variable {α : Type} {fails : α → OntologyFault → Prop} {item : α} {items : List α}
  {fault : OntologyFault}

private theorem not_firstFault_nil : ¬ FirstFault fails [] fault := by
  rintro ⟨before, item, after, hitems, -⟩
  simp at hitems

private theorem firstFault_cons_of_fails (h : fails item fault)
    (hone : ∀ fault', fails item fault' → fault' = fault) (fault' : OntologyFault) :
    FirstFault fails (item :: items) fault' ↔ fault' = fault := by
  constructor
  · rintro ⟨before, failing, after, hitems, hfails, hbefore⟩
    cases before with
    | nil =>
      cases hitems
      exact hone fault' hfails
    | cons first before =>
      cases hitems
      exact absurd h (hbefore item List.mem_cons_self fault)
  · rintro rfl
    exact ⟨[], item, items, rfl, h, fun _ hmem => absurd hmem List.not_mem_nil⟩

private theorem firstFault_cons_of_not (h : ∀ fault, ¬ fails item fault) :
    FirstFault fails (item :: items) fault ↔ FirstFault fails items fault := by
  constructor
  · rintro ⟨before, failing, after, hitems, hfails, hbefore⟩
    cases before with
    | nil =>
      cases hitems
      exact absurd hfails (h fault)
    | cons first before =>
      cases hitems
      exact ⟨before, failing, after, rfl, hfails, (List.forall_mem_cons.mp hbefore).2⟩
  · rintro ⟨before, failing, after, rfl, hfails, hbefore⟩
    exact ⟨item :: before, failing, after, rfl, hfails, List.forall_mem_cons.mpr ⟨h, hbefore⟩⟩

end First

variable {ends : String → Except OntologyFault Lineage}

structure EndsOfWalks (ends : String → Except OntologyFault Lineage) : Prop where
  fault : ∀ label fault, ends label = .error fault →
    fault.isLookup = true ∨ ∃ storeFault, fault = .store storeFault
  label : ∀ label lineage, ends label = .ok lineage → lineage.label = label

/-- The longest lineage of the labels seen, the first of several as long. -/
inductive DeepestOf (ends : String → Except OntologyFault Lineage) (seen : List String) :
    Option Lineage → Prop where
  | none : Unclassed ends seen → DeepestOf ends seen none
  | some {label : String} {lineage : Lineage} :
      Deepest ends seen label lineage → DeepestOf ends seen (some lineage)

structure Found (ends : String → Except OntologyFault Lineage) (seen : List String)
    (findings : LabelFindings) : Prop where
  undefinedLabels : findings.undefinedLabels = seen.filter (isUndefined ends)
  brokenClasses : findings.brokenClasses = seen.filterMap (brokenClass? ends)
  deepest : DeepestOf ends seen findings.deepest

theorem found_nil : Found ends [] {} where
  undefinedLabels := rfl
  brokenClasses := rfl
  deepest := .none fun _ h => absurd h List.not_mem_nil

variable {seen : List String} {findings findings' : LabelFindings} {label : String}

theorem Deepest.concat {deep : String} {lineage : Lineage} (h : Deepest ends seen deep lineage)
    (hlabel : ∀ other, ends label = .ok other →
      other.classes.length ≤ lineage.classes.length) :
    Deepest ends (seen ++ [label]) deep lineage := by
  obtain ⟨before, after, rfl, hdeep, hearlier, hlater⟩ := h
  refine ⟨before, after ++ [label], by simp, hdeep, hearlier, ?_⟩
  intro later hmem
  rcases List.mem_append.mp hmem with hmem | hmem
  · exact hlater later hmem
  · rw [List.mem_singleton.mp hmem]
    exact hlabel

/-- A lineage that is longer than all before is the deepest. -/
theorem deepest_concat {lineage : Lineage} (hlabel : ends label = .ok lineage)
    (h : ∀ earlier ∈ seen, ∀ other, ends earlier = .ok other →
      other.classes.length < lineage.classes.length) :
    Deepest ends (seen ++ [label]) label lineage :=
  ⟨seen, [], rfl, hlabel, h, fun _ hmem => absurd hmem List.not_mem_nil⟩

theorem Deepest.length_le {deep : String} {lineage : Lineage} (h : Deepest ends seen deep lineage) :
    ∀ earlier ∈ seen, ∀ other, ends earlier = .ok other →
      other.classes.length ≤ lineage.classes.length := by
  obtain ⟨before, after, rfl, hdeep, hearlier, hlater⟩ := h
  intro earlier hmem other hother
  rcases List.mem_append.mp hmem with hmem | hmem
  · exact Nat.le_of_lt (hearlier earlier hmem other hother)
  · rcases List.mem_cons.mp hmem with rfl | hmem
    · rw [hdeep] at hother
      cases hother
      exact Nat.le_refl _
    · exact hlater earlier hmem other hother

/-- A label without a lineage leaves the deepest as it is. -/
theorem DeepestOf.concat {deepest : Option Lineage} (h : DeepestOf ends seen deepest)
    (hlabel : ∀ lineage, ends label ≠ .ok lineage) :
    DeepestOf ends (seen ++ [label]) deepest := by
  cases h with
  | none hnone =>
    refine .none ?_
    intro label' hmem
    rcases List.mem_append.mp hmem with hmem | hmem
    · exact hnone label' hmem
    · rw [List.mem_singleton.mp hmem]
      exact hlabel
  | some hdeepest => exact .some (hdeepest.concat fun other hother => absurd hother (hlabel other))

theorem DeepestOf.addLineage (h : DeepestOf ends seen findings.deepest) {lineage : Lineage}
    (hlabel : ends label = .ok lineage) :
    DeepestOf ends (seen ++ [label]) (findings.addLineage lineage).deepest := by
  unfold LabelFindings.addLineage
  cases hdeepest : findings.deepest with
  | none =>
    rw [hdeepest] at h
    cases h with
    | none hnone =>
      exact .some (deepest_concat hlabel fun earlier hmem other hother =>
        absurd hother (hnone earlier hmem other))
  | some deepest =>
    rw [hdeepest] at h
    cases h with
    | some hdeep =>
      simp only
      split
      · next hlonger =>
        exact .some (deepest_concat hlabel fun earlier hmem other hother =>
          Nat.lt_of_le_of_lt (hdeep.length_le earlier hmem other hother) hlonger)
      · next hshorter =>
        rw [hdeepest]
        refine .some (hdeep.concat ?_)
        intro other hother
        rw [hlabel] at hother
        cases hother
        exact Nat.le_of_not_lt hshorter

theorem addLineage_undefinedLabels (findings : LabelFindings) (lineage : Lineage) :
    (findings.addLineage lineage).undefinedLabels = findings.undefinedLabels := by
  unfold LabelFindings.addLineage
  split
  · rfl
  · split <;> rfl

theorem addLineage_brokenClasses (findings : LabelFindings) (lineage : Lineage) :
    (findings.addLineage lineage).brokenClasses = findings.brokenClasses := by
  unfold LabelFindings.addLineage
  split
  · rfl
  · split <;> rfl

/-- One more label is filed, by the end of its walk. -/
theorem Found.add (h : Found ends seen findings)
    (hadd : findings.add label (ends label) = .ok findings') :
    Found ends (seen ++ [label]) findings' := by
  cases hends : ends label with
  | ok lineage =>
    rw [hends] at hadd
    cases hadd
    refine ⟨?_, ?_, h.deepest.addLineage hends⟩
    · simp [addLineage_undefinedLabels, h.undefinedLabels, isUndefined, hends]
    · simp [addLineage_brokenClasses, h.brokenClasses, brokenClass?, hends]
  | error fault =>
    have hnone : ∀ lineage, ends label ≠ .ok lineage := fun lineage => by simp [hends]
    have hdeepest := h.deepest.concat hnone
    rw [hends] at hadd
    -- A fault that is no answer about the label is passed on, and nothing is filed.
    cases fault
    case notFound | multipleFound | cycle =>
      cases hadd
      refine ⟨?_, ?_, hdeepest⟩
      · simp [h.undefinedLabels, isUndefined, hends]
      · simp [h.brokenClasses, brokenClass?, hends]
    case unsupportedType | invalidNode | store => cases hadd

/-- Filing ends only in a fault of the walk that is no answer about the label. -/
theorem add_eq_error_iff {result : Except OntologyFault Lineage} {fault : OntologyFault} :
    findings.add label result = .error fault ↔
      result = .error fault ∧ fault.isLookup = false := by
  constructor
  · intro h
    rcases result with fault' | lineage
    · cases fault' <;> cases h <;> exact ⟨rfl, rfl⟩
    · cases h
  · rintro ⟨rfl, hlookup⟩
    cases fault <;> first | rfl | cases hlookup

def fileAll (ends : String → Except OntologyFault Lineage) :
    LabelFindings → List String → Except OntologyFault LabelFindings
  | findings, [] => .ok findings
  | findings, label :: labels =>
    (findings.add label (ends label)).bind fun findings => fileAll ends findings labels

/-- By induction on the labels still to be filed. -/
theorem Found.fileAll {labels : List String} (h : Found ends seen findings)
    (hall : fileAll ends findings labels = .ok findings') :
    Found ends (seen ++ labels) findings' := by
  induction labels generalizing seen findings with
  | nil =>
    cases hall
    rw [List.append_nil]
    exact h
  | cons label labels ih =>
    unfold Validation.fileAll at hall
    cases hadd : findings.add label (ends label) with
    | error fault =>
      rw [hadd] at hall
      cases hall
    | ok next =>
      rw [hadd] at hall
      have hfound := ih (h.add hadd) hall
      rwa [List.append_assoc] at hfound

/-- Filing labels fails exactly with the first failure of the store among their walks. -/
theorem fileAll_eq_error_iff (hends : EndsOfWalks ends) {labels : List String}
    {fault : OntologyFault} :
    fileAll ends findings labels = .error fault ↔
      FirstFault (StoreFails ends) labels fault := by
  induction labels generalizing findings with
  | nil => exact iff_of_false (fun h => nomatch h) not_firstFault_nil
  | cons label labels ih =>
    unfold fileAll
    cases hadd : findings.add label (ends label) with
    | error fault' =>
      obtain ⟨herror, hlookup⟩ := add_eq_error_iff.mp hadd
      have hfails : StoreFails ends label fault' := by
        refine ⟨herror, (hends.fault label fault' herror).resolve_left ?_⟩
        rw [hlookup]
        exact Bool.false_ne_true
      have hone : ∀ fault, StoreFails ends label fault → fault = fault' := by
        rintro fault ⟨hfault, -⟩
        rw [herror] at hfault
        cases hfault
        rfl
      rw [firstFault_cons_of_fails hfails hone]
      exact ⟨fun h => by cases h; rfl, fun h => by rw [h]; rfl⟩
    | ok next =>
      have hanswered : ∀ fault, ¬ StoreFails ends label fault := by
        rintro _ ⟨hfails, storeFault, rfl⟩
        rw [add_eq_error_iff.mpr ⟨hfails, rfl⟩] at hadd
        cases hadd
      rw [firstFault_cons_of_not hanswered]
      exact ih

section Node

variable {validator : Validator} {node : Node} {report : Report} {properties : PropertyMap}

theorem report_undefinedLabels (findings : LabelFindings) :
    (findings.report validator properties).undefinedLabels = findings.undefinedLabels := by
  unfold LabelFindings.report
  cases findings.deepest <;> rfl

theorem report_brokenClasses (findings : LabelFindings) :
    (findings.report validator properties).brokenClasses = findings.brokenClasses := by
  unfold LabelFindings.report
  cases findings.deepest <;> rfl

/-- The properties are judged by the longest lineage, or not at all if no label has one. -/
theorem Found.onProperties (hends : EndsOfWalks ends) (h : Found ends seen findings) :
    (∃ label lineage, Deepest ends seen label lineage ∧
      SameOnProperties (findings.report validator properties)
        (validator.validate properties lineage.rules label)) ∨
    Unclassed ends seen ∧
      SameOnProperties (findings.report validator properties) { strict := validator.strict } := by
  have hdeepest := h.deepest
  unfold LabelFindings.report
  cases hcase : findings.deepest with
  | none =>
    rw [hcase] at hdeepest
    cases hdeepest with
    | none hnone => exact .inr ⟨hnone, rfl, rfl, rfl, rfl⟩
  | some lineage =>
    rw [hcase] at hdeepest
    cases hdeepest with
    | @some label _ hdeep =>
      have hlabel : lineage.label = label := by
        obtain ⟨before, after, -, hlineage, -⟩ := hdeep
        exact hends.label label lineage hlineage
      subst hlabel
      exact .inl ⟨lineage.label, lineage, hdeep, rfl, rfl, rfl, rfl⟩

theorem found_of_fileAll
    (h : (fileAll ends {} node.labels).map (·.report validator node.properties) = .ok report) :
    ∃ findings, Found ends node.labels findings ∧
      report = findings.report validator node.properties := by
  obtain ⟨findings, hall, rfl⟩ := Except.map_eq_ok_iff.mp h
  exact ⟨findings, found_nil.fileAll hall, rfl⟩

/-- Labels are classified by where their walks end. -/
theorem classifies_of_fileAll (hends : EndsOfWalks ends) :
    Classifies ends validator node
      ((fileAll ends {} node.labels).map (·.report validator node.properties)) where
  fails_iff fault := by
    rw [Except.map_eq_error_iff, fileAll_eq_error_iff hends]
  undefinedLabels report hreport := by
    obtain ⟨findings, hfound, rfl⟩ := found_of_fileAll hreport
    rw [report_undefinedLabels, hfound.undefinedLabels]
  brokenClasses report hreport := by
    obtain ⟨findings, hfound, rfl⟩ := found_of_fileAll hreport
    rw [report_brokenClasses, hfound.brokenClasses]
  properties report hreport := by
    obtain ⟨findings, hfound, rfl⟩ := found_of_fileAll hreport
    exact hfound.onProperties hends

end Node

section Nodes

variable {reports : Node → Except OntologyFault Report} {node : Node} {nodes : List Node}

private theorem reportsAll_nil : ReportsAll reports [] (.ok []) where
  reported_iff pairs := by
    rw [List.forall₂_nil_left_iff, Except.ok.injEq, eq_comm]
  fails_iff _ := iff_of_false (fun h => nomatch h) not_firstFault_nil

/-- Nothing is made of the nodes behind one that fails. -/
private theorem reportsAll_cons_of_error {fault : OntologyFault}
    (hnode : reports node = .error fault) :
    ReportsAll reports (node :: nodes) (.error fault) where
  reported_iff pairs := by
    refine iff_of_false (fun h => nomatch h) ?_
    intro hpairs
    cases hpairs with
    | cons hpair _ =>
      rw [hnode] at hpair
      cases hpair.2
  fails_iff fault' := by
    have hone : ∀ other, reports node = .error other → other = fault := by
      intro other hother
      rw [hnode] at hother
      cases hother
      rfl
    rw [firstFault_cons_of_fails hnode hone, Except.error.injEq, eq_comm]

theorem ReportsAll.cons_of_ok {result : Except OntologyFault (List (NodeId × Report))}
    {report : Report} (h : ReportsAll reports nodes result) (hnode : reports node = .ok report) :
    ReportsAll reports (node :: nodes) (result.map ((node.id, report) :: ·)) where
  reported_iff pairs := by
    rw [Except.map_eq_ok_iff]
    constructor
    · rintro ⟨rest, hrest, rfl⟩
      exact .cons ⟨rfl, hnode⟩ ((h.reported_iff rest).mp hrest)
    · intro hpairs
      cases hpairs with
      | @cons _ pair _ rest hpair hrest =>
        obtain ⟨id, report'⟩ := pair
        obtain ⟨rfl, hreport⟩ := hpair
        rw [hnode] at hreport
        cases hreport
        exact ⟨rest, (h.reported_iff rest).mpr hrest, rfl⟩
  fails_iff fault := by
    rw [Except.map_eq_error_iff, h.fails_iff, firstFault_cons_of_not]
    intro other
    rw [hnode]
    exact nofun

end Nodes

section Ends

variable {replies : Query → Rows}

/-- Against one store a walk ends in a lineage of its label, in a fault about what the lookups
found, or in a failure of the store. -/
theorem endsOfWalks_endOn (replies : Query → Rows) (settings : OntologySettings) :
    EndsOfWalks fun label => (walk settings label).endOn replies where
  fault _ _ h := fault_of_walk h
  label _ _ h := label_of_walk h

theorem examineLabels_endOn (settings : OntologySettings) (findings : LabelFindings)
    (labels : List String) :
    (examineLabels settings findings labels).endOn replies =
      fileAll (fun label => (walk settings label).endOn replies) findings labels := by
  induction labels generalizing findings with
  | nil => rfl
  | cons label labels ih =>
    rw [examineLabels, fileAll]
    simp only [endOn_bind, endOn_attempt, endOn_ofExcept, Except.bind, ih]

theorem examineLabels_readOnly (settings : OntologySettings) (findings : LabelFindings)
    (labels : List String) : ReadOnly (examineLabels settings findings labels) := by
  induction labels generalizing findings with
  | nil => exact readOnly_pure _
  | cons label labels ih =>
    apply readOnly_bind (readOnly_attempt (walk_lookups settings label).readOnly)
    intro walked
    apply readOnly_bind (readOnly_ofExcept _)
    intro next
    exact ih next

theorem validateNode_readOnly (settings : OntologySettings) (validator : Validator) (node : Node) :
    ReadOnly (validateNode settings validator node) :=
  readOnly_bind (examineLabels_readOnly settings {} node.labels) fun _ => readOnly_pure _

/-- Validation changes nothing in the store. -/
theorem validateNodes_readOnly (settings : OntologySettings) (validator : Validator)
    (nodes : List Node) : ReadOnly (validateNodes settings validator nodes) := by
  induction nodes with
  | nil => exact readOnly_pure _
  | cons node nodes ih =>
    apply readOnly_bind (validateNode_readOnly settings validator node)
    intro report
    exact readOnly_bind ih fun _ => readOnly_pure _

/-- Validating a node comes to the report on the ends of the walks from its labels. -/
theorem validateNode_endOn (settings : OntologySettings) (validator : Validator) (node : Node) :
    (validateNode settings validator node).endOn replies =
      (fileAll (fun label => (walk settings label).endOn replies) {} node.labels).map
        (·.report validator node.properties) := by
  rw [validateNode, endOn_bind, examineLabels_endOn]
  cases fileAll (fun label => (walk settings label).endOn replies) {} node.labels <;> rfl

/-- By induction on the nodes: the first whose validation fails ends it. -/
theorem reportsAll_validateNodes (settings : OntologySettings) (validator : Validator)
    (nodes : List Node) :
    ReportsAll (fun node => (validateNode settings validator node).endOn replies) nodes
      ((validateNodes settings validator nodes).endOn replies) := by
  induction nodes with
  | nil => exact reportsAll_nil
  | cons node nodes ih =>
    have hend : (validateNodes settings validator (node :: nodes)).endOn replies =
        ((validateNode settings validator node).endOn replies).bind fun report =>
          ((validateNodes settings validator nodes).endOn replies).map
            ((node.id, report) :: ·) := by
      rw [validateNodes, endOn_bind]
      congr 1
      funext report
      rw [endOn_bind]
      cases (validateNodes settings validator nodes).endOn replies <;> rfl
    rw [hend]
    cases hnode : (validateNode settings validator node).endOn replies with
    | error fault => exact reportsAll_cons_of_error hnode
    | ok report => exact ih.cons_of_ok hnode

end Ends

/-- On any store that replies to a read by its query alone, with rows or with a failure, validation
of a node files each of its labels once by the end of its walk, and fails just when one of the walks
meets a failure of the store. The nodes of a list are validated one by one, each as by itself. -/
theorem validation_classifies_labels {σ : Type} {backend : Backend σ} {replies : Query → Rows}
    {state : σ} (hrepeats : backend.Repeats replies state) (settings : OntologySettings)
    (validator : Validator) :
    let ends (label : String) := ((walk settings label).run.run backend state).1
    let reports (node : Node) := ((validateNode settings validator node).run.run backend state).1
    (∀ node, Classifies ends validator node (reports node)) ∧
      ∀ nodes, ReportsAll reports nodes
        ((validateNodes settings validator nodes).run.run backend state).1 := by
  simp only [(walk_lookups settings _).readOnly.run_eq_endOn hrepeats,
    (validateNode_readOnly settings validator _).run_eq_endOn hrepeats,
    (validateNodes_readOnly settings validator _).run_eq_endOn hrepeats]
  refine ⟨?_, reportsAll_validateNodes settings validator⟩
  intro node
  rw [validateNode_endOn]
  exact classifies_of_fileAll (endsOfWalks_endOn replies settings)

/-- A store that cannot look up one label, has no class for another and two for a third. `Low` is a
class below `High`, and `Flat` has no parent; each class demands a property. -/
def patchyReplies (query : Query) : Rows :=
  let label := Row.text query.params "label"
  if label = "Lost" then .error (.query "timeout")
  else if query.text = classQuery then
    .ok (List.replicate (if label = "None" then 0 else if label = "Double" then 2 else 1)
      query.params)
  else if query.text = parentQuery then .ok (if label = "Low" then [labelRow "High"] else [])
  else if query.text = propertyQuery then
    .ok [propertyRow requiredPropertyEdge ("of " ++ label)]
  else .ok []

def patchyFlat : Lineage where
  classes := ["Flat"]
  rules := .ofList [("of Flat", ⟨.required, "Flat", none⟩)]

def patchyLow : Lineage where
  classes := ["Low", "High"]
  rules := .ofList [("of High", ⟨.required, "High", none⟩), ("of Low", ⟨.required, "Low", none⟩)]

private theorem patchyReplies_walks :
    ((walk {} "Flat").run.run (.ofReplies patchyReplies) ()).1 = .ok patchyFlat ∧
      ((walk {} "Low").run.run (.ofReplies patchyReplies) ()).1 = .ok patchyLow := by
  decide +kernel

/-- Behind a failure nothing is reported. Otherwise a label that is given twice is reported twice,
and of two lineages the longer gives the rules, though the shorter comes first. -/
theorem validation_classifies_labels_patchy :
    let report (labels : List String) :=
      ((validateNode {} {} ⟨⟨0⟩, labels, .empty⟩).run.run (.ofReplies patchyReplies) ()).1
    report ["None", "Lost", "Double"] = .error (.store (.query "timeout")) ∧
      ∃ found, report ["Flat", "None", "Low", "Double", "None"] = .ok found ∧
        found.undefinedLabels = ["None", "None"] ∧ found.brokenClasses.map (·.1) = ["Double"] ∧
        found.missing = [("of High", "High"), ("of Low", "Low")] := by
  intro report
  obtain ⟨hnode, -⟩ := validation_classifies_labels
    (Backend.ofReplies_repeats patchyReplies) {} {}
  obtain ⟨hflat, hlow⟩ := patchyReplies_walks
  constructor
  · refine ((hnode ⟨⟨0⟩, ["None", "Lost", "Double"], .empty⟩).fails_iff _).mpr ?_
    refine ⟨["None"], "Lost", ["Double"], rfl, ⟨rfl, _, rfl⟩, ?_⟩
    rintro earlier hmem _ ⟨hfails, storeFault, rfl⟩
    rw [List.mem_singleton.mp hmem] at hfails
    cases hfails
  have hfiled := hnode ⟨⟨0⟩, ["Flat", "None", "Low", "Double", "None"], .empty⟩
  cases hreport : report ["Flat", "None", "Low", "Double", "None"] with
  | error fault =>
    obtain ⟨before, label, after, hlabels, ⟨hfails, storeFault, rfl⟩, -⟩ :=
      (hfiled.fails_iff fault).mp hreport
    have hmem : label ∈ before ++ label :: after := by simp
    rw [← hlabels] at hmem
    simp only [List.mem_cons, List.not_mem_nil, or_false] at hmem
    rcases hmem with rfl | rfl | rfl | rfl | rfl
    · cases hflat.symm.trans hfails
    · cases hfails
    · cases hlow.symm.trans hfails
    · cases hfails
    · cases hfails
  | ok found =>
    refine ⟨found, rfl, ?_, ?_, ?_⟩
    · rw [hfiled.undefinedLabels found hreport]
      decide +kernel
    · rw [hfiled.brokenClasses found hreport]
      decide +kernel
    · rcases hfiled.properties found hreport with ⟨label, lineage, hdeepest, hsame⟩ | ⟨hnone, -⟩
      · have hlonger := hdeepest.length_le "Low" (by simp) patchyLow hlow
        obtain ⟨before, after, hlabels, hends, -⟩ := hdeepest
        have hmem : label ∈ before ++ label :: after := by simp
        rw [← hlabels] at hmem
        simp only [List.mem_cons, List.not_mem_nil, or_false] at hmem
        rcases hmem with rfl | rfl | rfl | rfl | rfl
        · cases hflat.symm.trans hends
          exact absurd hlonger (by decide)
        · cases hends
        · cases hlow.symm.trans hends
          rw [hsame.missing]
          decide +kernel
        · cases hends
        · cases hends
      · exact absurd hlow (hnone "Low" (by simp) patchyLow)

end OntologyGraph.Validation
