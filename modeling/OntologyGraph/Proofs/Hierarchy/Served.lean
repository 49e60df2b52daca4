import OntologyGraph.Proofs.Command.Course
import OntologyGraph.Proofs.Hierarchy.Handlers
import OntologyGraph.Proofs.Hierarchy.Records

/-!
One command that sets a subclass edge, on a store that nobody else works on. Its reads show the
hierarchy as it is, and only its guarded write changes it; so the end of the command can be told
from the hierarchy.
-/

namespace OntologyGraph

open Schema Store Relation Action

/-- Every guard whose text stands in the write of an edge from `s` to `t` holds. -/
def Hierarchy.GuardsHold {N : Type} (g : Hierarchy N) (single : Bool) (s t : N) : Prop :=
  ∀ guard : Guard, guard.text ∈ Subclass.guards single → g.Holds s t guard

/-- The merge finds a pair to join exactly if its guards hold of the two classes its ends match. -/
theorem Hierarchy.eligible_iff {N : Type} {g : Hierarchy N} {single : Bool}
    {subject target : NodePattern} {s t : N} (hs : g.Matches subject s)
    (ht : g.Matches target t) :
    (∃ a b, g.Eligible (Subclass.merge single subject target) a b) ↔ g.GuardsHold single s t := by
  constructor
  · rintro ⟨a, b, heligible⟩ guard hguard
    rw [hs.unique heligible.subject_matches, ht.unique heligible.target_matches]
    exact heligible.guards guard (Subclass.mem_guards_iff.mpr hguard)
  · intro hguards
    exact ⟨s, t, hs, ht, fun guard hguard => hguards guard (Subclass.mem_guards_iff.mp hguard)⟩

namespace Command

/-- The end of the checks of a subclass edge, given the rows of every query. -/
def objectionOf (answers : Query → List Row) (settings : OntologySettings)
    (subject target : String) : Except CommandFault (Option Outcome) :=
  if subject = target then .ok (some (.wouldCycle subject target))
  else
    match
      if settings.singleInheritance then
        otherParent? subject target (answers (aboutClass Subclass.parentsQuery subject))
      else none with
    | some outcome => .ok (some outcome)
    | none => cycleObjection subject target (lineageOf answers settings target)

private theorem cycleCheck_readOnly (settings : OntologySettings) (subject target : String) :
    ReadOnly (do
      let walked ← Action.attempt (walk settings target)
      Action.ofExcept (cycleObjection subject target walked)) :=
  readOnly_bind (readOnly_attempt (walk_lookups settings target).readOnly) fun _ =>
    readOnly_ofExcept _

/-- The checks draw no stamp and write nothing. -/
theorem objection?_readOnly (settings : OntologySettings) (subject target : String) :
    ReadOnly (objection? settings subject target) := by
  unfold objection?
  split
  · exact readOnly_pure _
  split
  · refine readOnly_bind (readOnly_fetch _ _) fun parents => ?_
    cases otherParent? subject target parents with
    | some outcome => exact readOnly_pure _
    | none => exact cycleCheck_readOnly settings subject target
  · exact cycleCheck_readOnly settings subject target

private theorem cycleCheck_endOn (answers : Query → List Row) (settings : OntologySettings)
    (subject target : String) :
    Action.endOn (given answers) (do
      let walked ← Action.attempt (walk settings target)
      Action.ofExcept (cycleObjection subject target walked)) =
        cycleObjection subject target (lineageOf answers settings target) := by
  rw [endOn_bind, endOn_attempt, walk_endOn]
  exact endOn_ofExcept _

/-- Against a store that keeps its answers the checks come to the objection these answers give. -/
theorem objection?_endOn (answers : Query → List Row) (settings : OntologySettings)
    (subject target : String) :
    (objection? settings subject target).endOn (given answers) =
      objectionOf answers settings subject target := by
  unfold objection? objectionOf
  split
  · exact endOn_ofExcept _
  split
  · have hread : (read (aboutClass Subclass.parentsQuery subject)).endOn (given answers) =
        .ok (answers (aboutClass Subclass.parentsQuery subject)) := rfl
    rw [endOn_bind, hread, Except.bind]
    cases otherParent? subject target (answers (aboutClass Subclass.parentsQuery subject)) with
    | some outcome => exact endOn_ofExcept _
    | none => exact cycleCheck_endOn answers settings subject target
  · exact cycleCheck_endOn answers settings subject target

/-- The objection the answers give is no write. -/
theorem objectionOf_objects {answers : Query → List Row} {settings : OntologySettings}
    {subject target : String} {objection : Option Outcome}
    (h : objectionOf answers settings subject target = .ok objection) : Objects objection := by
  unfold objectionOf at h
  split at h
  · cases h
    rintro _ ⟨⟩
    rfl
  split at h
  · next outcome hother =>
    cases h
    split at hother
    · exact hother ▸ otherParent?_objects _ _ _
    · cases hother
  · exact cycleObjection_objects h

/-- With a lineage of the target the checks come to an end. -/
theorem exists_objectionOf {answers : Query → List Row} {settings : OntologySettings}
    (subject : String) {target : String} {lineage : Lineage}
    (h : lineageOf answers settings target = .ok lineage) :
    ∃ objection, objectionOf answers settings subject target = .ok objection := by
  unfold objectionOf
  split
  · exact ⟨_, rfl⟩
  split
  · exact ⟨_, rfl⟩
  · rw [h]
    exact ⟨_, rfl⟩

end Command

/-- A hierarchy, and the rows of a store that record it. -/
structure Snapshot (N : Type) where
  graph : Hierarchy N
  answers : Query → List Row
  recorded : graph.Recorded answers

variable {σ N : Type} {backend : Backend σ} {settings : OntologySettings}
  {subject target : NodePattern} {view : σ → Snapshot N} {state : σ}

/-- A store with a view of its hierarchy serves a command that sets `subject` under `target`. It
answers the probe and the lookups of classes from the view. A merge does as its text says and
changes no class, and a merge without a row changes nothing. -/
structure Serves (backend : Backend σ) (subject target : NodePattern) (view : σ → Snapshot N) :
    Prop where
  read : ∀ state query, (Command.connect .setSubclass subject target).Inspects query →
    (backend.fetch query state).1 = .ok ((view state).answers query) ∧
      view (backend.fetch query state).2 = view state
  stamp_keeps : ∀ state, view (backend.stamp state).2 = view state
  probe_found : ∀ state s t, (view state).graph.Matches subject s →
    (view state).graph.Matches target t → ∃ row : Row,
      (view state).answers ⟨edgeText subject target, .empty⟩ = [row] ∧
        (row.flag "connected" = true ↔ (view state).graph.parent s t)
  probe_missed : ∀ state, (¬ ∃ s t, (view state).graph.Matches subject s ∧
      (view state).graph.Matches target t) →
    (view state).answers ⟨edgeText subject target, .empty⟩ = []
  lawful : ∀ state query, Exchange.Lawful ⟨(view state).graph,
    .fetch query (backend.fetch query state).1, (view (backend.fetch query state).2).graph⟩
  merge_answered : ∀ state (merge : GuardedMerge),
    let merged := backend.fetch ⟨merge.text, .empty⟩ state
    ∃ rows, merged.1 = .ok rows ∧
      (view merged.2).graph.isClass = (view state).graph.isClass ∧
      (view merged.2).graph.property = (view state).graph.property ∧
      (rows = [] → view merged.2 = view state)

namespace Serves

/-- The write of the command, whose text is that of a merge. -/
theorem write (h : Serves backend subject target view) (single : Bool) (state : σ) :
    let written := backend.fetch (Subclass.write single subject target) state
    ∃ rows, written.1 = .ok rows ∧
      (view state).graph.Sets (Subclass.merge single subject target) (.ok rows)
        (view written.2).graph ∧
      (view written.2).graph.isClass = (view state).graph.isClass ∧
      (view written.2).graph.property = (view state).graph.property ∧
      (rows = [] → view written.2 = view state) := by
  intro written
  obtain ⟨rows, hrows, hkept⟩ := h.merge_answered state (Subclass.merge single subject target)
  rw [← Subclass.write_text] at hrows hkept
  have hsets := (h.lawful state _).guarded _ _ _ rfl (Subclass.write_text single subject target)
  have hrows : written.1 = .ok rows := hrows
  rw [hrows] at hsets
  exact ⟨rows, hrows, hsets, hkept⟩

/-- A program that only reads is answered from one view. By induction on the program, since no read
changes the view. -/
theorem view_of_reads {α : Type} (h : Serves backend subject target view)
    (p : Program α) (state : σ)
    (hreads : ∀ log value, p.Runs log value → ∀ event ∈ log,
      (Command.connect .setSubclass subject target).Reads event) :
    (∀ event ∈ p.trace backend state, event.Agrees (given (view state).answers)) ∧
      view (p.run backend state).2 = view state := by
  induction p generalizing state with
  | done value => exact ⟨fun event hevent => absurd hevent List.not_mem_nil, rfl⟩
  | fetch query next ih =>
    obtain ⟨log, value, hrun⟩ := (next (.ok [])).exists_run
    obtain ⟨_, _, ⟨⟩, hinspects⟩ := hreads _ _ (.fetch hrun) _ List.mem_cons_self
    obtain ⟨hrows, hview⟩ := h.read state query hinspects
    obtain ⟨hagrees, hnext⟩ := ih _ (backend.fetch query state).2 fun log value hrun event hevent =>
      hreads _ _ (.fetch hrun) event (List.mem_cons_of_mem _ hevent)
    rw [hview] at hagrees hnext
    exact ⟨List.forall_mem_cons.mpr ⟨hrows, hagrees⟩, hnext⟩
  | execute query next ih =>
    obtain ⟨log, value, hrun⟩ := (next (.ok ())).exists_run
    obtain ⟨_, _, hsame, -⟩ := hreads _ _ (.execute hrun) _ List.mem_cons_self
    cases hsame
  | stamp next ih =>
    obtain ⟨hagrees, hnext⟩ := ih _ (backend.stamp state).2 fun log value hrun event hevent =>
      hreads _ _ (.stamp hrun) event hevent
    rw [h.stamp_keeps] at hagrees hnext
    exact ⟨hagrees, hnext⟩

/-- Lookups end as the view has it, and leave the view as it is. -/
theorem run_lookups {ε α : Type} (h : Serves backend subject target view) {action : Action ε α}
    {values : α → Prop} (hkeeps : Keeps IsLookup values action) (hreads : ReadOnly action)
    (state : σ) :
    (action.run.run backend state).1 = action.endOn (given (view state).answers) ∧
      view (action.run.run backend state).2 = view state := by
  obtain ⟨hagrees, hview⟩ := h.view_of_reads action.run state fun log value hrun event hevent =>
    Command.reads_of_isLookup _ ((hkeeps log value hrun).1 event hevent)
  exact ⟨Program.ReadOnly.run_eq_value hreads hagrees, hview⟩

/-- Against the served store the checks come to the objection the rows of its state give. -/
theorem run_check (h : Serves backend subject target view) (settings : OntologySettings)
    (state : σ) :
    ((Command.objection? settings subject.label target.label).run.run backend state).1 =
        Command.objectionOf (view state).answers settings subject.label target.label ∧
      view ((Command.objection? settings subject.label target.label).run.run backend state).2 =
        view state := by
  rw [← Command.objection?_endOn]
  exact h.run_lookups (Command.objection?_keeps _ _ _) (Command.objection?_readOnly _ _ _) state

/-- Once the probe has found the ends and no edge between them, the checks are made. -/
theorem run_probed (h : Serves backend subject target view) {s t : N}
    (hs : (view state).graph.Matches subject s) (ht : (view state).graph.Matches target t)
    (hunset : ¬ (view state).graph.parent s t) :
    ∃ state', view state' = view state ∧
      ((Command.connect .setSubclass subject target).run settings).run.run backend state =
        (Command.runSubclass settings subject target).run.run backend state' := by
  obtain ⟨row, hrow, hflag⟩ := h.probe_found state s t hs ht
  obtain ⟨hread, hview⟩ := h.read state _ (.probe rfl)
  rw [← probe_setSubclass] at hrow
  rw [hrow] at hread
  refine ⟨_, hview, ?_⟩
  have hwhen : Command.whenUnset [row] Connection.setSubclass.noun
      (Command.runSubclass settings subject target) =
        Command.runSubclass settings subject target :=
    if_neg (hflag.not.mpr hunset)
  rw [Command.run, Command.runConnect, run_bind_ok (Command.read_run hread)]
  exact congrArg (fun action : Command.CommandAction Outcome => action.run.run backend _) hwhen

/-- An objection ends the command. -/
theorem run_objected (h : Serves backend subject target view) {outcome : Outcome}
    (hcheck : Command.objectionOf (view state).answers settings subject.label target.label =
      .ok (some outcome)) :
    ((Command.runSubclass settings subject target).run.run backend state).1 = .ok outcome := by
  obtain ⟨hend, -⟩ := h.run_check settings state
  rw [hcheck] at hend
  rw [Command.runSubclass, run_bind_ok hend]
  rfl

/-- Checks without an objection that are made again after a write that gave no row find none. -/
theorem run_rechecked (h : Serves backend subject target view)
    (hcheck : Command.objectionOf (view state).answers settings subject.label target.label =
      .ok none) :
    let recheck : Command.CommandAction Outcome := do
      return (← Command.objection? settings subject.label target.label).getD .incorrectNodes
    (recheck.run.run backend state).1 = .ok .incorrectNodes ∧
      view (recheck.run.run backend state).2 = view state := by
  obtain ⟨hend, hview⟩ := h.run_check settings state
  rw [hcheck] at hend
  intro recheck
  rw [run_bind_ok hend]
  exact ⟨rfl, hview⟩

/-- Without an objection the guards of the write decide. -/
theorem run_unobjected (h : Serves backend subject target view)
    (hcheck : Command.objectionOf (view state).answers settings subject.label target.label =
      .ok none) :
    let run := (Command.runSubclass settings subject target).run.run backend state
    ∃ rows, (view state).graph.Sets
        (Subclass.merge settings.singleInheritance subject target) (.ok rows) (view run.2).graph ∧
      (view run.2).graph.isClass = (view state).graph.isClass ∧
      (view run.2).graph.property = (view state).graph.property ∧
      run.1 = .ok (if rows = [] then .incorrectNodes
        else .connected subject.label subclassEdge target.label) := by
  obtain ⟨hend, hview⟩ := h.run_check settings state
  rw [hcheck] at hend
  rw [Command.runSubclass, run_bind_ok hend]
  generalize ((Command.objection? settings subject.label target.label).run.run backend state).2 =
    checked at hview
  rw [← hview] at hcheck ⊢
  obtain ⟨rows, hwrite, hsets, hclasses, hproperties, hsame⟩ :=
    h.write settings.singleInheritance checked
  change let run := (Command.runSubclassWrite settings subject target).run.run backend checked
    ∃ rows, _ ∧ _ ∧ _ ∧ run.1 = _
  rw [Command.runSubclassWrite, run_bind_ok (Command.read_run hwrite)]
  refine ⟨rows, ?_⟩
  cases rows with
  | nil =>
    -- Without a row nothing has changed, so the second checks find what the first did.
    rw [← hsame rfl] at hcheck
    obtain ⟨hresult, hkept⟩ := h.run_rechecked hcheck
    rw [← hkept] at hsets hclasses hproperties
    exact ⟨hsets, hclasses, hproperties, hresult⟩
  | cons row rows => exact ⟨hsets, hclasses, hproperties, rfl⟩

variable {s t : N}

/-- An objection is the end of the command. -/
theorem run_of_objection (h : Serves backend subject target view)
    (hs : (view state).graph.Matches subject s) (ht : (view state).graph.Matches target t)
    (hunset : ¬ (view state).graph.parent s t) {outcome : Outcome}
    (hcheck : Command.objectionOf (view state).answers settings subject.label target.label =
      .ok (some outcome)) :
    (((Command.connect .setSubclass subject target).run settings).run.run backend state).1 =
      .ok outcome := by
  obtain ⟨probed, hview, hrun⟩ := h.run_probed hs ht hunset
  rw [← hview] at hcheck
  rw [hrun]
  exact h.run_objected hcheck

/-- Without one the guards decide. -/
theorem run_of_none (h : Serves backend subject target view)
    (hs : (view state).graph.Matches subject s) (ht : (view state).graph.Matches target t)
    (hunset : ¬ (view state).graph.parent s t)
    (hcheck : Command.objectionOf (view state).answers settings subject.label target.label =
      .ok none) :
    let result :=
      (((Command.connect .setSubclass subject target).run settings).run.run backend state).1
    let guarded := (view state).graph.GuardsHold settings.singleInheritance s t
    (guarded → result = .ok (.connected subject.label subclassEdge target.label)) ∧
      (¬ guarded → result = .ok .incorrectNodes) := by
  obtain ⟨probed, hview, hrun⟩ := h.run_probed hs ht hunset
  rw [← hview] at hcheck
  obtain ⟨rows, ⟨hrows, -⟩, -, -, hresult⟩ := h.run_unobjected hcheck
  rw [hview, Hierarchy.eligible_iff hs ht] at hrows
  rw [hrun, hresult]
  constructor
  · intro hguarded
    rw [if_neg (hrows.mpr hguarded)]
  · intro hrefused
    rw [if_pos (not_not.mp (hrows.not.mpr hrefused))]

end Serves

/-- Labels of classes that can be told apart and are read as they are. -/
structure ClassLabels where
  all : List String
  nodup : all.Nodup
  bare : ∀ label ∈ all, Hierarchy.Bare label

def classGraph (labels : ClassLabels) (edges : String → String → Bool) : Hierarchy String where
  isClass a := a ∈ labels.all
  property a key := if key = "label" then some a else none
  parent a b := a ∈ labels.all ∧ b ∈ labels.all ∧ edges a b = true
  label_unique a b label _ _ ha hb := by
    rw [if_pos rfl, Option.some.injEq] at ha hb
    exact ha.trans hb.symm

def classRows (labels : ClassLabels) (edges : String → String → Bool) (subject target : String)
    (query : Query) : List Row :=
  match query.params.get? "label" with
  | some (.text label) =>
    if query.text = classQuery then [labelRow label]
    else if query.text = parentQuery ∨ query.text = Subclass.parentsQuery then
      (labels.all.filter (edges label)).map labelRow
    else []
  | _ =>
    if subject ∈ labels.all ∧ target ∈ labels.all then
      [.ofList [("connected", .bool (edges subject target))]]
    else []

variable {labels : ClassLabels} {edges : String → String → Bool}

theorem classGraph_names_iff {label a : String} :
    (classGraph labels edges).Names label a ↔ a ∈ labels.all ∧ a = label :=
  and_congr_right fun _ => Option.some.injEq a label ▸ Iff.rfl

theorem classGraph_lists {label : String} (hlabel : label ∈ labels.all) :
    (classGraph labels edges).Lists ((labels.all.filter (edges label)).map labelRow) label := by
  have htexts : ((labels.all.filter (edges label)).map labelRow).map (Row.text · "label") =
      labels.all.filter (edges label) := by
    rw [List.map_map]
    exact List.map_id _
  constructor
  case nodup =>
    rw [htexts]
    exact labels.nodup.filter _
  case mem_iff =>
    intro label'
    rw [htexts, List.mem_filter]
    simp only [classGraph_names_iff]
    constructor
    · rintro ⟨hmem, hedge⟩
      exact ⟨label', ⟨hlabel, hmem, hedge⟩, hmem, rfl⟩
    · rintro ⟨_, ⟨-, hmem, hedge⟩, -, rfl⟩
      exact ⟨hmem, hedge⟩

private theorem classRows_about (labels : ClassLabels) (edges : String → String → Bool)
    (subject target text label : String) :
    classRows labels edges subject target (aboutClass text label) =
      if text = classQuery then [labelRow label]
      else if text = parentQuery ∨ text = Subclass.parentsQuery then
        (labels.all.filter (edges label)).map labelRow
      else [] :=
  rfl

/-- The rows of the class store record its graph. -/
theorem classGraph_recorded (labels : ClassLabels) (edges : String → String → Bool)
    (subject target : String) :
    (classGraph labels edges).Recorded (classRows labels edges subject target) where
  edge_ends a b hparent := ⟨hparent.1, hparent.2.1⟩
  labelled a ha := ⟨a, labels.bare a ha, classGraph_names_iff.mpr ⟨ha, rfl⟩⟩
  class_rows label a _ := by
    rw [classRows_about, if_pos rfl]
    rfl
  parent_rows label a hname := by
    obtain ⟨ha, rfl⟩ := classGraph_names_iff.mp hname
    have hother : parentQuery ≠ classQuery := by decide
    rw [classRows_about, if_neg hother, if_pos (.inl rfl)]
    exact classGraph_lists ha
  check_rows label a hname := by
    obtain ⟨ha, rfl⟩ := classGraph_names_iff.mp hname
    have hother : Subclass.parentsQuery ≠ classQuery := by decide
    rw [classRows_about, if_neg hother, if_pos (.inr rfl)]
    exact classGraph_lists ha

def labelPattern (label : String) : NodePattern where
  label := label

theorem classGraph_matches_iff {label a : String} :
    (classGraph labels edges).Matches (labelPattern label) a ↔ a ∈ labels.all ∧ a = label := by
  have hnames : (classGraph labels edges).Names label a ↔ _ := classGraph_names_iff
  rw [← hnames]
  constructor
  · exact Hierarchy.Matches.names
  · rintro ⟨hclass, hlabel⟩
    refine ⟨hclass, ?_⟩
    intro pair hpair
    rw [List.mem_singleton.mp hpair]
    exact hlabel

/-- What a store of the classes shows, if it is asked for an edge from `subject` to `target`. -/
def classView (labels : ClassLabels) (subject target : String) (edges : String → String → Bool) :
    Snapshot String where
  graph := classGraph labels edges
  answers := classRows labels edges subject target
  recorded := classGraph_recorded labels edges subject target

open Classical in
noncomputable def classMerge (labels : ClassLabels) (merge : GuardedMerge)
    (edges : String → String → Bool) : Rows × (String → String → Bool) :=
  let eligible := (classGraph labels edges).Eligible merge
  (.ok (if ∃ s t, eligible s t then [.empty] else []), fun a b => edges a b || eligible a b)

private theorem classMerge_edge_iff {merge : GuardedMerge} {a b : String} :
    (classMerge labels merge edges).2 a b = true ↔
      edges a b = true ∨ (classGraph labels edges).Eligible merge a b := by
  simp [classMerge]

/-- Merging in the class store sets the edges of the eligible pairs and reports a row if there is
one. -/
theorem classMerge_sets (labels : ClassLabels) (merge : GuardedMerge)
    (edges : String → String → Bool) :
    let merged := classMerge labels merge edges
    (classGraph labels edges).Sets merge merged.1 (classGraph labels merged.2) := by
  intro merged
  refine ⟨by simp, ?_⟩
  intro a b
  change a ∈ labels.all ∧ b ∈ labels.all ∧ merged.2 a b = true ↔
    (a ∈ labels.all ∧ b ∈ labels.all ∧ edges a b = true) ∨ _
  rw [classMerge_edge_iff]
  constructor
  · rintro ⟨ha, hb, hedge | hnew⟩
    · exact .inl ⟨ha, hb, hedge⟩
    · exact .inr hnew
  · rintro (⟨ha, hb, hedge⟩ | hnew)
    · exact ⟨ha, hb, .inl hedge⟩
    · exact ⟨hnew.subject_matches.1, hnew.target_matches.1, .inr hnew⟩

/-- A merge that reports no row has set no edge. -/
theorem classMerge_unchanged {merge : GuardedMerge}
    (h : (classMerge labels merge edges).1 = .ok []) :
    (classMerge labels merge edges).2 = edges := by
  have hnone : ∀ a b, ¬ (classGraph labels edges).Eligible merge a b := by
    simpa [classMerge] using h
  funext a b
  apply Bool.eq_iff_iff.mpr
  rw [classMerge_edge_iff, or_iff_left (hnone a b)]

open Classical in
/-- A store of the classes that takes merges, and answers the probe for an edge from `subject` to
`target`. -/
noncomputable def classStore (labels : ClassLabels) (subject target : String) :
    Backend (String → String → Bool) where
  fetch query edges :=
    if h : ∃ merge : GuardedMerge, query.text = merge.text then classMerge labels h.choose edges
    else (.ok (classRows labels edges subject target query), edges)
  execute _ edges := (.ok (), edges)
  stamp edges := (.zero, edges)

/-- A text that is that of a merge is taken as one. -/
theorem classStore_merges (labels : ClassLabels) (subject target : String) {query : Query}
    {merge : GuardedMerge} (h : query.text = merge.text) :
    ∃ same : GuardedMerge, merge.text = same.text ∧ ∀ edges,
      (classStore labels subject target).fetch query edges = classMerge labels same edges := by
  have hmerge : ∃ merge : GuardedMerge, query.text = merge.text := ⟨merge, h⟩
  exact ⟨hmerge.choose, h.symm.trans hmerge.choose_spec, fun edges => dif_pos hmerge⟩

private theorem classStore_reads (labels : ClassLabels) (subject target : String) {query : Query}
    (h : ¬ ∃ merge : GuardedMerge, query.text = merge.text) (edges : String → String → Bool) :
    (classStore labels subject target).fetch query edges =
      (.ok (classRows labels edges subject target query), edges) :=
  dif_neg h

/-- The class store is one the laws are satisfiable by, for any classes and any two ends. -/
theorem classStore_serves (labels : ClassLabels) (subject target : String) :
    Serves (classStore labels subject target) (labelPattern subject) (labelPattern target)
      (classView labels subject target) where
  read edges query hinspects := by
    -- What a command inspects the store with makes no edge, and a merge does.
    have hother : ¬ ∃ merge : GuardedMerge, query.text = merge.text := by
      rintro ⟨merge, htext⟩
      have hmakes := GuardedMerge.canMake htext
      rw [hinspects.canMake] at hmakes
      cases hmakes
    rw [classStore_reads labels subject target hother]
    exact ⟨rfl, rfl⟩
  stamp_keeps _ := rfl
  probe_found edges s t hs ht := by
    obtain ⟨hsubject, rfl⟩ := classGraph_matches_iff.mp hs
    obtain ⟨htarget, rfl⟩ := classGraph_matches_iff.mp ht
    refine ⟨_, if_pos ⟨hsubject, htarget⟩, ?_⟩
    exact ⟨fun hedge => ⟨hsubject, htarget, hedge⟩, fun hparent => hparent.2.2⟩
  probe_missed edges hmissed := by
    refine if_neg ?_
    rintro ⟨hs, ht⟩
    exact hmissed ⟨subject, target, classGraph_matches_iff.mpr ⟨hs, rfl⟩,
      classGraph_matches_iff.mpr ⟨ht, rfl⟩⟩
  lawful edges query := by
    by_cases hmerge : ∃ merge : GuardedMerge, query.text = merge.text
    · obtain ⟨merge, htext⟩ := hmerge
      obtain ⟨same, hsame, hfetch⟩ := classStore_merges labels subject target htext
      rw [hfetch]
      exact .of_sets (htext.trans hsame) (classMerge_sets labels same edges)
    · rw [classStore_reads labels subject target hmerge]
      exact .of_other _ hmerge
  merge_answered edges merge := by
    have htext : (⟨merge.text, .empty⟩ : Query).text = merge.text := rfl
    obtain ⟨same, -, hfetch⟩ := classStore_merges labels subject target htext
    rw [hfetch]
    exact ⟨_, rfl, rfl, rfl, fun hnil => congrArg _ (classMerge_unchanged (congrArg _ hnil))⟩

theorem classGraph_matches {label : String} (h : label ∈ labels.all) :
    (classGraph labels edges).Matches (labelPattern label) label :=
  classGraph_matches_iff.mpr ⟨h, rfl⟩

def threeClasses : ClassLabels where
  all := ["A", "S", "T"]
  nodup := by decide
  bare := by decide

@[simp]
theorem mem_threeClasses {label : String} :
    label ∈ threeClasses.all ↔ label = "A" ∨ label = "S" ∨ label = "T" := by
  simp [threeClasses]

end OntologyGraph
