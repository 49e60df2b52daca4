import OntologyGraph.Proofs.Hierarchy.Served

/-!
Lineages before and after a subclass edge is set, where each class has one parent at most. The edge
puts the lineage of its target behind every lineage that ends in its subject. The guards of the
write keep the lengthened lineages free of repetitions, but nothing keeps them within the greatest
depth.
-/

namespace OntologyGraph

open Schema Store Relation

namespace Hierarchy

variable {N : Type} {g g' : Hierarchy N} {label label' : String} {a p s t : N}

structure AddsEdge (g g' : Hierarchy N) (s t : N) : Prop where
  isClass : g'.isClass = g.isClass
  property : g'.property = g.property
  parent_iff : ∀ a b, g'.parent a b ↔ g.parent a b ∨ (a = s ∧ b = t)

/-- An edge more changes no label of a class. -/
theorem AddsEdge.names_iff (h : g.AddsEdge g' s t) : g'.Names label a ↔ g.Names label a := by
  rw [Names, Names, h.isClass, h.property]

/-- A merge that gave a row has set the edge between its ends. -/
theorem Sets.edge {merge : GuardedMerge} {rows : List Row} (h : g.Sets merge (.ok rows) g')
    (hrows : rows ≠ []) (hs : g.Matches merge.subject s) (ht : g.Matches merge.target t) :
    g.Eligible merge s t ∧ ∀ a b, g'.parent a b ↔ g.parent a b ∨ (a = s ∧ b = t) := by
  obtain ⟨hfound, hparent⟩ := h
  obtain ⟨a, b, heligible⟩ := hfound.mp hrows
  obtain rfl := hs.unique heligible.subject_matches
  obtain rfl := ht.unique heligible.target_matches
  refine ⟨heligible, fun a b => ?_⟩
  rw [hparent]
  refine or_congr Iff.rfl ⟨fun hnew => ?_, ?_⟩
  · exact ⟨hnew.subject_matches.unique hs, hnew.target_matches.unique ht⟩
  · rintro ⟨rfl, rfl⟩
    exact heligible

/-- Under single parents a walk goes from a class to its parent and nowhere else. -/
theorem Recorded.next_iff {answers : Query → List Row} (h : g.Recorded answers)
    (hone : g.SingleParent) (hlabel : g.Names label a) :
    nextClass (parentLabels answers) label = some label' ↔
      ∃ p, g.parent a p ∧ g.Names label' p := by
  refine ⟨h.exists_next hlabel, fun hnext => ?_⟩
  refine List.min?_eq_some_iff.mpr ⟨(h.mem_parentLabels_iff hlabel).mpr hnext, ?_⟩
  intro l hl
  obtain ⟨p, hparent, hp⟩ := hnext
  obtain ⟨q, hq, hname⟩ := (h.mem_parentLabels_iff hlabel).mp hl
  obtain rfl := hone a p q hparent hq
  rw [hp.label_eq hname]

end Hierarchy

/-- The hierarchy after an edge from `s` to `t` that its guards let pass. -/
structure Snapshot.Grows {N : Type} (before after : Snapshot N) (s t : N) : Prop where
  adds : before.graph.AddsEdge after.graph s t
  single_before : before.graph.SingleParent
  single_after : after.graph.SingleParent
  no_path : ¬ ReflTransGen before.graph.parent t s

/-- The classes from a class to its root after an edge: those before it, and behind the subject of
the edge those of its target. -/
def lengthened (subject : String) (classes above : List String) : List String :=
  if subject ∈ classes then classes ++ above else classes

namespace Snapshot.Grows

variable {N : Type} {before after : Snapshot N} {label subject target : String} {a s t : N}
  {classes : List String} {root : String}

/-- The edge changes only what follows its subject. -/
theorem next_of_ne (h : before.Grows after s t) (hlabel : before.graph.Names label a)
    (hne : a ≠ s) :
    nextClass (parentLabels after.answers) label =
      nextClass (parentLabels before.answers) label := by
  apply Option.ext
  intro next
  rw [before.recorded.next_iff h.single_before hlabel,
    after.recorded.next_iff h.single_after (h.adds.names_iff.mpr hlabel)]
  simp only [h.adds.parent_iff, h.adds.names_iff, hne, false_and, or_false]

/-- Once the edge is set, a walk goes from the subject to the target. -/
theorem next_subject (h : before.Grows after s t) (hs : before.graph.Names subject s)
    (ht : before.graph.Names target t) :
    nextClass (parentLabels after.answers) subject = some target :=
  (after.recorded.next_iff h.single_after (h.adds.names_iff.mpr hs)).mpr
    ⟨t, (h.adds.parent_iff s t).mpr (.inr ⟨rfl, rfl⟩), h.adds.names_iff.mpr ht⟩

/-- Below the subject a walk goes as it did before the edge was set. -/
theorem classAt_eq (h : before.Grows after s t) (hlabel : before.graph.Names label a)
    (hs : before.graph.Names subject s) {i : Nat}
    (hbelow : ∀ j < i, classAt (parentLabels before.answers) label j ≠ some subject) :
    classAt (parentLabels after.answers) label i =
      classAt (parentLabels before.answers) label i := by
  induction i with
  | zero => rfl
  | succ i ih =>
    rw [classAt, classAt, ih fun j hj => hbelow j (by omega)]
    cases hclass : classAt (parentLabels before.answers) label i with
    | none => rfl
    | some c =>
      obtain ⟨b, hb, -⟩ := before.recorded.exists_path hlabel hclass
      have hne : b ≠ s := by
        rintro rfl
        rw [hb.label_eq hs] at hclass
        exact hbelow i (Nat.lt_succ_self i) hclass
      exact h.next_of_ne hb hne

/-- A chain stays as it is as far as the subject. -/
theorem walked (h : before.Grows after s t) (hlabel : before.graph.Names label a)
    (hs : before.graph.Names subject s)
    (hwalked : Walked (parentLabels before.answers) label (classes ++ [root]))
    (hfresh : subject ∉ classes) :
    Walked (parentLabels after.answers) label (classes ++ [root]) := by
  intro i hi
  rw [← hwalked i hi]
  apply h.classAt_eq hlabel hs
  intro j hj hclass
  rw [List.length_append, List.length_singleton] at hi
  exact hfresh ((walked_concat_iff.mp hwalked).1.mem_iff.mpr ⟨j, by omega, hclass⟩)

/-- A root other than the subject stays one. -/
theorem root_stays (h : before.Grows after s t) (hlabel : before.graph.Names label a)
    (hne : a ≠ s) (hroot : parentLabels before.answers label = []) :
    parentLabels after.answers label = [] := by
  rw [before.recorded.parentLabels_eq_nil_iff hlabel] at hroot
  rw [after.recorded.parentLabels_eq_nil_iff (h.adds.names_iff.mpr hlabel)]
  intro p hparent
  rcases (h.adds.parent_iff a p).mp hparent with hold | ⟨hsame, -⟩
  · exact hroot p hold
  · exact hne hsame

/-- No class lies both on the way to the subject and above the target. -/
theorem disjoint (h : before.Grows after s t) (hs : before.graph.Names subject s)
    (ht : before.graph.Names target t) {above : List String}
    (hwalked : Walked (parentLabels before.answers) label (classes ++ [subject]))
    (habove : Walked (parentLabels before.answers) target above) :
    (classes ++ [subject]).Disjoint above := by
  intro c hc hc'
  obtain ⟨i, hi, hclass⟩ := hwalked.mem_iff.mp hc
  rw [List.length_append, List.length_singleton] at hi
  obtain ⟨k, hk⟩ := Nat.exists_eq_add_of_le (Nat.lt_succ_iff.mp hi)
  obtain ⟨b, hb, hfrom⟩ := before.recorded.exists_path_of_mem ht habove hc'
  have hup : classAt (parentLabels before.answers) c k = some subject := by
    rw [← classAt_add hclass, ← hk]
    exact (walked_concat_iff.mp hwalked).2
  obtain ⟨b', hb', hto⟩ := before.recorded.exists_path hb hup
  obtain rfl := hb'.unique hs
  exact h.no_path (hfrom.trans hto)

/-- A chain to a root gives the lineage after the edge, as far as there is room. -/
theorem chain_comes (h : before.Grows after s t) (hlabel : before.graph.Names label a)
    {settings : OntologySettings}
    (hwalked : Walked (parentLabels after.answers) label (classes ++ [root]))
    (hdistinct : (classes ++ [root]).Nodup) (hroot : parentLabels after.answers root = []) :
    Comes (parentLabels after.answers) settings label (capped settings (classes ++ [root])) := by
  apply comes_capped hwalked hdistinct ?_ hroot
  intro c hc
  obtain ⟨b, hb, -⟩ :=
    after.recorded.exists_path_of_mem (h.adds.names_iff.mpr hlabel) hwalked hc
  exact (after.recorded.parentLabels_length_le_one_iff hb).mpr (h.single_after b)

/-- How a walk from a class ends after the edge, if before it there were lineages of the class and
of the target. -/
theorem comes (h : before.Grows after s t) (hlabel : before.graph.Names label a)
    (hs : before.graph.Names subject s) (ht : before.graph.Names target t)
    (hfree : ∀ p, ¬ before.graph.parent s p) {settings : OntologySettings} {above : List String}
    (hclasses : Comes (parentLabels before.answers) settings label (.ok classes))
    (habove : Comes (parentLabels before.answers) settings target (.ok above)) :
    Comes (parentLabels after.answers) settings label
      (capped settings (lengthened subject classes above)) := by
  obtain @⟨classes, root, hascends, hroot⟩ := hclasses
  obtain @⟨above, top, hascends', htop⟩ := habove
  unfold lengthened
  -- The edge makes a walk longer only if the walk comes to the subject, which was a root.
  by_cases hmem : subject ∈ classes ++ [root]
  · rw [if_pos hmem]
    have hnone := (before.recorded.parentLabels_eq_nil_iff hs).mpr hfree
    obtain rfl := hascends.walked.eq_last hmem hnone
    obtain ⟨hfresh, -⟩ := hascends.fresh_and_room
    have hdisjoint := h.disjoint hs ht hascends.walked hascends'.walked
    have hbelow := h.walked hlabel hs hascends.walked hfresh
    have hup : Walked (parentLabels after.answers) target (above ++ [top]) :=
      h.walked ht hs hascends'.walked fun hin =>
        hdisjoint (List.mem_append_right _ List.mem_cons_self) (List.mem_append_left _ hin)
    have hwalked := hbelow.append (h.next_subject hs ht) hup
    have hdistinct := hascends.distinct.append hascends'.distinct hdisjoint
    have hlast : top ∈ above ++ [top] := List.mem_append_right _ List.mem_cons_self
    obtain ⟨b, hb, hpath⟩ := before.recorded.exists_path_of_mem ht hascends'.walked hlast
    have hne : b ≠ s := by
      rintro rfl
      exact h.no_path hpath
    rw [← List.append_assoc] at hwalked hdistinct ⊢
    exact h.chain_comes hlabel hwalked hdistinct (h.root_stays hb hne htop)
  · rw [if_neg hmem]
    have hlast : root ∈ classes ++ [root] := List.mem_append_right _ List.mem_cons_self
    obtain ⟨b, hb, -⟩ := before.recorded.exists_path_of_mem hlabel hascends.walked hlast
    have hne : b ≠ s := by
      rintro rfl
      rw [hs.label_eq hb] at hmem
      exact hmem hlast
    have hwalked := h.walked hlabel hs hascends.walked fun hin =>
      hmem (List.mem_append_left _ hin)
    exact h.chain_comes hlabel hwalked hascends.distinct (h.root_stays hb hne hroot)

/-- The same of the lineages that the rows give. -/
theorem lineageOf_after (h : before.Grows after s t) (hlabel : before.graph.Names label a)
    (hs : before.graph.Names subject s) (ht : before.graph.Names target t)
    (hfree : ∀ p, ¬ before.graph.parent s p) {settings : OntologySettings}
    {lineage above : Lineage} (hlineage : lineageOf before.answers settings label = .ok lineage)
    (habove : lineageOf before.answers settings target = .ok above) :
    (lineageOf after.answers settings label).map (·.classes) =
      capped settings (lengthened subject lineage.classes above.classes) := by
  have hclasses : Comes (parentLabels before.answers) settings label _ :=
    lineageOf_comes (before.recorded.class_rows label a hlabel)
  have hover : Comes (parentLabels before.answers) settings target _ :=
    lineageOf_comes (before.recorded.class_rows target t ht)
  rw [hlineage] at hclasses
  rw [habove] at hover
  have hafter := after.recorded.class_rows label a (h.adds.names_iff.mpr hlabel)
  exact (lineageOf_comes hafter).unique (h.comes hlabel hs ht hfree hclasses hover)

end Snapshot.Grows

namespace Serves

variable {σ N : Type} {backend : Backend σ} {settings : OntologySettings}
  {subject target : NodePattern} {view : σ → Snapshot N} {state : σ}

/-- A walk against the served store comes to what the rows of its state determine. -/
theorem walk_run (h : Serves backend subject target view) (settings : OntologySettings)
    (label : String) (state : σ) :
    ((walk settings label).run.run backend state).1 =
      lineageOf (view state).answers settings label := by
  have hlookups := walk_lookups settings label
  rw [← walk_endOn]
  exact (h.run_lookups hlookups.keeps hlookups.readOnly state).1

/-- A command that sets its edge has found the ends, and no edge between them. -/
theorem ends_of_connected (h : Serves backend subject target view)
    (hconnected : (((Command.connect .setSubclass subject target).run settings).run.run backend
      state).1 = .ok (.connected subject.label subclassEdge target.label)) :
    ∃ s t, (view state).graph.Matches subject s ∧ (view state).graph.Matches target t ∧
      ¬ (view state).graph.parent s t := by
  obtain ⟨hread, -⟩ := h.read state _ (.probe rfl)
  rw [Command.run, Command.runConnect, Action.run_bind_ok (Command.read_run hread)] at hconnected
  by_cases hends : ∃ s t, (view state).graph.Matches subject s ∧
      (view state).graph.Matches target t
  · obtain ⟨s, t, hs, ht⟩ := hends
    refine ⟨s, t, hs, ht, fun hset => ?_⟩
    obtain ⟨row, hrow, hflag⟩ := h.probe_found state s t hs ht
    rw [probe_setSubclass, hrow, Command.whenUnset, if_pos (hflag.mpr hset)] at hconnected
    cases hconnected
  · rw [probe_setSubclass, h.probe_missed state hends] at hconnected
    cases hconnected

/-- Once it has set its edge, the hierarchy has grown by it. -/
theorem grows_of_connected (h : Serves backend subject target view)
    (hsingle : settings.singleInheritance = true) (hone : (view state).graph.SingleParent)
    (hlineages : ∀ label a, (view state).graph.Names label a →
      ∃ lineage, lineageOf (view state).answers settings label = .ok lineage)
    (hconnected : (((Command.connect .setSubclass subject target).run settings).run.run backend
      state).1 = .ok (.connected subject.label subclassEdge target.label)) :
    ∃ s t, (view state).graph.Matches subject s ∧ (view state).graph.Matches target t ∧
      (∀ p, ¬ (view state).graph.parent s p) ∧
      (view state).Grows (view (((Command.connect .setSubclass subject target).run
        settings).run.run backend state).2) s t := by
  obtain ⟨s, t, hs, ht, hunset⟩ := h.ends_of_connected hconnected
  obtain ⟨lineage, hlineage⟩ := hlineages target.label t ht.names
  obtain ⟨probed, hview, hrun⟩ := h.run_probed hs ht hunset
  rw [hrun] at hconnected ⊢
  rw [← hview] at hlineage hone ⊢
  obtain ⟨objection, hobjection⟩ := Command.exists_objectionOf subject.label hlineage
  cases objection with
  | some outcome =>
    -- An objection would have been the answer, and no objection reports an edge.
    have hobjects := Command.objectionOf_objects hobjection outcome rfl
    cases (h.run_objected hobjection).symm.trans hconnected
    cases hobjects
  | none =>
    obtain ⟨rows, hsets, hclasses, hproperties, hresult⟩ := h.run_unobjected hobjection
    rw [hsingle] at hsets
    have hrows : rows ≠ [] := by
      rintro rfl
      cases hresult.symm.trans hconnected
    rw [← hview] at hs ht
    obtain ⟨heligible, hparent⟩ := hsets.edge hrows hs ht
    have hfree := Subclass.noParent_mem_guards subject target
    exact ⟨s, t, hs, ht, heligible.no_parent hfree, ⟨hclasses, hproperties, hparent⟩, hone,
      hsets.singleParent hfree hone,
      heligible.no_path (Subclass.noPathBack_mem_guards true subject target)⟩

/-- After the edge a walk ends with the lineage that it ended with before, and behind the subject
with that of the target, as far as there is room. -/
theorem walk_after_edge (h : Serves backend subject target view)
    (hsingle : settings.singleInheritance = true) (hone : (view state).graph.SingleParent)
    (hlineages : ∀ label a, (view state).graph.Names label a →
      ∃ lineage, ((walk settings label).run.run backend state).1 = .ok lineage)
    (hconnected : (((Command.connect .setSubclass subject target).run settings).run.run backend
      state).1 = .ok (.connected subject.label subclassEdge target.label)) :
    let after := (((Command.connect .setSubclass subject target).run settings).run.run backend
      state).2
    (∃ s t, (view state).graph.Matches subject s ∧ (view state).graph.Matches target t ∧
      (view state).graph.AddsEdge (view after).graph s t) ∧
    ∃ above, ((walk settings target.label).run.run backend state).1 = .ok above ∧
      ∀ label a, (view state).graph.Names label a →
        ∃ lineage, ((walk settings label).run.run backend state).1 = .ok lineage ∧
          ((walk settings label).run.run backend after).1.map (·.classes) =
            capped settings (lengthened subject.label lineage.classes above.classes) := by
  simp only [h.walk_run settings] at hlineages ⊢
  obtain ⟨s, t, hs, ht, hfree, hgrows⟩ := h.grows_of_connected hsingle hone hlineages hconnected
  refine ⟨⟨s, t, hs, ht, hgrows.adds⟩, ?_⟩
  obtain ⟨above, habove⟩ := hlineages target.label t ht.names
  refine ⟨above, habove, fun label a hlabel => ?_⟩
  obtain ⟨lineage, hlineage⟩ := hlineages label a hlabel
  exact ⟨lineage, hlineage,
    hgrows.lineageOf_after hlabel hs.names ht.names hfree hlineage habove⟩

end Serves

def noEdges (_ _ : String) : Bool :=
  false

private theorem noEdges_parent {a b : String} : ¬ (classGraph threeClasses noEdges).parent a b :=
  fun hparent => nomatch hparent.2.2

private theorem noEdges_singleParent : (classGraph threeClasses noEdges).SingleParent :=
  fun _ _ _ hparent => absurd hparent noEdges_parent

/-- Each class is its own lineage. -/
private theorem noEdges_lineage (settings : OntologySettings) (hroom : 0 < settings.maxLineageDepth)
    {label : String} (hlabel : label ∈ threeClasses.all) :
    ∃ lineage, lineageOf (classRows threeClasses noEdges "S" "T") settings label = .ok lineage ∧
      lineage.classes = [label] := by
  have hrecorded := classGraph_recorded threeClasses noEdges "S" "T"
  have hname : (classGraph threeClasses noEdges).Names label label :=
    classGraph_names_iff.mpr ⟨hlabel, rfl⟩
  have hroot : parentLabels (classRows threeClasses noEdges "S" "T") label = [] :=
    (hrecorded.parentLabels_eq_nil_iff hname).mpr fun _ => noEdges_parent
  have hascends : Ascends (parentLabels (classRows threeClasses noEdges "S" "T")) settings label
      ([] ++ [label]) :=
    ascends_nil.concat rfl List.not_mem_nil hroom fun _ => by simp [hroot]
  have hcomes : Comes _ settings label _ := lineageOf_comes (hrecorded.class_rows label label hname)
  exact Except.map_eq_ok_iff.mp (hcomes.unique (.root hascends hroot))

private theorem noEdges_objectionOf (settings : OntologySettings)
    (hroom : 0 < settings.maxLineageDepth) :
    Command.objectionOf (classRows threeClasses noEdges "S" "T") settings "S" "T" = .ok none := by
  have hs : "S" ∈ threeClasses.all := by simp
  have ht : "T" ∈ threeClasses.all := by simp
  have hrecorded := classGraph_recorded threeClasses noEdges "S" "T"
  obtain ⟨lineage, hlineage, hclasses⟩ := noEdges_lineage settings hroom ht
  have hrows := hrecorded.check_rows "S" "S" (classGraph_names_iff.mpr ⟨hs, rfl⟩)
  have hfree := (hrows.eq_nil_iff fun _ => hrecorded.exists_parent_name).mpr fun _ => noEdges_parent
  rw [Command.objectionOf, if_neg (by simp), hfree, hlineage]
  simp [Command.otherParent?, Command.cycleObjection, Lineage.descendsFrom, hclasses]

private theorem noEdges_connected (settings : OntologySettings)
    (hroom : 0 < settings.maxLineageDepth) :
    (((Command.connect .setSubclass (labelPattern "S") (labelPattern "T")).run settings).run.run
      (classStore threeClasses "S" "T") noEdges).1 =
        .ok (.connected "S" subclassEdge "T") := by
  have hserves := classStore_serves threeClasses "S" "T"
  have hs : (classGraph threeClasses noEdges).Matches (labelPattern "S") "S" :=
    classGraph_matches (by simp)
  have ht : (classGraph threeClasses noEdges).Matches (labelPattern "T") "T" :=
    classGraph_matches (by simp)
  apply (hserves.run_of_none hs ht noEdges_parent (noEdges_objectionOf settings hroom)).1
  rintro (_ | _) _
  · intro hpath
    rcases hpath.cases_head with hsame | ⟨_, hparent, -⟩
    · simp at hsame
    · exact noEdges_parent hparent
  · exact fun _ => noEdges_parent

private theorem noEdges_walks (settings : OntologySettings) (hroom : 0 < settings.maxLineageDepth)
    {label a : String} (hlabel : (classGraph threeClasses noEdges).Names label a) :
    ∃ lineage, ((walk settings label).run.run
      (classStore threeClasses "S" "T") noEdges).1 = .ok lineage := by
  obtain ⟨hmem, rfl⟩ := classGraph_names_iff.mp hlabel
  obtain ⟨lineage, hlineage, -⟩ := noEdges_lineage settings hroom hmem
  have hserves := classStore_serves threeClasses "S" "T"
  exact ⟨lineage, (hserves.walk_run settings a noEdges).trans hlineage⟩

/-- With room for two classes the edge gives `S` a lineage of two. -/
theorem walk_after_edge_noEdges :
    let settings : OntologySettings := { maxLineageDepth := 2 }
    let store := classStore threeClasses "S" "T"
    let command := Command.connect .setSubclass (labelPattern "S") (labelPattern "T")
    let after := ((command.run settings).run.run store noEdges).2
    ∃ above, ((walk settings "T").run.run store noEdges).1 = .ok above ∧
      ∀ label a, (classGraph threeClasses noEdges).Names label a →
        ∃ lineage, ((walk settings label).run.run store noEdges).1 = .ok lineage ∧
          ((walk settings label).run.run store after).1.map (·.classes) =
            capped settings (lengthened "S" lineage.classes above.classes) := by
  intro settings store command after
  have hserves := classStore_serves threeClasses "S" "T"
  have hroom : 0 < settings.maxLineageDepth := by decide
  exact (hserves.walk_after_edge rfl noEdges_singleParent
    (fun _ _ hlabel => noEdges_walks settings hroom hlabel)
    (noEdges_connected settings hroom)).2

/-- With room for one class only, every class has a lineage before the edge, and the edge is set,
but `S` has no lineage after it. -/
theorem walk_breaks_after_edge :
    let settings : OntologySettings := { maxLineageDepth := 1 }
    let store := classStore threeClasses "S" "T"
    let command := Command.connect .setSubclass (labelPattern "S") (labelPattern "T")
    (classGraph threeClasses noEdges).SingleParent ∧
      (∀ label a, (classGraph threeClasses noEdges).Names label a →
        ∃ lineage, ((walk settings label).run.run store noEdges).1 = .ok lineage) ∧
      ((command.run settings).run.run store noEdges).1 =
        .ok (.connected "S" subclassEdge "T") ∧
      ((walk settings "S").run.run store ((command.run settings).run.run store noEdges).2).1.map
        (·.classes) = .error (.cycle "T" ["S", "T"]) := by
  intro settings store command
  have hserves := classStore_serves threeClasses "S" "T"
  have hroom : 0 < settings.maxLineageDepth := by decide
  have hconnected := noEdges_connected settings hroom
  refine ⟨noEdges_singleParent, fun _ _ hlabel => noEdges_walks settings hroom hlabel, hconnected,
    ?_⟩
  obtain ⟨s, t, hs, ht, hfree, hgrows⟩ := hserves.grows_of_connected rfl noEdges_singleParent
    (fun label a hlabel => by
      obtain ⟨lineage, hlineage⟩ := noEdges_walks settings hroom hlabel
      exact ⟨lineage, (hserves.walk_run settings label noEdges).symm.trans hlineage⟩) hconnected
  obtain ⟨hsubject, rfl⟩ := classGraph_names_iff.mp hs.names
  obtain ⟨htarget, rfl⟩ := classGraph_names_iff.mp ht.names
  obtain ⟨lineage, hlineage, hclasses⟩ := noEdges_lineage settings hroom hsubject
  obtain ⟨above, habove, hover⟩ := noEdges_lineage settings hroom htarget
  have hafter := hgrows.lineageOf_after hs.names hs.names ht.names hfree hlineage habove
  rw [hclasses, hover] at hafter
  rw [hserves.walk_run]
  exact hafter

end OntologyGraph
