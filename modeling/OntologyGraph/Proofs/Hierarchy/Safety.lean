import OntologyGraph.Proofs.Hierarchy.Handlers

/-!
The hierarchy stays safe whatever handlers do. A handler's work is always on the way of a run of
its command, and each of its exchanges was lawful; so the only request that can make an edge is the
guarded write, and each step keeps what its guards keep.
-/

namespace OntologyGraph

open Schema Store

namespace Exchange

variable {N : Type} {x : Exchange N} {settings : OntologySettings} {command : Command}

/-- An exchange adds no edge, or is that of the guarded write. -/
theorem Lawful.shrinks_or_sets (h : x.Lawful) (hsends : command.Sends settings x.event) :
    x.before.Shrinks x.after ∨ ∃ subject target answer,
      x.before.Sets (Subclass.merge settings.singleInheritance subject target) answer x.after := by
  cases hmake : x.event.query.canMake subclassEdge with
  | false => exact .inl (h.other hmake)
  | true =>
    obtain ⟨write, answer, hwrite, hevent⟩ := hsends.canMake_iff.mp hmake
    obtain ⟨subject, target, -, rfl⟩ := Command.guarded?_eq_some hwrite
    exact .inr ⟨subject, target, answer, h.guarded _ _ _ hevent (Subclass.write_text _ _ _)⟩

/-- No lawful request of a command closes a cycle, whatever other sessions did before it. -/
theorem Lawful.acyclic (h : x.Lawful) (hsends : command.Sends settings x.event)
    (hbefore : x.before.Acyclic) : x.after.Acyclic := by
  rcases h.shrinks_or_sets hsends with hshrinks | ⟨subject, target, answer, hsets⟩
  · exact hshrinks.acyclic hbefore
  · exact hsets.acyclic (Subclass.noPathBack_mem_guards _ subject target) hbefore

/-- No lawful request of a command under single inheritance gives a class a second parent. -/
theorem Lawful.singleParent (h : x.Lawful) (hsends : command.Sends settings x.event)
    (hsingle : settings.singleInheritance = true) (hbefore : x.before.SingleParent) :
    x.after.SingleParent := by
  rcases h.shrinks_or_sets hsends with hshrinks | ⟨subject, target, answer, hsets⟩
  · exact hshrinks.singleParent hbefore
  · rw [hsingle] at hsets
    exact hsets.singleParent (Subclass.noParent_mem_guards subject target) hbefore

end Exchange

/-- The work is on the way of a run of its command, and the store has kept to its laws. -/
structure Work.Sound {N : Type} (settings : OntologySettings) (w : Work N) : Prop where
  reached : (w.command.run settings).run.Reaches (w.exchanges.map (·.event)) w.rest
  lawful : ∀ x ∈ w.exchanges, x.Lawful

namespace Work

variable {N : Type} {settings : OntologySettings} {w : Work N}

/-- A command that has sent nothing yet is sound. -/
theorem sound_begin (settings : OntologySettings) (command : Command) :
    (begin settings command : Work N).Sound settings :=
  ⟨.refl _, fun _ hmem => nomatch hmem⟩

/-- A lawful request and its answer keep the work of a session sound. -/
theorem Sound.request (h : w.Sound settings) {x : Exchange N}
    {rest : Program (Except CommandFault Outcome)} (hrest : w.rest.Reaches [x.event] rest)
    (hlawful : x.Lawful) :
    Sound settings { w with exchanges := w.exchanges ++ [x], rest } where
  reached := by
    rw [List.map_append]
    exact h.reached.trans hrest
  lawful := List.forall_mem_append.mpr ⟨h.lawful, List.forall_mem_singleton.mpr hlawful⟩

/-- Drawing a stamp keeps the work of a session sound: nothing is sent. -/
theorem Sound.draw (h : w.Sound settings) {rest : Program (Except CommandFault Outcome)}
    (hrest : w.rest.Reaches [] rest) : Sound settings { w with rest } where
  reached := by
    have hreached := h.reached.trans hrest
    rwa [List.append_nil] at hreached
  lawful := h.lawful

/-- A request that the work comes to is one that its command sends. -/
theorem Sound.sends (h : w.Sound settings) {event : Event}
    {rest : Program (Except CommandFault Outcome)} (hrest : w.rest.Reaches [event] rest) :
    w.command.Sends settings event :=
  Command.sends_of_reaches (h.reached.trans hrest)

/-- A command to set a subclass edge answers that it is connected exactly when one of its exchanges
was its own guarded write, and made the edge. -/
theorem Sound.connected_iff (h : w.Sound settings) {subject target : NodePattern}
    (hcommand : w.command = .connect .setSubclass subject target)
    {result : Except CommandFault Outcome} (hdone : w.rest = .done result) :
    (∃ a edge b, result = .ok (.connected a edge b)) ↔
      ∃ x ∈ w.exchanges, x.MakesEdge settings.singleInheritance subject target := by
  have hrun := h.reached
  rw [hdone, hcommand] at hrun
  have hcourse := Command.run_course hrun
  have hdiscipline := Command.course_discipline hcourse
  constructor
  · rintro ⟨a, edge, b, rfl⟩
    rcases hdiscipline.reports_write_iff.mp ⟨_, rfl, rfl⟩ with ⟨write, hmem⟩ |
      ⟨write, hwrite, row, rows, hmem⟩
    · cases hdiscipline.subclass_not_executed subject target rfl _ hmem
    · cases hwrite
      obtain ⟨x, hx, hevent⟩ := List.mem_map.mp hmem
      obtain ⟨hrow, hparent⟩ := (h.lawful x hx).guarded _ _ _ hevent (Subclass.write_text _ _ _)
      obtain ⟨s, t, heligible⟩ := hrow.mp (List.cons_ne_nil row rows)
      exact ⟨x, hx, _, s, t, hevent, List.cons_ne_nil row rows, heligible,
        (hparent s t).mpr (.inr heligible)⟩
  · rintro ⟨x, hx, rows, s, t, hevent, hrows, -, -⟩
    obtain ⟨row, rows, rfl⟩ := List.exists_cons_of_ne_nil hrows
    have hmem : Event.fetch (Subclass.write settings.singleInheritance subject target)
        (.ok (row :: rows)) ∈ w.exchanges.map (·.event) := List.mem_map.mpr ⟨x, hx, hevent⟩
    obtain ⟨outcome, rfl, hwrite⟩ :=
      hdiscipline.reports_write_iff.mpr (.inr ⟨_, rfl, row, rows, hmem⟩)
    exact ⟨_, _, _, congrArg _ (hcourse.connected rfl hwrite)⟩

end Work

namespace Handlers

variable {ι N : Type} [DecidableEq ι] {settings : ι → OntologySettings} {S S' : Handlers ι N}
  {start : Hierarchy N}

def Sound (settings : ι → OntologySettings) (S : Handlers ι N) : Prop :=
  ∀ i w, S.work i = some w → w.Sound (settings i)

/-- Sessions stay sound if the one that took the step is. -/
theorem Sound.update (h : S.Sound settings) {i : ι} {w : Work N} (hw : w.Sound (settings i))
    (graph : Hierarchy N) :
    Sound settings ⟨graph, Function.update S.work i (some w)⟩ := by
  intro j v hv
  change Function.update S.work i (some w) j = some v at hv
  by_cases hj : j = i
  · subst hj
    rw [Function.update_self] at hv
    cases hv
    exact hw
  · rw [Function.update_of_ne hj] at hv
    exact h j v hv

/-- One step of one session keeps all sessions sound. -/
theorem Step.sound (hstep : Step settings S S') (h : S.Sound settings) : S'.Sound settings := by
  cases hstep with
  | begin i command => exact h.update (Work.sound_begin (settings i) command) S.graph
  | request hwork hrest hlawful =>
    have hw := h _ _ hwork
    exact h.update (hw.request hrest hlawful) _
  | draw hwork hrest =>
    have hw := h _ _ hwork
    exact h.update (hw.draw hrest) S.graph

/-- A step leaves the graph as it is, or is a lawful exchange of something that a command sends. -/
theorem Step.graph_cases (hstep : Step settings S S') (h : S.Sound settings) :
    S'.graph = S.graph ∨ ∃ i command, ∃ x : Exchange N, x.before = S.graph ∧
      x.after = S'.graph ∧ Command.Sends (settings i) command x.event ∧ x.Lawful := by
  cases hstep with
  | begin i command => exact .inl rfl
  | @request i w event rest after hwork hrest hlawful =>
    exact .inr ⟨i, w.command, ⟨S.graph, event, after⟩, rfl, rfl, (h i w hwork).sends hrest, hlawful⟩
  | draw hwork hrest => exact .inl rfl

/-- One step of one session keeps the graph acyclic. -/
theorem Step.acyclic (hstep : Step settings S S') (h : S.Sound settings)
    (hgraph : S.graph.Acyclic) : S'.graph.Acyclic := by
  rcases hstep.graph_cases h with hsame | ⟨i, command, x, hbefore, hafter, hsends, hlawful⟩
  · rwa [hsame]
  · rw [← hafter]
    exact hlawful.acyclic hsends (hbefore ▸ hgraph)

/-- One step of one session keeps the parents single. -/
theorem Step.singleParent (hstep : Step settings S S') (h : S.Sound settings)
    (hsingle : ∀ i, (settings i).singleInheritance = true) (hgraph : S.graph.SingleParent) :
    S'.graph.SingleParent := by
  rcases hstep.graph_cases h with hsame | ⟨i, command, x, hbefore, hafter, hsends, hlawful⟩
  · rwa [hsame]
  · rw [← hafter]
    exact hlawful.singleParent hsends (hsingle i) (hbefore ▸ hgraph)

/-- By induction on the steps taken, all sessions are sound in every state reached. -/
theorem Reachable.sound (h : Reachable settings start S) : S.Sound settings := by
  induction h with
  | refl => exact fun i w hw => nomatch hw
  | tail _ hstep ih => exact hstep.sound ih

theorem Reachable.acyclic (h : Reachable settings start S) (hstart : start.Acyclic) :
    S.graph.Acyclic := by
  induction h with
  | refl => exact hstart
  | tail hreach hstep ih => exact hstep.acyclic (Reachable.sound hreach) ih

theorem Reachable.singleParent (h : Reachable settings start S)
    (hsingle : ∀ i, (settings i).singleInheritance = true) (hstart : start.SingleParent) :
    S.graph.SingleParent := by
  induction h with
  | refl => exact hstart
  | tail hreach hstep ih => exact hstep.singleParent (Reachable.sound hreach) hsingle ih

/-- What holds of the hierarchy and of each handler at every moment. -/
structure Safe (settings : ι → OntologySettings) (start : Hierarchy N) (S : Handlers ι N) :
    Prop where
  acyclic : start.Acyclic → S.graph.Acyclic
  single_parent : (∀ i, (settings i).singleInheritance = true) → start.SingleParent →
    S.graph.SingleParent
  /-- The only read that could make an edge is the guarded write of a subclass edge. -/
  read_makes_iff : ∀ i w query next, S.work i = some w → w.rest = .fetch query next →
    (query.canMake subclassEdge = true ↔ w.command.guarded? (settings i) = some query)
  write_makes_none : ∀ i w query next, S.work i = some w → w.rest = .execute query next →
    query.canMake subclassEdge = false
  /-- A handler reports a subclass edge as set exactly when its own guarded write has set it. -/
  connected_iff : ∀ i w subject target result, S.work i = some w →
    w.command = .connect .setSubclass subject target → w.rest = .done result →
    ((∃ a edge b, result = .ok (.connected a edge b)) ↔
      ∃ x ∈ w.exchanges, x.MakesEdge (settings i).singleInheritance subject target)

/-- Whatever commands any number of handlers run on one graph, in whatever order their requests
come and however old the answers to their checks are, the hierarchy stays safe. -/
theorem reachable_safe (h : Reachable settings start S) : Safe settings start S where
  acyclic := h.acyclic
  single_parent := h.singleParent
  read_makes_iff i w query next hwork hrest := by
    have hreach : w.rest.Reaches [.fetch query (.ok [])] (next (.ok [])) := by
      rw [hrest]
      exact .fetch (.refl _)
    have hsends := (h.sound i w hwork).sends hreach
    refine hsends.canMake_iff.trans ?_
    constructor
    · rintro ⟨write, rows, hwrite, hsame⟩
      cases hsame
      exact hwrite
    · intro hwrite
      exact ⟨query, .ok [], hwrite, rfl⟩
  write_makes_none i w query next hwork hrest := by
    have hreach : w.rest.Reaches [.execute query (.ok ())] (next (.ok ())) := by
      rw [hrest]
      exact .execute (.refl _)
    have hsends := (h.sound i w hwork).sends hreach
    apply Bool.eq_false_iff.mpr
    intro hmake
    obtain ⟨write, rows, -, hsame⟩ := hsends.canMake_iff.mp hmake
    cases hsame
  connected_iff i w subject target result hwork hcommand hdone :=
    (h.sound i w hwork).connected_iff hcommand hdone

theorem Reachable.begin (h : Reachable settings start S) (i : ι) (command : Command) :
    Reachable settings start
      ⟨S.graph, Function.update S.work i (some (.begin (settings i) command))⟩ :=
  h.tail (.begin i command)

theorem Reachable.fetch (h : Reachable settings start S) {i : ι} {w : Work N} {query : Query}
    {next : Rows → Program (Except CommandFault Outcome)} {rows : Rows} {after : Hierarchy N}
    (hwork : S.work i = some w) (hrest : w.rest = .fetch query next)
    (hlawful : Exchange.Lawful ⟨S.graph, .fetch query rows, after⟩) :
    Reachable settings start
      ⟨after, Function.update S.work i (some ⟨w.command,
        w.exchanges ++ [⟨S.graph, .fetch query rows, after⟩], next rows⟩)⟩ := by
  have hreach : w.rest.Reaches [.fetch query rows] (next rows) := by
    rw [hrest]
    exact .fetch (.refl _)
  exact h.tail (.request hwork hreach hlawful)

def raceLabel : Bool → String
  | false => "A"
  | true => "B"

private theorem raceLabel_inj {a b : Bool} (h : raceLabel a = raceLabel b) : a = b := by
  revert a b
  decide

def raceGraph (parent : Bool → Bool → Prop) : Hierarchy Bool where
  isClass _ := True
  property a key := if key = "label" then some (raceLabel a) else none
  parent := parent
  label_unique a b label _ _ ha hb := by
    rw [if_pos rfl, Option.some.injEq] at ha hb
    exact raceLabel_inj (ha.trans hb.symm)

def racePattern (a : Bool) : NodePattern where
  label := raceLabel a

private theorem raceGraph_matches_iff {parent : Bool → Bool → Prop} {a b : Bool} :
    (raceGraph parent).Matches (racePattern a) b ↔ b = a := by
  constructor
  · intro h
    have hlabel : some (raceLabel b) = some (raceLabel a) := h.label
    exact raceLabel_inj (Option.some.inj hlabel)
  · rintro rfl
    refine ⟨trivial, ?_⟩
    intro pair hpair
    rw [List.mem_singleton.mp hpair]
    rfl

/-- Without edges the first write sets its own. -/
private theorem raceGraph_sets :
    (raceGraph fun _ _ => False).Sets
      (Subclass.merge true (racePattern false) (racePattern true)) (.ok [.empty])
      (raceGraph fun a b => a = false ∧ b = true) := by
  have heligible (a b : Bool) : (raceGraph fun _ _ => False).Eligible
      (Subclass.merge true (racePattern false) (racePattern true)) a b ↔ a = false ∧ b = true := by
    constructor
    · rintro ⟨hs, ht, -⟩
      exact ⟨raceGraph_matches_iff.mp hs, raceGraph_matches_iff.mp ht⟩
    · rintro ⟨rfl, rfl⟩
      refine ⟨raceGraph_matches_iff.mpr rfl, raceGraph_matches_iff.mpr rfl, ?_⟩
      rintro (_ | _) _
      · intro hpath
        rcases hpath.cases_head with hsame | ⟨_, hparent, -⟩
        · cases hsame
        · exact hparent
      · exact fun _ hparent => hparent
  refine ⟨iff_of_true (List.cons_ne_nil _ _) ⟨false, true, (heligible _ _).mpr ⟨rfl, rfl⟩⟩, ?_⟩
  intro a b
  rw [heligible]
  exact (or_iff_right id).symm

/-- With that edge the write of the opposite one is refused. -/
private theorem raceGraph_refuses :
    (raceGraph fun a b => a = false ∧ b = true).Sets
      (Subclass.merge true (racePattern true) (racePattern false)) (.ok [])
      (raceGraph fun a b => a = false ∧ b = true) := by
  have hnone (a b : Bool) : ¬ (raceGraph fun a b => a = false ∧ b = true).Eligible
      (Subclass.merge true (racePattern true) (racePattern false)) a b := by
    intro h
    obtain rfl := raceGraph_matches_iff.mp h.subject_matches
    obtain rfl := raceGraph_matches_iff.mp h.target_matches
    exact h.no_path (Subclass.noPathBack_mem_guards _ _ _) (.single ⟨rfl, rfl⟩)
  refine ⟨iff_of_false (not_not_intro rfl) fun ⟨a, b, h⟩ => hnone a b h, ?_⟩
  intro a b
  exact (or_iff_left (hnone a b)).symm

/-- Both handlers have probed and checked before either writes. The first gets its edge, and the
second is refused by the guard. -/
theorem race_safe :
    ∃ S : Handlers Bool Bool, Reachable (fun _ => {}) (raceGraph fun _ _ => False) S ∧
      (∃ w, S.work false = some w ∧ w.rest = .done (.ok (.connected "A" subclassEdge "B"))) ∧
      Safe (fun _ => {}) (raceGraph fun _ _ => False) S := by
  let command (a : Bool) : Command := .connect .setSubclass (racePattern a) (racePattern !a)
  have hprobe (a : Bool) := connectionProbe_canMake .setSubclass (racePattern a) (racePattern !a)
  have hparents (a : Bool) : (aboutClass Subclass.parentsQuery (raceLabel a)).canMake
      subclassEdge = false := lookup_canMake (by simp [lookupTexts]) _
  have hclass (a : Bool) : (aboutClass classQuery (raceLabel !a)).canMake subclassEdge = false :=
    lookup_canMake (by simp [lookupTexts]) _
  have hstart : Reachable (fun _ : Bool => {}) (raceGraph fun _ _ => False)
      (idle (raceGraph fun _ _ => False)) := .refl
  have h₀ := (hstart.begin false (command false)).begin true (command true)
  have h₁ := h₀.fetch (i := false) rfl rfl (.of_unchanged _ (.ok [.empty]) (hprobe false))
  have h₂ := h₁.fetch (i := true) rfl rfl (.of_unchanged _ (.ok [.empty]) (hprobe true))
  have h₃ := h₂.fetch (i := false) rfl rfl (.of_unchanged _ (.ok []) (hparents false))
  have h₄ := h₃.fetch (i := true) rfl rfl (.of_unchanged _ (.ok []) (hparents true))
  have h₅ := h₄.fetch (i := false) rfl rfl (.of_unchanged _ (.ok []) (hclass false))
  have h₆ := h₅.fetch (i := true) rfl rfl (.of_unchanged _ (.ok []) (hclass true))
  have h₇ := h₆.fetch (i := false) rfl rfl (.of_sets (Subclass.write_text _ _ _) raceGraph_sets)
  have h₈ := h₇.fetch (i := true) rfl rfl (.of_sets (Subclass.write_text _ _ _) raceGraph_refuses)
  exact ⟨_, h₈, ⟨_, rfl, rfl⟩, reachable_safe h₈⟩

end Handlers

end OntologyGraph
