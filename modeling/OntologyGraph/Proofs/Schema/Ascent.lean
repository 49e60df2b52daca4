import Mathlib.Data.String.Basic
import OntologyGraph.Proofs.Schema.Climb
import OntologyGraph.Proofs.Schema.StoredLabels

/-!
Where a walk ends on a steady store. The parents of the classes lay down one chain from the label
on, which may be endless. The walk takes the chain's classes one by one until the chain ends, comes
back to a class, has one class too many, or reaches a class with more parents than the settings
allow.
-/

namespace OntologyGraph.Schema

open Store

section Chain

variable (parents : String → List String) (settings : OntologySettings) (label : String)

/-- The class above another: the least of several parents. -/
def nextClass (label : String) : Option String :=
  (parents label).min?

def classAt (label : String) : Nat → Option String
  | 0 => some label
  | i + 1 => (classAt label i).bind (nextClass parents)

def Walked (classes : List String) : Prop :=
  ∀ i < classes.length, classAt parents label i = classes[i]?

/-- The first classes of the chain as far as a walk may take them all. -/
structure Ascends (classes : List String) : Prop where
  walked : Walked parents label classes
  distinct : classes.Nodup
  within : classes.length ≤ settings.maxLineageDepth
  single : settings.singleInheritance = true → ∀ c ∈ classes, (parents c).length ≤ 1

/-- What a walk comes to: the classes of a lineage, or a fault at the first class that it cannot
take. -/
inductive Comes : Except OntologyFault (List String) → Prop where
  /-- All classes up to one without parents are taken. -/
  | root {classes : List String} {root : String} :
      Ascends parents settings label (classes ++ [root]) → parents root = [] →
      Comes (.ok (classes ++ [root]))
  /-- The next class is one of those before it. -/
  | back {classes : List String} {next : String} :
      Ascends parents settings label classes →
      classAt parents label classes.length = some next → next ∈ classes →
      Comes (.error (.cycle next (classes ++ [next])))
  /-- The next class would be one too many. -/
  | tooFar {classes : List String} {next : String} :
      Ascends parents settings label classes →
      classAt parents label classes.length = some next →
      classes.length = settings.maxLineageDepth →
      Comes (.error (.cycle next (classes ++ [next])))
  /-- The next class is the first with several parents, and only one is allowed. -/
  | severalParents {classes : List String} {next : String} :
      Ascends parents settings label classes →
      classAt parents label classes.length = some next → next ∉ classes →
      classes.length < settings.maxLineageDepth → settings.singleInheritance = true →
      2 ≤ (parents next).length →
      Comes (.error (.multipleFound "parent class" next (parents next).length))

end Chain

variable {parents : String → List String} {settings : OntologySettings} {label : String}

/-- The chain goes on from each of its classes as the chain from there. -/
theorem classAt_add {label' : String} {i : Nat} (h : classAt parents label i = some label')
    (k : Nat) : classAt parents label (i + k) = classAt parents label' k := by
  induction k with
  | zero => exact h
  | succ k ih => rw [Nat.add_succ, classAt, ih, classAt]

/-- A walk is longer by a class exactly if this class comes next. -/
theorem walked_concat_iff {classes : List String} {next : String} :
    Walked parents label (classes ++ [next]) ↔
      Walked parents label classes ∧ classAt parents label classes.length = some next := by
  constructor
  · intro h
    constructor
    · intro i hi
      rw [h i (by rw [List.length_append]; omega), List.getElem?_append_left hi]
    · rw [h classes.length (by rw [List.length_append]; exact Nat.lt_succ_self _),
        List.getElem?_concat_length]
  · rintro ⟨hbefore, hnext⟩ i hi
    rw [List.length_append, List.length_singleton] at hi
    rcases Nat.lt_succ_iff_lt_or_eq.mp hi with hlt | rfl
    · rw [hbefore i hlt, List.getElem?_append_left hlt]
    · rw [hnext, List.getElem?_concat_length]

/-- A class is walked through exactly if it stands at some place of the walk. -/
theorem Walked.mem_iff {classes : List String} (h : Walked parents label classes) {c : String} :
    c ∈ classes ↔ ∃ i < classes.length, classAt parents label i = some c := by
  constructor
  · intro hmem
    obtain ⟨i, hi, rfl⟩ := List.mem_iff_getElem.mp hmem
    exact ⟨i, hi, (h i hi).trans (List.getElem?_eq_getElem hi)⟩
  · rintro ⟨i, hi, hclass⟩
    rw [h i hi] at hclass
    exact List.mem_of_getElem? hclass

/-- There is one chain, so of two beginnings of it the shorter begins the longer. -/
theorem Walked.prefix_of_length_le {before classes : List String}
    (hbefore : Walked parents label before) (hclasses : Walked parents label classes)
    (hle : before.length ≤ classes.length) : before <+: classes := by
  rw [List.prefix_iff_eq_take]
  apply List.ext_getElem?
  intro i
  by_cases hi : i < before.length
  · rw [List.getElem?_take_of_lt hi, ← hbefore i hi, hclasses i (by omega)]
  · rw [List.getElem?_eq_none (by omega),
      List.getElem?_eq_none (by rw [List.length_take]; omega)]

private theorem Ascends.of_begins {before classes : List String}
    (h : Ascends parents settings label classes) (hbegins : before <+: classes) :
    Ascends parents settings label before where
  walked i hi := by
    obtain ⟨rest, rfl⟩ := hbegins
    rw [h.walked i (by rw [List.length_append]; omega), List.getElem?_append_left hi]
  distinct := hbegins.sublist.nodup h.distinct
  within := hbegins.length_le.trans h.within
  single hsingle c hc := h.single hsingle c (hbegins.subset hc)

/-- A walk that has taken no class yet is within all limits. -/
theorem ascends_nil : Ascends parents settings label [] where
  walked _ hi := absurd hi (Nat.not_lt_zero _)
  distinct := List.nodup_nil
  within := Nat.zero_le _
  single _ _ hc := absurd hc List.not_mem_nil

/-- A walk goes on by a class that is new, below the limit, and unambiguous where it has to be. -/
theorem Ascends.concat {classes : List String} {next : String}
    (h : Ascends parents settings label classes)
    (hnext : classAt parents label classes.length = some next) (hfresh : next ∉ classes)
    (hroom : classes.length < settings.maxLineageDepth)
    (hsingle : settings.singleInheritance = true → (parents next).length ≤ 1) :
    Ascends parents settings label (classes ++ [next]) where
  walked := walked_concat_iff.mpr ⟨h.walked, hnext⟩
  distinct := by
    refine List.nodup_append.mpr ⟨h.distinct, List.pairwise_singleton _ next, ?_⟩
    rintro c hc _ hnew rfl
    rw [List.mem_singleton.mp hnew] at hc
    exact hfresh hc
  within := by
    rw [List.length_append, List.length_singleton]
    exact hroom
  single hon c hc := by
    rcases List.mem_append.mp hc with hc | hc
    · exact h.single hon c hc
    · rw [List.mem_singleton.mp hc]
      exact hsingle hon

/-- A class that a walk takes after others is new, and there is room for it. -/
theorem Ascends.fresh_and_room {classes : List String} {next : String}
    (h : Ascends parents settings label (classes ++ [next])) :
    next ∉ classes ∧ classes.length < settings.maxLineageDepth := by
  obtain ⟨-, -, hdistinct⟩ := List.nodup_append.mp h.distinct
  have hwithin := h.within
  rw [List.length_append, List.length_singleton] at hwithin
  exact ⟨fun hmem => hdistinct next hmem next (List.mem_singleton_self next) rfl, hwithin⟩

private theorem Walked.of_begins {before classes : List String} (h : Walked parents label classes)
    (hbegins : before <+: classes) : Walked parents label before := by
  intro i hi
  obtain ⟨rest, rfl⟩ := hbegins
  rw [h i (by rw [List.length_append]; omega), List.getElem?_append_left hi]

/-- Only the last class of a chain can be without parents. -/
theorem Walked.eq_last {classes : List String} {last c : String}
    (h : Walked parents label (classes ++ [last])) (hmem : c ∈ classes ++ [last])
    (hroot : parents c = []) : c = last := by
  obtain ⟨i, hi, hclass⟩ := h.mem_iff.mp hmem
  rw [List.length_append, List.length_singleton] at hi
  rcases Nat.lt_succ_iff_lt_or_eq.mp hi with hlt | rfl
  · have hup : i + 1 < (classes ++ [last]).length := by
      rw [List.length_append, List.length_singleton]
      omega
    have habove := h (i + 1) hup
    rw [classAt, hclass, Option.bind_some, nextClass, hroot, List.min?_nil,
      List.getElem?_eq_getElem hup] at habove
    cases habove
  · rw [(walked_concat_iff.mp h).2] at hclass
    exact (Option.some.inj hclass).symm

/-- A chain goes on as the chain from the class above its last. -/
theorem Walked.append {classes classes' : List String} {last next : String}
    (h : Walked parents label (classes ++ [last])) (hnext : nextClass parents last = some next)
    (h' : Walked parents next classes') : Walked parents label (classes ++ [last] ++ classes') := by
  have habove : classAt parents label (classes ++ [last]).length = some next := by
    rw [List.length_append, List.length_singleton, classAt, (walked_concat_iff.mp h).2]
    exact hnext
  intro i hi
  rcases Nat.lt_or_ge i (classes ++ [last]).length with hlt | hge
  · rw [h i hlt, List.getElem?_append_left hlt]
  · obtain ⟨k, rfl⟩ := Nat.exists_eq_add_of_le hge
    have hk : k < classes'.length := by
      simp only [List.length_append] at hi
      omega
    rw [classAt_add habove, h' k hk, List.getElem?_append_right hge, Nat.add_sub_cancel_left]

/-- The end of a walk over `classes`: the walk stops at a class that is one too many. -/
def capped (settings : OntologySettings) (classes : List String) :
    Except OntologyFault (List String) :=
  match classes[settings.maxLineageDepth]? with
  | none => .ok classes
  | some next => .error (.cycle next (classes.take settings.maxLineageDepth ++ [next]))

/-- A chain of single parents up to a root ends in all its classes, or in a fault at the limit if
that comes first. -/
theorem comes_capped {classes : List String} {root : String}
    (hwalked : Walked parents label (classes ++ [root])) (hdistinct : (classes ++ [root]).Nodup)
    (hsingle : ∀ c ∈ classes ++ [root], (parents c).length ≤ 1)
    (hroot : parents root = []) :
    Comes parents settings label (capped settings (classes ++ [root])) := by
  unfold capped
  cases hnext : (classes ++ [root])[settings.maxLineageDepth]? with
  | none =>
    have hroom := List.getElem?_eq_none_iff.mp hnext
    exact .root ⟨hwalked, hdistinct, hroom, fun _ => hsingle⟩ hroot
  | some next =>
    obtain ⟨hlt, -⟩ := List.getElem?_eq_some_iff.mp hnext
    have hbegins := List.take_prefix settings.maxLineageDepth (classes ++ [root])
    have hlength : ((classes ++ [root]).take settings.maxLineageDepth).length =
        settings.maxLineageDepth := by
      rw [List.length_take]
      omega
    refine .tooFar ⟨hwalked.of_begins hbegins, hbegins.sublist.nodup hdistinct, hlength.le,
      fun _ c hc => hsingle c (hbegins.subset hc)⟩ ?_ hlength
    rw [hlength, hwalked _ hlt, hnext]

/-- The walk takes `classes` and goes no further than `next`. -/
structure Stops (parents : String → List String) (settings : OntologySettings) (label : String)
    (classes : List String) (next : String) : Prop where
  ascends : Ascends parents settings label classes
  reached : classAt parents label classes.length = some next
  last : Ascends parents settings label (classes ++ [next]) → parents next = []

def verdict (parents : String → List String) (settings : OntologySettings) (classes : List String)
    (next : String) : Except OntologyFault (List String) :=
  if next ∈ classes ∨ classes.length = settings.maxLineageDepth then
    .error (.cycle next (classes ++ [next]))
  else if parents next = [] then .ok (classes ++ [next])
  else .error (.multipleFound "parent class" next (parents next).length)

/-- Every end of a walk is the verdict on the place where it stopped. -/
theorem Comes.exists_stops {result : Except OntologyFault (List String)}
    (h : Comes parents settings label result) :
    ∃ classes next, Stops parents settings label classes next ∧
      result = verdict parents settings classes next := by
  cases h with
  | @root classes root hascends hroot =>
    obtain ⟨hfresh, hroom⟩ := hascends.fresh_and_room
    have hbefore := hascends.of_begins (List.prefix_append classes [root])
    refine ⟨classes, root, ⟨hbefore, (walked_concat_iff.mp hascends.walked).2, fun _ => hroot⟩, ?_⟩
    rw [verdict, if_neg (not_or_intro hfresh (by omega)), if_pos hroot]
  | @back classes next hascends hnext hmem =>
    refine ⟨classes, next, ⟨hascends, hnext, ?_⟩, ?_⟩
    · intro hmore
      exact absurd hmem hmore.fresh_and_room.1
    · rw [verdict, if_pos (.inl hmem)]
  | @tooFar classes next hascends hnext hfull =>
    refine ⟨classes, next, ⟨hascends, hnext, ?_⟩, ?_⟩
    · intro hmore
      exact absurd hfull hmore.fresh_and_room.2.ne
    · rw [verdict, if_pos (.inr hfull)]
  | @severalParents classes next hascends hnext hfresh hroom hsingle hseveral =>
    refine ⟨classes, next, ⟨hascends, hnext, ?_⟩, ?_⟩
    · intro hmore
      have hone := hmore.single hsingle next
        (List.mem_append_right _ (List.mem_singleton_self next))
      omega
    · have hsome : parents next ≠ [] :=
        List.ne_nil_of_length_pos (by omega)
      rw [verdict, if_neg (not_or_intro hfresh (by omega)), if_neg hsome]

/-- Of two places where a walk stops, the one that the walk comes to first is one that it passes on
its way to the other. -/
theorem Stops.unique_of_length_le {classes classes' : List String} {next next' : String}
    (h : Stops parents settings label classes next)
    (h' : Stops parents settings label classes' next')
    (hle : classes.length ≤ classes'.length) : classes = classes' ∧ next = next' := by
  have hbegins : classes ++ [next] <+: classes' ++ [next'] := by
    have hwalked := walked_concat_iff.mpr ⟨h.ascends.walked, h.reached⟩
    have hwalked' := walked_concat_iff.mpr ⟨h'.ascends.walked, h'.reached⟩
    refine hwalked.prefix_of_length_le hwalked' ?_
    simpa only [List.length_append, List.length_singleton, Nat.add_le_add_iff_right] using hle
  rcases List.prefix_concat_iff.mp hbegins with heq | hearlier
  · obtain ⟨hclasses, hnext⟩ := List.append_inj' heq rfl
    exact ⟨hclasses, List.singleton_inj.mp hnext⟩
  · -- The chain ends above `next`, and yet goes on above it.
    have hroot := h.last (h'.ascends.of_begins hearlier)
    have hend : classAt parents label (classes.length + 1) = none := by
      rw [classAt, h.reached, Option.bind_some, nextClass, hroot, List.min?_nil]
    have hlength := hearlier.length_le
    rw [List.length_append, List.length_singleton] at hlength
    rcases Nat.lt_or_eq_of_le hlength with hlt | heq
    · rw [h'.ascends.walked _ hlt, List.getElem?_eq_getElem hlt] at hend
      cases hend
    · rw [heq, h'.reached] at hend
      cases hend

/-- A walk has one end: the parents, the settings and the label determine it. -/
theorem Comes.unique {result result' : Except OntologyFault (List String)}
    (h : Comes parents settings label result) (h' : Comes parents settings label result') :
    result = result' := by
  obtain ⟨classes, next, hstops, rfl⟩ := h.exists_stops
  obtain ⟨classes', next', hstops', rfl⟩ := h'.exists_stops
  rcases Nat.le_total classes.length classes'.length with hle | hle
  · obtain ⟨rfl, rfl⟩ := hstops.unique_of_length_le hstops' hle
    rfl
  · obtain ⟨rfl, rfl⟩ := hstops'.unique_of_length_le hstops hle
    rfl

theorem readsParents_parentLabels (answers : Query → List Row) :
    ReadsParents answers (parentLabels answers) := by
  intro label
  rw [parentLabels, List.forall₂_map_right_iff, List.forall₂_same]
  exact fun row _ => cleanLabel_eq_iff.mp rfl

/-- A stored label is that of one class only. -/
theorem ReadsParents.eq_parentLabels {answers : Query → List Row}
    (h : ReadsParents answers parents) : parents = parentLabels answers := by
  funext label
  have hrows : List.Forall₂ (· = ·) (parentLabels answers label) (parents label) := by
    rw [parentLabels, List.forall₂_map_left_iff]
    exact (h label).imp fun row parent hstored => cleanLabel_eq_iff.mpr hstored
  rw [List.forall₂_eq_eq_eq] at hrows
  exact hrows.symm

variable {answers : Query → List Row}

private theorem head?_mergeSort (labels : List String) :
    (labels.mergeSort fun a b => !(b < a)).head? = labels.min? := by
  have hperm := List.mergeSort_perm labels fun a b => !(b < a)
  have hsorted : (labels.mergeSort fun a b => !(b < a)).Pairwise (· ≤ ·) := by
    have hle (a b : String) : (!decide (b < a)) = true ↔ a ≤ b := by
      rw [Bool.not_eq_true', decide_eq_false_iff_not, not_lt]
    refine (List.pairwise_mergeSort ?_ ?_ labels).imp fun {a b} h => (hle a b).mp h
    · intro a b c hab hbc
      exact (hle a c).mpr (((hle a b).mp hab).trans ((hle b c).mp hbc))
    · intro a b
      rw [Bool.or_eq_true, hle, hle]
      exact le_total a b
  cases hsort : labels.mergeSort fun a b => !(b < a) with
  | nil =>
    rw [hsort] at hperm
    rw [← hperm.nil_eq]
    rfl
  | cons least rest =>
    rw [hsort] at hperm hsorted
    symm
    refine List.min?_eq_some_iff.mpr ⟨hperm.subset List.mem_cons_self, ?_⟩
    intro b hb
    rcases List.mem_cons.mp (hperm.symm.subset hb) with rfl | hrest
    · exact le_rfl
    · exact (List.pairwise_cons.mp hsorted).1 b hrest

/-- Sorting the parents brings the least to the front. -/
theorem chooseParent_eq (single : Bool) (label : String) (parents : List String) :
    chooseParent single label parents =
      if single = true ∧ 2 ≤ parents.length then
        .error (.multipleFound "parent class" label parents.length)
      else .ok parents.min? := by
  have hlength := (List.mergeSort_perm parents fun a b => !(b < a)).length_eq
  rw [chooseParent, ← head?_mergeSort]
  match hsort : parents.mergeSort fun a b => !(b < a) with
  | [] =>
    rw [hsort] at hlength
    rw [if_neg (by rw [← hlength]; simp)]
    rfl
  | [parent] =>
    rw [hsort] at hlength
    rw [if_neg (by rw [← hlength]; simp)]
    rfl
  | first :: second :: rest =>
    rw [hsort] at hlength
    have hseveral : 2 ≤ parents.length := by
      rw [← hlength]
      exact Nat.le_add_left 2 _
    simp only [hseveral, and_true]
    rfl

/-- By induction on the classes left. What carries it is that the classes behind are a beginning of
the chain that a walk may take, and that with those left they make up the greatest depth. -/
theorem climb_comes (left : Nat) (before : Lineage) (next : String)
    (hascends : Ascends (parentLabels answers) settings label before.classes)
    (hnext : classAt (parentLabels answers) label before.classes.length = some next)
    (hleft : before.classes.length + left = settings.maxLineageDepth) :
    Comes (parentLabels answers) settings label
      ((climb answers settings.singleInheritance left before next).map (·.classes)) := by
  induction left generalizing before next with
  | zero => exact .tooFar hascends hnext hleft
  | succ left ih =>
    rw [climb]
    split
    · next hmem => exact .back hascends hnext (List.contains_iff_mem.mp hmem)
    · next hmem =>
      have hfresh : next ∉ before.classes := fun h => hmem (List.contains_iff_mem.mpr h)
      have hroom : before.classes.length < settings.maxLineageDepth := by omega
      rw [chooseParent_eq]
      by_cases hseveral :
          settings.singleInheritance = true ∧ 2 ≤ (parentLabels answers next).length
      · rw [if_pos hseveral]
        exact .severalParents hascends hnext hfresh hroom hseveral.1 hseveral.2
      · rw [if_neg hseveral]
        have hmore := hascends.concat hnext hfresh hroom fun hsingle => by
          have hfew := not_and.mp hseveral hsingle
          omega
        cases hparent : (parentLabels answers next).min? with
        | none => exact .root hmore (List.min?_eq_none_iff.mp hparent)
        | some parent =>
          have habove : classAt (parentLabels answers) label (before.classes ++ [next]).length =
              some parent := by
            rw [List.length_append, List.length_singleton, classAt, hnext, Option.bind_some,
              nextClass, hparent]
          refine ih (before.extend answers next) parent hmore habove ?_
          rw [Lineage.extend, List.length_append, List.length_singleton]
          omega

/-- The end of the walk from the label of one class, as the rows have it. -/
theorem lineageOf_comes (hone : (answers (aboutClass classQuery label)).length = 1) :
    Comes (parentLabels answers) settings label
      ((lineageOf answers settings label).map (·.classes)) := by
  rw [lineageOf, hone]
  exact climb_comes _ ⟨[], .empty, []⟩ label ascends_nil rfl (Nat.zero_add _)

def labelRow (label : String) : Row :=
  .ofList [("label", .text label)]

/-- Every label names a class with one parent, whose label is longer. -/
def endlessAnswers (query : Query) : List Row :=
  if query.text = classQuery then [query.params]
  else if query.text = parentQuery then [labelRow (Row.text query.params "label" ++ "+")]
  else []

/-- Prepared rows of two classes, each the parent of the other. One is stored in backticks. -/
def twoClasses : Canned :=
  let store : Canned := { supply := { stamps := fun _ => .zero } }
  let classes := store.addRows (aboutClass classQuery "A") [labelRow "A"]
  let below := classes.addRows (aboutClass parentQuery "A") [labelRow "B"]
  below.addRows (aboutClass parentQuery "B") [labelRow "\x60A\x60"]

/-- How a walk on a steady store ends, and that it does. -/
structure WalkEnds (parents : String → List String) (settings : OntologySettings) (label : String)
    (result : Except OntologyFault Lineage) (log : List Event) : Prop where
  end_iff : ∀ fate, result.map (·.classes) = fate ↔ Comes parents settings label fate
  few_requests : log.length ≤ 1 + 4 * settings.maxLineageDepth

/-- On a steady store with one class for the label, the walk ends as the chain of parents has it.
The parents of a class are those of its rows, their labels without the backticks around them. -/
theorem walk_ends {σ : Type} {backend : Backend σ} {answers : Query → List Row} {state : σ}
    (hsteady : backend.Steady answers state) (settings : OntologySettings) (label : String)
    (hone : (answers (aboutClass classQuery label)).length = 1) :
    ∃ parents, ReadsParents answers parents ∧
      WalkEnds parents settings label ((walk settings label).run.run backend state).1
        ((walk settings label).run.trace backend state) := by
  have hcomes : Comes (parentLabels answers) settings label
      (((walk settings label).run.run backend state).1.map (·.classes)) := by
    rw [walk_run hsteady]
    exact lineageOf_comes hone
  refine ⟨_, readsParents_parentLabels answers, fun fate => ⟨?_, fun hfate => ?_⟩, ?_⟩
  · rintro rfl
    exact hcomes
  · exact hcomes.unique hfate
  · have hrun := Program.runs_trace backend (walk settings label).run state
    exact (walk_lookups settings label).few_requests _ _ hrun

/-- Where a chain goes on for ever the walk stops at the class that is one too many, and where it
comes back, at the class that it comes back to, which may be stored in backticks. -/
theorem walk_ends_on_endless_chains :
    ((walk { maxLineageDepth := 2 } "A").run.run (.ofAnswers endlessAnswers) ()).1.map
        (·.classes) = .error (.cycle "A++" ["A", "A+", "A++"]) ∧
      ((walk {} "A").run.run Canned.backend twoClasses).1.map (·.classes) =
        .error (.cycle "A" ["A", "B", "A"]) := by
  constructor
  · obtain ⟨_, hparents, hends⟩ := walk_ends (Backend.ofAnswers_steady endlessAnswers)
      { maxLineageDepth := 2 } "A" (by decide)
    obtain rfl := hparents.eq_parentLabels
    have hascends : Ascends (parentLabels endlessAnswers) { maxLineageDepth := 2 } "A"
        ["A", "A+"] := by
      refine ⟨?_, by decide, Nat.le_refl 2, fun _ => by decide⟩
      unfold Walked
      decide
    exact (hends.end_iff _).mpr (.tooFar hascends (by decide) rfl)
  · obtain ⟨_, hparents, hends⟩ := walk_ends (Canned.backend_steady twoClasses) {} "A"
      (by decide +kernel)
    obtain rfl := hparents.eq_parentLabels
    have hascends : Ascends (parentLabels twoClasses.rowsOf) {} "A" ["A", "B"] := by
      refine ⟨?_, by decide, by decide, fun _ => by decide +kernel⟩
      unfold Walked
      decide +kernel
    exact (hends.end_iff _).mpr (.back hascends (by decide +kernel) (by decide))

end OntologyGraph.Schema
