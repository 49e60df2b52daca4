import OntologyGraph.Proofs.Script.Acceptance

/-!
Where nothing of its kind begins, a reader says so, and the character at the spot shows it. Where a
mark is missing, or a name does not end, the reader is stuck.
-/

namespace OntologyGraph.Script

open Grammar

theorem outcome_eq_of_stuck {α : Type} {n : Nat} {r : Reading α n} {spot : List Char}
    (hr : r = .stuck spot) : r.outcome = .error (some spot) := by
  rw [hr]
  rfl

def IdentStart (c : Char) : Prop :=
  NameStart c ∨ c = '\x60'

theorem outcome_expect_eq_stuck_iff (mark : Char) (cs spot : List Char) :
    (expect mark cs).outcome = .error (some spot) ↔
      Run SpaceOrBreak cs spot ∧ Stops SpaceOrBreak spot ∧ Stops (· = mark) spot := by
  constructor
  · intro h
    have hrun := run_skipBreaks cs
    have hstop : Stops SpaceOrBreak (skipBreaks cs) := stops_dropWhile isSpaceOrBreak_iff cs
    rw [outcome_expect] at h
    split at h
    · next hskip =>
      cases h
      rw [hskip] at hrun
      exact ⟨hrun, stops_nil, stops_nil⟩
    · next c rest hskip =>
      split at h
      · cases h
      · next hc =>
        cases h
        rw [hskip] at hrun hstop
        exact ⟨hrun, hstop, stops_cons.mpr hc⟩
  · rintro ⟨hrun, hstop, hmark⟩
    rw [outcome_expect, skipBreaks_eq hrun hstop]
    cases spot with
    | nil => rfl
    | cons c rest => simp [stops_cons.mp hmark]

theorem outcome_expect_ne_absent (mark : Char) (cs : List Char) :
    (expect mark cs).outcome ≠ .error none := by
  rw [outcome_expect]
  split
  · simp
  · split <;> simp

theorem outcome_readText_absent_iff (cs : List Char) :
    (readText cs).outcome = .error none ↔ Stops (· = '"') cs := by
  cases cs with
  | nil => simp [outcome_readText_nil, stops_nil]
  | cons c cs =>
    rw [outcome_readText_cons, stops_cons]
    split
    · next hc =>
      simp only [hc, not_true_eq_false, iff_false]
      split <;> simp
    · next hc => simp [hc]

theorem outcome_readValue_ne_absent (cs : List Char) :
    (readValue cs).outcome ≠ .error none := by
  rw [outcome_readValue]
  split
  · next e he =>
    intro h
    cases h
    exact outcome_expect_ne_absent ':' cs he
  · split
    · simp
    · next hvalue => exact hvalue

theorem outcome_readWord_absent_iff (cs : List Char) :
    (readWord cs).outcome = .error none ↔ Stops NameStart cs := by
  refine ⟨?_, outcome_readWord_absent⟩
  intro h
  cases cs with
  | nil => exact stops_nil
  | cons c cs =>
    rw [outcome_readWord_cons] at h
    split at h
    · cases h
    · next hc => exact stops_cons.mpr fun hname => hc ((isNameStart_iff c).mpr hname)

theorem outcome_readIdentifier_absent_iff (cs : List Char) :
    (readIdentifier cs).outcome = .error none ↔ Stops IdentStart cs := by
  constructor
  · intro h
    cases cs with
    | nil => exact stops_nil
    | cons c cs =>
      rw [outcome_readIdentifier, outcome_readQuotedName_cons] at h
      split at h
      · next hquoted =>
        have hword := (outcome_readWord_absent_iff _).mp (Except.map_eq_error_iff.mp h)
        refine stops_cons.mpr ?_
        rintro (hname | rfl)
        · exact stops_cons.mp hword hname
        · rw [if_pos (by rfl)] at hquoted
          split at hquoted <;> cases hquoted
      · next hquoted => exact absurd (Except.map_eq_error_iff.mp h) hquoted
  · intro h
    exact outcome_readIdentifier_absent (fun c hc hname => h c hc (.inl hname))
      fun c hc hquote => h c hc (.inr hquote)

theorem spot_eq_nil_of_readIdentifier {cs spot : List Char}
    (h : (readIdentifier cs).outcome = .error (some spot)) : spot = [] := by
  cases cs with
  | nil => cases h
  | cons c cs =>
    rw [outcome_readIdentifier, outcome_readQuotedName_cons] at h
    split at h
    · have hword := Except.map_eq_error_iff.mp h
      rw [outcome_readWord_cons] at hword
      split at hword <;> cases hword
    · have hquoted := Except.map_eq_error_iff.mp h
      split at hquoted
      · split at hquoted
        · cases hquoted
        · cases hquoted
          rfl
      · cases hquoted

theorem outcome_readPair_absent_iff (cs : List Char) :
    (readPair cs).outcome = .error none ↔ Stops IdentStart cs := by
  rw [← outcome_readIdentifier_absent_iff, outcome_readPair]
  cases hkey : (readIdentifier cs).outcome with
  | error e => simp
  | ok key =>
    simp only [reduceCtorEq, iff_false]
    intro h
    exact outcome_readValue_ne_absent _ (Except.map_eq_error_iff.mp h)

/-- Where a block has begun there are pairs, or none but a brace. -/
theorem outcome_readPairs_ne_absent (cs : List Char) :
    (readPairs cs).outcome ≠ .error none := by
  intro h
  fun_induction readPairs cs with
  | case1 => cases h
  | case2 cs _ =>
    rw [Reading.outcome_map] at h
    exact outcome_expect_ne_absent _ cs (Except.map_eq_error_iff.mp h)
  | case3 _ _ _ _ _ _ _ _ _ _ ih =>
    rw [Reading.outcome_map] at h
    exact ih (Except.map_eq_error_iff.mp h)
  | case4 _ _ rest _ _ _ _ =>
    rw [Reading.outcome_map] at h
    exact outcome_expect_ne_absent _ rest (Except.map_eq_error_iff.mp h)

theorem outcome_readBlock_absent_iff (cs : List Char) :
    (readBlock cs).outcome = .error none ↔ Stops (· = '\x7b') cs := by
  refine ⟨?_, outcome_readBlock_absent⟩
  intro h
  cases cs with
  | nil => exact stops_nil
  | cons c cs =>
    rw [outcome_readBlock_cons] at h
    split at h
    · exact absurd h (outcome_readPairs_ne_absent cs)
    · next hc => exact stops_cons.mpr hc

/-- No reference is found exactly where no identifier can begin. -/
theorem outcome_readNode_absent_iff (cs : List Char) :
    (readNode cs).outcome = .error none ↔ Stops IdentStart cs := by
  rw [← outcome_readIdentifier_absent_iff, outcome_readNode]
  cases hlabel : (readIdentifier cs).outcome with
  | error e => simp
  | ok label =>
    simp only [reduceCtorEq, iff_false]
    split
    · simp
    · next hblock =>
      intro h
      exact hblock (Except.map_eq_error_iff.mp h)

theorem outcome_readNodes_ne_absent (cs : List Char) : (readNodes cs).outcome ≠ .error none := by
  intro h
  fun_induction readNodes cs with
  | case1 => cases h
  | case2 => cases h
  | case3 _ _ _ _ _ _ ih =>
    rw [Reading.outcome_map] at h
    exact ih (Except.map_eq_error_iff.mp h)

/-- No statement is found exactly where no name can begin. -/
theorem outcome_readStatement_absent_iff (cs : List Char) :
    (readStatement cs).outcome = .error none ↔ Stops NameStart cs := by
  rw [← outcome_readWord_absent_iff, outcome_readStatement]
  cases hword : (readWord cs).outcome with
  | error e => simp
  | ok word =>
    simp only [reduceCtorEq, iff_false]
    intro h
    exact outcome_readNodes_ne_absent _ (Except.map_eq_error_iff.mp h)

/-- A text at which a statement begins is not empty and begins with no filler. -/
theorem begins_of_readStatement {cs : List Char}
    {outcome : Except (Option (List Char)) (Statement × List Char)}
    (h : (readStatement cs).outcome = outcome) (hne : outcome ≠ .error none) :
    cs ≠ [] ∧ Stops Filler cs := by
  rw [← h, Ne, outcome_readStatement_absent_iff] at hne
  cases cs with
  | nil => exact absurd stops_nil hne
  | cons c cs =>
    rw [stops_cons, not_not] at hne
    exact ⟨by simp, stops_cons.mpr (not_filler_of_nameStart c hne)⟩

/-- No block follows a node that is read without one. -/
theorem stops_of_readNode {cs rest : List Char} {node : NodeRef}
    (h : (readNode cs).outcome = .ok (node, rest)) (hbare : node.block = none) :
    Stops (· = '\x7b') (skipSpaces rest) := by
  rw [outcome_readNode] at h
  split at h
  · cases h
  · split at h
    · next hblock =>
      cases h
      exact (outcome_readBlock_absent_iff _).mp hblock
    · obtain ⟨⟨block, _⟩, -, heq⟩ := Except.map_eq_ok_iff.mp h
      cases heq
      cases hbare

end OntologyGraph.Script
