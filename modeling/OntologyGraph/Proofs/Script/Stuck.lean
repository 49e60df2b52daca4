import OntologyGraph.Proofs.Script.Lookahead
import OntologyGraph.Proofs.Script.Spots

/-!
Where readers get stuck. What does not fit shows in the character at the spot and the one behind
it: with any other text from there on that begins with these two, the reader gets stuck at the same
place. It never gets stuck at a blank of a block, so never at a line break.
-/

namespace OntologyGraph.Script

open Grammar

variable {α β : Type}

/-- The reader gets stuck at `spot`, which begins with no blank of a block, and at any text in its
place that begins alike. -/
structure Sticks (outcome : List Char → Except (Option (List Char)) (α × List Char))
    (cs spot : List Char) : Prop where
  stops : Stops SpaceOrBreak spot
  carries : Carries BeginAlike (fun a b => outcome a = .error (some b)) cs spot

section Sticking

variable {outcome : List Char → Except (Option (List Char)) (α × List Char)}
  {outcome' : List Char → Except (Option (List Char)) (β × List Char)}
  {holds : List Char → List Char → Prop} {cs middle spot : List Char}

/-- Stuck at the end of a text: there is nothing to exchange. -/
theorem Sticks.of_nil (h : outcome cs = .error (some [])) : Sticks outcome cs [] where
  stops := stops_nil
  carries := by
    refine ⟨cs, by simp, ?_⟩
    intro rest' hrest
    rw [hrest.eq_nil, List.append_nil]
    exact h

/-- A reader gets stuck with the reader that it calls behind what is read. -/
theorem Sticks.behind (h : Sticks outcome middle spot) (hread : Carries BeginAlike holds cs middle)
    (hstep : ∀ a b c, BeginAlike middle b → holds a b → outcome b = .error (some c) →
      outcome' a = .error (some c)) : Sticks outcome' cs spot where
  stops := h.stops
  carries := by
    refine (hread.trans exchange_alike h.carries).imp ?_
    rintro a c - ⟨b, hlike, hholds, hstuck⟩
    exact hstep a b c hlike hholds hstuck

theorem Sticks.imp (h : Sticks outcome cs spot)
    (himp : ∀ a b, outcome a = .error (some b) → outcome' a = .error (some b)) :
    Sticks outcome' cs spot where
  stops := h.stops
  carries := h.carries.imp fun a b _ hstuck => himp a b hstuck

end Sticking

theorem expect_sticks {mark : Char} {cs spot : List Char}
    (h : (expect mark cs).outcome = .error (some spot)) :
    Sticks (fun cs => (expect mark cs).outcome) cs spot := by
  obtain ⟨hrun, hstop, hmark⟩ := (outcome_expect_eq_stuck_iff mark cs spot).mp h
  refine ⟨hstop, (run_carries hrun).imp ?_⟩
  intro a b hlike hrun
  exact (outcome_expect_eq_stuck_iff mark a b).mpr ⟨hrun, hlike.stops hstop, hlike.stops hmark⟩

/-- No text goes on at the end, or at a backslash with a character behind it that it does not
escape. -/
theorem readBody_sticks {cs spot : List Char} (h : Text.Quoted.readBody cs = .error spot) :
    Stops SpaceOrBreak spot ∧
      Carries BeginAlike (fun a b => Text.Quoted.readBody a = .error b) cs spot := by
  have hbackslash (cs : List Char) : Stops SpaceOrBreak ('\\' :: cs) :=
    stops_cons.mpr (by simp [SpaceOrBreak])
  fun_induction Text.Quoted.readBody cs with
  | case1 =>
    cases h
    refine ⟨stops_nil, carries_refl ?_⟩
    intro rest' hrest
    rw [hrest.eq_nil]
    rfl
  | case2 => cases h
  | case3 =>
    cases h
    refine ⟨hbackslash [], carries_refl ?_⟩
    intro rest' hrest
    rw [hrest.eq_singleton]
    rfl
  | case4 d ds e he hq ih =>
    obtain ⟨hstop, read, rfl, hread⟩ := ih (Except.map_eq_error_iff.mp h)
    refine ⟨hstop, '\\' :: d :: read, rfl, ?_⟩
    intro rest' hrest
    simp [Text.Quoted.readBody, he, hread rest' hrest, Except.map]
  | case5 d ds he =>
    cases h
    refine ⟨hbackslash (d :: ds), carries_refl ?_⟩
    intro rest' hrest
    obtain ⟨ds', rfl⟩ := hrest.eq_cons_cons
    simp [Text.Quoted.readBody, he]
  | case6 c cs hq hb ih =>
    obtain ⟨hstop, read, rfl, hread⟩ := ih (Except.map_eq_error_iff.mp h)
    refine ⟨hstop, c :: read, rfl, ?_⟩
    intro rest' hrest
    rw [List.cons_append, Text.Quoted.readBody_cons_of_ne hq hb, hread rest' hrest]
    rfl

theorem readText_sticks {cs spot : List Char}
    (h : (readText cs).outcome = .error (some spot)) :
    Sticks (fun cs => (readText cs).outcome) cs spot := by
  cases cs with
  | nil => cases h
  | cons c cs =>
    rw [outcome_readText_cons] at h
    split at h
    · next hc =>
      subst hc
      split at h
      · cases h
      · next hbody =>
        cases h
        obtain ⟨hstop, hcarries⟩ := readBody_sticks hbody
        refine ⟨hstop, ((carries_cons '"').trans exchange_alike hcarries).imp ?_⟩
        rintro _ b - ⟨ds, -, rfl, hbody⟩
        rw [outcome_readText_cons, if_pos rfl, hbody]
    · cases h

theorem readValue_sticks {cs spot : List Char}
    (h : (readValue cs).outcome = .error (some spot)) :
    Sticks (fun cs => (readValue cs).outcome) cs spot := by
  rw [outcome_readValue] at h
  split at h
  · next hcolon =>
    cases h
    refine (expect_sticks hcolon).imp ?_
    intro a b hcolon
    rw [outcome_readValue, hcolon]
  · next beforeText hcolon =>
    have hcolon := (outcome_expect_eq_ok_iff (by simp [SpaceOrBreak]) cs beforeText).mp hcolon
    have hstop : Stops SpaceOrBreak (skipBreaks beforeText) :=
      stops_dropWhile isSpaceOrBreak_iff beforeText
    have hread := (mark_carries hcolon).trans exchange_alike
      (run_carries (run_skipBreaks beforeText))
    split at h
    · next habsent =>
      cases h
      have hquote := (outcome_readText_absent_iff _).mp habsent
      refine ⟨hstop, hread.imp ?_⟩
      rintro a b hlike ⟨c, -, hcolon, hrun⟩
      have hskip := skipBreaks_eq hrun (hlike.stops hstop)
      have habsent : (readText (skipBreaks c)).outcome = .error none := by
        rw [hskip]
        exact (outcome_readText_absent_iff b).mpr (hlike.stops hquote)
      rw [outcome_readValue, (outcome_expect_eq_ok_iff (by simp [SpaceOrBreak]) a c).mpr hcolon]
      simp only [habsent, hskip]
    · refine (readText_sticks h).behind hread ?_
      rintro a b spot' hlike ⟨c, -, hcolon, hrun⟩ htext
      rw [← skipBreaks_eq hrun (hlike.stops hstop)] at htext
      rw [outcome_readValue, (outcome_expect_eq_ok_iff (by simp [SpaceOrBreak]) a c).mpr hcolon]
      simp only [htext]

theorem readPair_sticks {cs spot : List Char}
    (h : (readPair cs).outcome = .error (some spot)) :
    Sticks (fun cs => (readPair cs).outcome) cs spot := by
  have hpair := h
  rw [outcome_readPair] at h
  split at h
  · next hkey =>
    cases h
    obtain rfl := spot_eq_nil_of_readIdentifier hkey
    exact .of_nil hpair
  · next key rest hkey =>
    have hkey := (outcome_readIdentifier_eq_ok_iff cs key rest).mp hkey
    refine (readValue_sticks (Except.map_eq_error_iff.mp h)).behind
      (ident_carries exchange_alike hkey) ?_
    intro a b spot' _ hkey hvalue
    rw [outcome_readPair, (outcome_readIdentifier_eq_ok_iff a key b).mpr hkey]
    simp only [hvalue, Except.map]

/-- By induction on the pairs that are read. Where a pair ends the spot is neither a comma nor the
brace, and where none begins it is no name either. -/
theorem readPairs_sticks {cs spot : List Char}
    (h : (readPairs cs).outcome = .error (some spot)) :
    Sticks (fun cs => (readPairs cs).outcome) cs spot := by
  have hcomma : ¬ SpaceOrBreak ',' := by simp [SpaceOrBreak]
  fun_induction readPairs cs with
  | case1 cs _ hpair =>
    cases h
    refine (readPair_sticks (outcome_eq_of_stuck hpair)).behind (run_carries (run_skipBreaks cs)) ?_
    intro a b spot' hlike hrun hpair
    have hstop : Stops SpaceOrBreak (skipBreaks cs) := stops_dropWhile isSpaceOrBreak_iff cs
    rw [outcome_readPairs, skipBreaks_eq hrun (hlike.stops hstop), hpair]
  | case2 cs habsent =>
    rw [Reading.outcome_map] at h
    obtain ⟨hrun, hstop, hbrace⟩ :=
      (outcome_expect_eq_stuck_iff _ cs spot).mp (Except.map_eq_error_iff.mp h)
    have hident : Stops IdentStart spot := by
      rw [← outcome_readPair_absent_iff, ← skipBreaks_eq hrun hstop, habsent]
      rfl
    refine ⟨hstop, (run_carries hrun).imp ?_⟩
    intro a b hlike hrun
    have hstop := hlike.stops hstop
    have hclose := (outcome_expect_eq_stuck_iff _ a b).mpr ⟨hrun, hstop, hlike.stops hbrace⟩
    rw [outcome_readPairs, skipBreaks_eq hrun hstop,
      (outcome_readPair_absent_iff b).mpr (hlike.stops hident)]
    simp only [hclose, Except.map]
  | case3 cs pair rest _ hpair _ _ more _ hnext ih =>
    rw [Reading.outcome_map] at h
    have hpair := (outcome_readPair_eq_ok_iff _ pair rest).mp (outcome_eq_of_done hpair)
    have hnext := (outcome_expect_eq_ok_iff hcomma rest more).mp (outcome_eq_of_done hnext)
    refine (ih (Except.map_eq_error_iff.mp h)).behind
      ((run_carries (run_skipBreaks cs)).trans exchange_alike <|
        (keyText_carries exchange_alike hpair).trans exchange_alike (mark_carries hnext)) ?_
    rintro a b spot' _ ⟨first, -, hrun, c, -, hpair, hnext⟩ hmore
    rw [outcome_readPairs, outcome_readPair_behind hrun hpair]
    simp only [(outcome_expect_eq_ok_iff hcomma c b).mpr hnext, hmore, Except.map]
  | case4 cs pair rest _ hpair _ hnone =>
    rw [Reading.outcome_map] at h
    have hpair := (outcome_readPair_eq_ok_iff _ pair rest).mp (outcome_eq_of_done hpair)
    obtain ⟨hrun, hstop, hbrace⟩ :=
      (outcome_expect_eq_stuck_iff _ rest spot).mp (Except.map_eq_error_iff.mp h)
    -- At a comma the reader would have gone on to another pair.
    have hnoComma : Stops (· = ',') spot := by
      intro c hc hmark
      obtain ⟨more, rfl⟩ := List.head?_eq_some_iff.mp hc
      subst hmark
      obtain ⟨shorter, hdone⟩ :=
        done_of_outcome_eq ((outcome_expect_eq_ok_iff hcomma rest more).mpr hrun)
      exact hnone _ _ _ hdone
    refine ⟨hstop, ((run_carries (run_skipBreaks cs)).trans exchange_alike <|
      (keyText_carries exchange_alike hpair).trans exchange_alike (run_carries hrun)).imp ?_⟩
    rintro a b hlike ⟨first, -, hfirst, c, -, hpair, hrun⟩
    have hstop := hlike.stops hstop
    have hcomma := (outcome_expect_eq_stuck_iff _ c b).mpr ⟨hrun, hstop, hlike.stops hnoComma⟩
    have hclose := (outcome_expect_eq_stuck_iff _ c b).mpr ⟨hrun, hstop, hlike.stops hbrace⟩
    rw [outcome_readPairs, outcome_readPair_behind hfirst hpair]
    simp only [hcomma, hclose, Except.map]

theorem readBlock_sticks {cs spot : List Char}
    (h : (readBlock cs).outcome = .error (some spot)) :
    Sticks (fun cs => (readBlock cs).outcome) cs spot := by
  cases cs with
  | nil => cases h
  | cons c cs =>
    rw [outcome_readBlock_cons] at h
    split at h
    · next hc =>
      subst hc
      refine (readPairs_sticks h).behind (carries_cons '\x7b') ?_
      rintro _ b spot' _ rfl hpairs
      rw [outcome_readBlock_cons, if_pos rfl, hpairs]
    · cases h

theorem readNode_sticks {cs spot : List Char}
    (h : (readNode cs).outcome = .error (some spot)) :
    Sticks (fun cs => (readNode cs).outcome) cs spot := by
  have hnode := h
  rw [outcome_readNode] at h
  split at h
  · next hlabel =>
    cases h
    obtain rfl := spot_eq_nil_of_readIdentifier hlabel
    exact .of_nil hnode
  · next label rest hlabel =>
    have hlabel := (outcome_readIdentifier_eq_ok_iff cs label rest).mp hlabel
    have hstop : Stops Space (skipSpaces rest) := stops_dropWhile isSpace_iff rest
    split at h
    · cases h
    · refine (readBlock_sticks (Except.map_eq_error_iff.mp h)).behind
        ((ident_carries exchange_alike hlabel).trans exchange_alike
          (run_carries (run_skipSpaces rest))) ?_
      rintro a b spot' hlike ⟨c, -, hlabel, hrun⟩ hblock
      rw [← skipSpaces_eq hrun (hlike.stops hstop)] at hblock
      rw [outcome_readNode, (outcome_readIdentifier_eq_ok_iff a label c).mpr hlabel]
      simp only [hblock, Except.map]

theorem readNode_carries {cs rest : List Char} {node : NodeRef}
    (h : (readNode cs).outcome = .ok (node, rest)) :
    Carries BeginAlike (fun a b => (readNode a).outcome = .ok (node, b)) cs rest := by
  obtain ⟨read, rfl, hnode⟩ := reference_carries exchange_alike (node_of_readNode h)
  refine ⟨read, rfl, ?_⟩
  intro rest' hrest
  exact readNode_of_node (hnode rest' hrest) fun hbare =>
    hrest.stops_behind (stops_of_readNode h hbare)

/-- By induction on the nodes; behind the last of them none begins after spaces. -/
theorem readNodes_carries {cs rest : List Char} {nodes : List NodeRef}
    (h : (readNodes cs).outcome = .ok (nodes, rest)) :
    Carries BeginAlike (fun a b => (readNodes a).outcome = .ok (nodes, b)) cs rest := by
  fun_induction readNodes cs generalizing nodes rest with
  | case1 cs habsent =>
    cases h
    have hident : Stops IdentStart (skipSpaces cs) := by
      rw [← outcome_readNode_absent_iff, habsent]
      rfl
    refine carries_refl ?_
    intro rest' hrest
    rw [outcome_readNodes, (outcome_readNode_absent_iff _).mpr (hrest.stops_behind hident)]
  | case2 => cases h
  | case3 cs node afterNode _ hnode _ ih =>
    rw [Reading.outcome_map] at h
    obtain ⟨⟨nodes', rest'⟩, hread, heq⟩ := Except.map_eq_ok_iff.mp h
    cases heq
    refine ((run_carries (run_skipSpaces cs)).trans exchange_alike <|
      (readNode_carries (outcome_eq_of_done hnode)).trans exchange_alike (ih hread)).imp ?_
    rintro a d - ⟨b, -, hrun, c, -, hnode, hnodes⟩
    rw [outcome_readNodes, skipSpaces_eq_of_node hrun (node_of_readNode hnode), hnode]
    simp only [hnodes, Except.map]

theorem readNodes_sticks {cs spot : List Char}
    (h : (readNodes cs).outcome = .error (some spot)) :
    Sticks (fun cs => (readNodes cs).outcome) cs spot := by
  fun_induction readNodes cs with
  | case1 => cases h
  | case2 cs _ hnode =>
    cases h
    refine (readNode_sticks (outcome_eq_of_stuck hnode)).behind (run_carries (run_skipSpaces cs)) ?_
    intro a b spot' hlike hrun hnode
    have hstop : Stops Space (skipSpaces cs) := stops_dropWhile isSpace_iff cs
    rw [outcome_readNodes, skipSpaces_eq hrun (hlike.stops hstop), hnode]
  | case3 cs node afterNode _ hnode _ ih =>
    rw [Reading.outcome_map] at h
    refine (ih (Except.map_eq_error_iff.mp h)).behind
      ((run_carries (run_skipSpaces cs)).trans exchange_alike
        (readNode_carries (outcome_eq_of_done hnode))) ?_
    rintro a c spot' _ ⟨b, -, hrun, hnode⟩ hnodes
    rw [outcome_readNodes, skipSpaces_eq_of_node hrun (node_of_readNode hnode), hnode]
    simp only [hnodes, Except.map]

/-- A statement is read the same whatever stands behind it, as long as it begins alike. -/
theorem readStatement_carries {cs rest : List Char} {s : Statement}
    (h : (readStatement cs).outcome = .ok (s, rest)) :
    Carries BeginAlike (fun a b => (readStatement a).outcome = .ok (s, b)) cs rest := by
  obtain ⟨afterWord, hword, hproper, hnodes⟩ := parts_of_readStatement h
  refine ((word_carries exchange_alike hword).trans exchange_alike
    (readNodes_carries hnodes)).imp ?_
  rintro a c - ⟨b, -, hword, hnodes⟩
  rw [outcome_readStatement, (outcome_readWord_eq_ok_iff a _ b).mpr hword]
  simp only [hnodes, Except.map, ofWord_word hproper]

/-- The spot where a statement gets stuck depends on nothing behind it but how that begins. -/
theorem readStatement_sticks {cs spot : List Char}
    (h : (readStatement cs).outcome = .error (some spot)) :
    Sticks (fun cs => (readStatement cs).outcome) cs spot := by
  rw [outcome_readStatement] at h
  split at h
  · next hword =>
    cases h
    cases cs with
    | nil => cases hword
    | cons c cs =>
      rw [outcome_readWord_cons] at hword
      split at hword <;> cases hword
  · next word afterWord hword =>
    have hword := (outcome_readWord_eq_ok_iff cs word afterWord).mp hword
    refine (readNodes_sticks (Except.map_eq_error_iff.mp h)).behind
      (word_carries exchange_alike hword) ?_
    intro a b spot' _ hword hnodes
    rw [outcome_readStatement, (outcome_readWord_eq_ok_iff a word b).mpr hword]
    simp only [hnodes, Except.map]

end OntologyGraph.Script
