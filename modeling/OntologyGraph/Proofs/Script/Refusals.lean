import OntologyGraph.Proofs.Script.Stuck

/-!
Why a text is no script. A text is refused behind whole statements, at the first one that cannot
begin, gets stuck, is not what its keyword allows or is not followed by a separator. The spot is an
ending of the text, and where a character does not fit, that character and the one behind it
decide.
-/

namespace OntologyGraph.Script

open Grammar

/-- The refusal of a text that begins with no filler. The statements before the one that is refused
are derivations of the grammar. -/
inductive Refused : List Char → Refusal → Prop where
  | absent {cs : List Char} : Stops Filler cs → cs ≠ [] → Stops NameStart cs →
      Refused cs ⟨.unexpected, cs⟩
  | stuck {cs spot : List Char} : (readStatement cs).outcome = .error (some spot) →
      Refused cs ⟨.unexpected, spot⟩
  | misfit {cs rest : List Char} {s : Statement} {misfit : Misfit} :
      (readStatement cs).outcome = .ok (s, rest) → s.misfit? = some misfit →
      Refused cs ⟨misfit, cs⟩
  | unseparated {cs rest spot : List Char} {s : Statement} :
      (readStatement cs).outcome = .ok (s, rest) → s.misfit? = none → Run Space rest spot →
      Stops Space spot → spot ≠ [] → (∀ more, ¬ Separator spot more) →
      Refused cs ⟨.unexpected, spot⟩
  | later {cs rest sep more next : List Char} {s : Statement} {refusal : Refusal} :
      Sentence cs s rest → Run Space rest sep → Separator sep more → Run Filler more next →
      Refused next refusal → Refused cs refusal

/-- A character that does not fit is no misfit of a whole statement. -/
theorem misfit?_ne_unexpected (s : Statement) : s.misfit? ≠ some .unexpected := by
  unfold Statement.misfit?
  split
  · simp
  · split
    · simp
    · split <;> simp

/-- A text whose reading is refused is refused by the rules, at the same spot. -/
theorem refused_of_readStatements {cs : List Char} {refusal : Refusal} (hstop : Stops Filler cs)
    (h : readStatements cs = .error refusal) : Refused cs refusal := by
  fun_induction readStatements cs with
  | case1 => cases h
  | case2 cs hne habsent =>
    cases h
    refine .absent hstop hne ?_
    rw [← outcome_readStatement_absent_iff, habsent]
    rfl
  | case3 cs _ spot hstatement =>
    cases h
    exact .stuck (outcome_eq_of_stuck hstatement)
  | case4 cs _ s rest _ hstatement misfit hmisfit =>
    cases h
    exact .misfit (outcome_eq_of_done hstatement) hmisfit
  | case5 => cases h
  | case6 cs _ s rest _ hstatement hfit _ _ more _ hsep _ ih =>
    have hsentence := sentence_of_readStatement (outcome_eq_of_done hstatement) hfit
    have hsep := (readSeparator_eq_ok_iff _ more).mp (outcome_eq_of_done hsep)
    have hnext := ih (stops_dropWhile isSeparator_iff more) (Except.map_eq_error_iff.mp h)
    exact .later hsentence (run_skipSpaces rest) hsep (run_skipSeparators more) hnext
  | case7 cs _ s rest _ hstatement hfit hne hnone =>
    cases h
    refine .unseparated (outcome_eq_of_done hstatement) hfit (run_skipSpaces rest)
      (stops_dropWhile isSpace_iff rest) hne ?_
    intro more hsep
    obtain ⟨shorter, hdone⟩ := done_of_outcome_eq ((readSeparator_eq_ok_iff _ more).mpr hsep)
    exact hnone _ _ _ hdone

theorem readSeparator_of_not {cs : List Char} (h : ∀ more, ¬ Separator cs more) :
    ∃ e, (readSeparator cs).outcome = .error e := by
  cases hread : (readSeparator cs).outcome with
  | error e => exact ⟨e, rfl⟩
  | ok answer => exact absurd ((readSeparator_eq_ok_iff cs answer.2).mp hread) (h answer.2)

/-- What the rules refuse is refused by the reader, at the same spot. -/
theorem readStatements_of_refused {cs : List Char} {refusal : Refusal} (h : Refused cs refusal) :
    Stops Filler cs ∧ readStatements cs = .error refusal := by
  induction h with
  | absent hstop hne hname =>
    refine ⟨hstop, ?_⟩
    rw [readStatements_eq, if_neg hne, (outcome_readStatement_absent_iff _).mpr hname]
  | stuck hread =>
    obtain ⟨hne, hstop⟩ := begins_of_readStatement hread (by simp)
    refine ⟨hstop, ?_⟩
    rw [readStatements_eq, if_neg hne, hread]
  | misfit hread hmisfit =>
    obtain ⟨hne, hstop⟩ := begins_of_readStatement hread (by simp)
    refine ⟨hstop, ?_⟩
    rw [readStatements_eq, if_neg hne, hread]
    simp only [hmisfit]
  | unseparated hread hfit hrun hstop hne hnone =>
    obtain ⟨e, he⟩ := readSeparator_of_not hnone
    obtain ⟨hcs, hfill⟩ := begins_of_readStatement hread (by simp)
    refine ⟨hfill, ?_⟩
    rw [readStatements_eq, if_neg hcs, hread]
    rw [← skipSpaces_eq hrun hstop] at he
    simp only [hfit, he, skipSpaces_eq hrun hstop, hne, ↓reduceIte]
  | later hs hrun hsep hfill _ ih =>
    obtain ⟨hstop, hread⟩ := ih
    refine ⟨sentence_stops not_filler_of_nameStart hs, ?_⟩
    rw [readStatements_of_sentence hs hrun hsep, skipSeparators_eq hfill hstop, hread]
    rfl

/-- Reading a whole text fails exactly with the refusal of what stands behind its fillers. -/
theorem readScript_eq_error_iff (cs : List Char) (refusal : Refusal) :
    readScript cs = .error refusal ↔ ∃ first, Run Filler cs first ∧ Refused first refusal := by
  constructor
  · intro h
    exact ⟨skipSeparators cs, run_skipSeparators cs,
      refused_of_readStatements (stops_dropWhile isSeparator_iff cs) h⟩
  · rintro ⟨first, hfill, hrefused⟩
    obtain ⟨hstop, hread⟩ := readStatements_of_refused hrefused
    unfold readScript
    rw [skipSeparators_eq hfill hstop, hread]

theorem parse_eq_error_iff (source : String) (fault : SyntaxFault) :
    parse source = .error fault ↔
      ∃ refusal, readScript source.toList = .error refusal ∧
        refusal.located source.toList = fault := by
  unfold parse
  cases readScript source.toList <;> simp [Except.mapError]

theorem run_suffix {P : Char → Prop} {cs rest : List Char} (h : Run P cs rest) : rest <:+ cs := by
  obtain ⟨run, rfl, -⟩ := h
  exact List.suffix_append run rest

theorem separator_suffix {cs rest : List Char} (h : Separator cs rest) : rest <:+ cs := by
  cases h with
  | semicolon => exact List.suffix_cons _ _
  | lineFeed => exact List.suffix_cons _ _
  | carriageReturn => exact (List.suffix_cons _ _).trans (List.suffix_cons _ _)

/-- A refusal points into the text that was read. -/
theorem refused_suffix {cs : List Char} {refusal : Refusal} (h : Refused cs refusal) :
    refusal.spot <:+ cs := by
  induction h with
  | absent _ _ _ => exact List.suffix_rfl
  | stuck hread => exact (readStatement_sticks hread).carries.suffix
  | misfit _ _ => exact List.suffix_rfl
  | unseparated hread _ hrun _ _ _ =>
    exact (run_suffix hrun).trans (readStatement_carries hread).suffix
  | later hs hrun hsep hfill _ ih =>
    have hrest := (sentence_carries exchange_alike hs).suffix
    have hmore := (separator_suffix hsep).trans ((run_suffix hrun).trans hrest)
    exact ih.trans ((run_suffix hfill).trans hmore)

/-- A text that is no script is refused at one of its own endings. -/
theorem spot_suffix_of_readScript {cs : List Char} {refusal : Refusal}
    (h : readScript cs = .error refusal) : refusal.spot <:+ cs := by
  obtain ⟨first, hfill, hrefused⟩ := (readScript_eq_error_iff cs refusal).mp h
  exact (refused_suffix hrefused).trans (run_suffix hfill)

theorem not_separator_of_alike {cs cs' : List Char} (hlike : BeginAlike cs cs')
    (h : ∀ more, ¬ Separator cs more) (more : List Char) : ¬ Separator cs' more := by
  intro hsep
  cases hsep with
  | semicolon =>
    obtain ⟨rest, rfl⟩ := hlike.symm.eq_cons
    exact h rest .semicolon
  | lineFeed =>
    obtain ⟨rest, rfl⟩ := hlike.symm.eq_cons
    exact h rest .lineFeed
  | carriageReturn =>
    obtain ⟨rest, rfl⟩ := hlike.symm.eq_cons_cons
    exact h rest .carriageReturn

/-- An unexpected character is no space and no line feed. -/
theorem refused_stops {cs : List Char} {refusal : Refusal} (h : Refused cs refusal)
    (hmisfit : refusal.misfit = .unexpected) :
    Stops Space refusal.spot ∧ Stops (· = '\n') refusal.spot := by
  induction h with
  | absent hstop _ _ =>
    refine ⟨?_, ?_⟩
    · rintro c hc (rfl | rfl) <;> exact hstop _ hc (.inl (by decide))
    · rintro c hc rfl
      exact hstop _ hc (.inl (by decide))
  | stuck hread =>
    have hstop := (readStatement_sticks hread).stops
    refine ⟨?_, fun c hc hfeed => hstop c hc (.inr (.inr (.inr hfeed)))⟩
    rintro c hc (hspace | htab)
    · exact hstop c hc (.inl hspace)
    · exact hstop c hc (.inr (.inl htab))
  | @misfit _ _ s misfit _ hsome =>
    obtain rfl : misfit = .unexpected := hmisfit
    exact absurd hsome (misfit?_ne_unexpected s)
  | unseparated _ _ _ hstop _ hnone =>
    refine ⟨hstop, ?_⟩
    rintro c hc rfl
    obtain ⟨rest, rfl⟩ := List.head?_eq_some_iff.mp hc
    exact hnone rest .lineFeed
  | later _ _ _ _ _ ih => exact ih hmisfit

/-- By induction on the statements before the one that is refused. Each is derived in front of any
text that begins like the one behind it. -/
theorem refused_carries {cs spot : List Char} (h : Refused cs ⟨.unexpected, spot⟩) :
    Carries BeginAlike (fun a b => Refused a ⟨.unexpected, b⟩) cs spot := by
  generalize hrefusal : (⟨.unexpected, spot⟩ : Refusal) = refusal at h
  induction h with
  | absent hstop hne hname =>
    cases hrefusal
    refine carries_refl ?_
    intro rest' hrest
    refine .absent (hrest.stops hstop) ?_ (hrest.stops hname)
    rintro rfl
    exact hne hrest.symm.eq_nil
  | stuck hread =>
    cases hrefusal
    exact (readStatement_sticks hread).carries.imp fun _ _ _ hread => .stuck hread
  | misfit _ hsome =>
    cases hrefusal
    exact absurd hsome (misfit?_ne_unexpected _)
  | unseparated hread hfit hrun hstop hne hnone =>
    cases hrefusal
    refine ((readStatement_carries hread).trans exchange_alike (run_carries hrun)).imp ?_
    rintro a c hlike ⟨b, -, hread, hrun⟩
    refine .unseparated hread hfit hrun (hlike.stops hstop) ?_ (not_separator_of_alike hlike hnone)
    rintro rfl
    exact hne hlike.symm.eq_nil
  | later hs hrun hsep hfill _ ih =>
    refine ((sentence_carries exchange_alike hs).trans exchange_alike <|
      (run_carries hrun).trans exchange_alike <|
      (separator_carries hsep).trans exchange_alike <|
      (run_carries hfill).trans exchange_alike (ih hrefusal)).imp ?_
    rintro a e - ⟨_, -, hs, _, -, hrun, _, -, hsep, _, -, hfill, hrefused⟩
    exact .later hs hrun hsep hfill hrefused

end OntologyGraph.Script
