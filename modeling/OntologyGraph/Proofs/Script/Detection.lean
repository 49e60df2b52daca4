import OntologyGraph.Proofs.Script.Faults

/-!
When an unexpected character is found. A text is refused for a character as soon as that character
and the next are read: whatever the text goes on with, it is refused for the same character at the
same place.
-/

namespace OntologyGraph.Script

open Grammar

/-- Every character moves the place. -/
private theorem eq_nil_of_after_eq {before more : List Char}
    (h : Position.after (before ++ more) = Position.after before) : more = [] := by
  have hfeeds : '\n' ∉ more := by
    have hline : (before ++ more).count '\n' + 1 = before.count '\n' + 1 :=
      congrArg Position.line h
    rw [List.count_append] at hline
    exact List.count_eq_zero.mp (by omega)
  rw [after_append before hfeeds] at h
  have hcolumn : (Position.after before).column + more.length = (Position.after before).column :=
    congrArg Position.column h
  exact List.eq_nil_of_length_eq_zero (by omega)

theorem PlaceAt.eq_after {source : List Char} {k : Nat} {position : Position}
    (h : PlaceAt source k position) : position = .after (source.take k) := by
  obtain ⟨-, hline, before, here, htake, hbefore, hhere, hcolumn⟩ := h
  obtain ⟨line, column⟩ := position
  rw [htake] at hline ⊢
  rw [after_append before hhere, column_behind_lines hbefore]
  have hcount : here.count '\n' = 0 := List.count_eq_zero_of_not_mem hhere
  simp only [List.count_append, hcount] at hline hcolumn
  simp only [Position.after, Position.mk.injEq]
  omega

theorem PlaceAt.le_of_eq {source : List Char} {j k : Nat} {position : Position}
    (hj : PlaceAt source j position) (hk : PlaceAt source k position) : k ≤ j := by
  by_contra hlt
  have htake : source.take k = source.take j ++ (source.drop j).take (k - j) := by
    rw [← List.take_add]
    congr 1
    omega
  have hmore := eq_nil_of_after_eq (htake ▸ (hk.eq_after.symm.trans hj.eq_after))
  have hlength := congrArg List.length hmore
  have hinside := hk.inside
  simp only [List.length_take, List.length_drop, List.length_nil] at hlength
  omega

/-- A line and a column are those of one place only. -/
theorem PlaceAt.unique {source : List Char} {j k : Nat} {position : Position}
    (hj : PlaceAt source j position) (hk : PlaceAt source k position) : j = k :=
  Nat.le_antisymm (hk.le_of_eq hj) (hj.le_of_eq hk)

/-- Only a character that does not fit is called unexpected. -/
theorem misfit_of_message {misfit : Misfit} {spot : List Char} {shown : String}
    (h : misfit.message spot = "unexpected character " ++ shown) :
    misfit = .unexpected ∧ spot ≠ [] := by
  unfold Misfit.message at h
  have hchars := congrArg String.toList h
  cases misfit with
  | unexpected =>
    refine ⟨rfl, ?_⟩
    rintro rfl
    simp [unexpectedText] at hchars
  | arity _ _ _ => simp at hchars
  | blockNotAllowed _ => simp at hchars
  | statementCount _ => simp at hchars

/-- A text that begins as another does, up to two characters behind what is read of that. -/
private theorem take_split {read spot later : List Char}
    (h : later.take (read.length + 2) = (read ++ spot).take (read.length + 2)) :
    ∃ spot', later = read ++ spot' ∧ spot.take 2 = spot'.take 2 := by
  have hread : later.take read.length = read := by
    have htake := congrArg (List.take read.length) h
    simpa [List.take_take] using htake
  have hlater := List.take_append_drop read.length later
  rw [hread] at hlater
  refine ⟨later.drop read.length, hlater.symm, ?_⟩
  rw [List.take_add, hread, List.take_length_add_append] at h
  exact (List.append_cancel_left h).symm

/-- Of texts that are refused at spots that begin alike, behind the same text, the faults agree. -/
theorem located_alike {read spot spot' : List Char} (h : BeginAlike spot spot') (hne : spot ≠ []) :
    Refusal.located (read ++ spot') ⟨.unexpected, spot'⟩ =
      Refusal.located (read ++ spot) ⟨.unexpected, spot⟩ := by
  obtain ⟨c, cs, rfl⟩ := List.exists_cons_of_ne_nil hne
  obtain ⟨cs', rfl⟩ := h.eq_cons
  have hmessage : unexpectedText (c :: cs') = unexpectedText (c :: cs) := rfl
  unfold Refusal.located Misfit.message
  simp only [upTo_append, hmessage]

/-- A text that is refused for an unexpected character is refused so with any other text from two
characters further on: with the same message, at the same line and column. -/
theorem unexpected_found_at_once {source later : String} {fault : SyntaxFault} {c : Char} {k : Nat}
    (h : parse source = .error fault)
    (hmessage : fault.message = "unexpected character " ++ Text.shownChar c)
    (hplace : PlaceAt source.toList k fault.position)
    (hlater : later.toList.take (k + 2) = source.toList.take (k + 2)) :
    parse later = .error fault := by
  obtain ⟨⟨misfit, spot⟩, hread, rfl⟩ := (parse_eq_error_iff source fault).mp h
  obtain ⟨rfl, hne⟩ := misfit_of_message hmessage
  obtain ⟨first, hfill, hrefused⟩ := (readScript_eq_error_iff _ _).mp hread
  obtain ⟨read, hsource, hcarries⟩ :=
    (run_carries hfill).trans exchange_alike (refused_carries hrefused)
  have hlength : k = read.length := by
    refine hplace.unique ?_
    rw [hsource]
    unfold Refusal.located
    rw [upTo_append]
    exact placeAt_after read spot
  rw [hlength, hsource] at hlater
  obtain ⟨spot', hsplit, htake⟩ := take_split hlater
  have hlike := BeginAlike.of_stops htake (refused_stops hrefused rfl).1
  obtain ⟨first', -, hfill', hrefused'⟩ := hcarries spot' hlike
  refine (parse_eq_error_iff _ _).mpr ⟨⟨.unexpected, spot'⟩, ?_, ?_⟩
  · rw [hsplit]
    exact (readScript_eq_error_iff _ _).mpr ⟨first', hfill', hrefused'⟩
  · rw [hsplit, hsource]
    exact located_alike hlike hne

/-- A backslash begins no statement, whatever stands behind the character after it. -/
theorem unexpected_found_at_once_backslash :
    let fault : SyntaxFault := ⟨"unexpected character '\\\\'", ⟨2, 2⟩⟩
    parse "\n \\!" = .error fault ∧ parse "\n \\! node A" = .error fault := by
  intro fault
  have hchars : "\n \\!".toList = ['\n', ' ', '\\', '!'] := by simp
  have hfill : Run Filler ['\n', ' ', '\\', '!'] ['\\', '!'] :=
    run_cons (.inl (by decide)) (run_cons (.inl (by decide)) (run_refl _))
  have hrefused : Refused ['\\', '!'] ⟨.unexpected, ['\\', '!']⟩ :=
    .absent (stops_cons.mpr (by unfold Filler; decide)) (by simp)
      (stops_cons.mpr (by simp [NameStart]))
  have hparse : parse "\n \\!" = .error fault := by
    refine (parse_eq_error_iff _ _).mpr ⟨⟨.unexpected, ['\\', '!']⟩, ?_, rfl⟩
    rw [hchars]
    exact (readScript_eq_error_iff _ _).mpr ⟨_, hfill, hrefused⟩
  have hplace : PlaceAt "\n \\!".toList 2 fault.position := by
    rw [hchars]
    exact placeAt_after ['\n', ' '] ['\\', '!']
  have hmessage : fault.message = "unexpected character " ++ Text.shownChar '\\' := rfl
  exact ⟨hparse, unexpected_found_at_once hparse hmessage hplace (by simp)⟩

end OntologyGraph.Script
