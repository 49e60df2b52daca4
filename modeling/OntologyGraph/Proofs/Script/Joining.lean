import OntologyGraph.Proofs.Script.Refusals
import OntologyGraph.Proofs.Script.RoundTrip

/-!
Texts behind one another. A derivation of the grammar goes through in front of any text that does
not continue a name, and a separator does not. So a script with a separator behind it is read as it
is by itself, and then the text behind the separator is read as it is by itself.
-/

namespace OntologyGraph.Script

open Grammar

section Before

variable {P : Char → Prop} {holds : List Char → List Char → Prop} {cs rest tail : List Char}

private theorem stops_append (h : Stops P rest) (htail : Stops P tail) :
    Stops P (rest ++ tail) := by
  cases rest with
  | nil => exact htail
  | cons c rest => exact stops_cons.mpr (stops_cons.mp h)

/-- A text can have more behind it that continues no name. -/
theorem exchange_append (htail : EndsName tail) :
    Exchange fun rest rest' => rest' = rest ++ tail where
  behind read h := by rw [h, List.append_assoc]
  namePart h hstop := by
    rw [h]
    exact stops_append hstop fun c hc hname => htail c hc (.inl hname)
  quote h hstop := by
    rw [h]
    exact stops_append hstop fun c hc hquote => htail c hc (.inr hquote)

theorem Carries.append (h : Carries (fun rest rest' => rest' = rest ++ tail) holds cs rest) :
    holds (cs ++ tail) (rest ++ tail) := by
  obtain ⟨read, rfl, h⟩ := h
  rw [List.append_assoc]
  exact h _ rfl

theorem run_append (h : Run P cs rest) (tail : List Char) : Run P (cs ++ tail) (rest ++ tail) :=
  (run_carries h).append

theorem sentence_append {s : Statement} (h : Sentence cs s rest) (htail : EndsName tail) :
    Sentence (cs ++ tail) s (rest ++ tail) :=
  (sentence_carries (exchange_append htail) h).append

theorem separator_append (h : Separator cs rest) (tail : List Char) :
    Separator (cs ++ tail) (rest ++ tail) :=
  (separator_carries h).append

end Before

theorem endsName_of_separator {cs rest : List Char} (h : Separator cs rest) : EndsName cs := by
  cases h <;> exact endsName_cons (by simp [NamePart, NameStart]) (by simp)

theorem run_filler_of_separator {cs rest : List Char} (h : Separator cs rest) :
    Run Filler cs rest := by
  cases h with
  | semicolon => exact run_cons (.inr rfl) (run_refl _)
  | lineFeed => exact run_cons (.inl (by decide)) (run_refl _)
  | carriageReturn =>
    exact run_cons (.inl (by decide)) (run_cons (.inl (by decide)) (run_refl _))

/-- Fillers before a script make no difference. -/
theorem readScript_of_filler {cs rest : List Char} (h : Run Filler cs rest) :
    readScript cs = readScript rest := by
  obtain ⟨run, rfl, hrun⟩ := h
  have hskip : skipSeparators (run ++ rest) = skipSeparators rest :=
    List.dropWhile_append_of_pos fun c hc => (isSeparator_iff c).mpr (hrun c hc)
  unfold readScript
  rw [hskip]

/-- Behind a statement and a separator the script goes on as the rest of the text is read. -/
theorem readScript_of_sentence {cs rest sep more : List Char} {s : Statement}
    (h : Sentence cs s rest) (hrun : Run Space rest sep) (hsep : Separator sep more) :
    readScript cs = (readScript more).map (s :: ·) := by
  have hfirst : skipSeparators cs = cs :=
    skipSeparators_eq (run_refl cs) (sentence_stops not_filler_of_nameStart h)
  unfold readScript
  rw [hfirst, readStatements_of_sentence h hrun hsep]

/-- By induction on the derivation of the first text; only its last statement meets the separator
that stands behind it. -/
theorem readScript_of_sentences {cs sep more : List Char} {script : Script}
    (h : Sentences cs script) (hsep : Separator sep more) :
    readScript (cs ++ sep) = (readScript more).map (script ++ ·) := by
  induction h with
  | nil =>
    rw [List.nil_append, readScript_of_filler (run_filler_of_separator hsep)]
    cases readScript more <;> rfl
  | last hs hrun =>
    have hs := sentence_append hs (endsName_of_separator hsep)
    rw [readScript_of_sentence hs (run_append hrun sep) hsep]
    rfl
  | cons hs hrun hbefore hfill _ ih =>
    have hs := sentence_append hs (endsName_of_separator hsep)
    rw [readScript_of_sentence hs (run_append hrun sep) (separator_append hbefore sep),
      readScript_of_filler (run_append hfill sep), ih]
    cases readScript more <;> rfl

/-- A script before a separator is read, and then the text behind the separator. -/
theorem readScript_append {cs sep more : List Char} {script : Script}
    (h : readScript cs = .ok script) (hsep : Separator sep more) :
    readScript (cs ++ sep) = (readScript more).map (script ++ ·) := by
  obtain ⟨hfill, hscript⟩ := (readScript_eq_ok_iff cs script).mp h
  rw [readScript_of_filler (run_append hfill sep), readScript_of_sentences hscript hsep]

private theorem takeWhile_append_of_neg {p : Char → Bool} {mark : Char} (h : p mark = false)
    (run rest : List Char) : (run ++ mark :: rest).takeWhile p = run.takeWhile p := by
  induction run with
  | nil => simp [h]
  | cons c run ih => simp [List.takeWhile_cons, ih]

/-- A place below a line feed is as far down as the lines before it, and in the same column. -/
private theorem after_below (before read : List Char) :
    Position.after (before ++ '\n' :: read) =
      { line := (Position.after read).line + 1 + before.count '\n'
        column := (Position.after read).column } := by
  have hline : (before ++ '\n' :: read).count '\n' + 1 =
      read.count '\n' + 1 + 1 + before.count '\n' := by
    rw [List.count_append, List.count_cons_self]
    omega
  have hcolumn : (before ++ '\n' :: read).reverse.takeWhile (· ≠ '\n') =
      read.reverse.takeWhile (· ≠ '\n') := by
    rw [List.reverse_append, List.reverse_cons, List.append_assoc, List.singleton_append]
    exact takeWhile_append_of_neg (by simp) _ _
  unfold Position.after
  rw [hline, hcolumn]

theorem upTo_append (read spot : List Char) : upTo (read ++ spot) spot = read := by
  simp [upTo]

/-- What does not fit in a text does not fit in it below a line feed, so many lines further down. -/
theorem located_below (before : List Char) {source : List Char} {refusal : Refusal}
    (h : refusal.spot <:+ source) :
    refusal.located (before ++ '\n' :: source) =
      { message := (refusal.located source).message
        position :=
          { line := (refusal.located source).position.line + 1 + before.count '\n'
            column := (refusal.located source).position.column } } := by
  obtain ⟨read, rfl⟩ := h
  have hread : upTo (before ++ '\n' :: (read ++ refusal.spot)) refusal.spot =
      before ++ '\n' :: read := by
    rw [← List.cons_append, ← List.append_assoc, upTo_append]
  unfold Refusal.located
  rw [hread, upTo_append, after_below]

def separators : List String :=
  [";", "\n", "\r\n"]

theorem separator_of_mem {sep : String} (h : sep ∈ separators) (more : List Char) :
    Separator (sep.toList ++ more) more := by
  simp only [separators, List.mem_cons, List.not_mem_nil, or_false] at h
  rcases h with rfl | rfl | rfl
  · exact .semicolon
  · exact .lineFeed
  · exact .carriageReturn

/-- By induction on the first script, a text joined on is read as it would be alone. -/
theorem readScript_join {source sep : String} {script : Script} (h : parse source = .ok script)
    (hsep : sep ∈ separators) (more : String) :
    readScript (source ++ sep ++ more).toList =
      (readScript more.toList).map (script ++ ·) := by
  rw [parse_eq_ok_iff_readScript] at h
  rw [String.toList_append, String.toList_append, List.append_assoc]
  exact readScript_append h (separator_of_mem hsep _)

/-- Texts joined by a separator parse to both scripts, one after the other. -/
theorem parse_join {source sep later : String} {script script' : Script}
    (h : parse source = .ok script) (hsep : sep ∈ separators) (hlater : parse later = .ok script') :
    parse (source ++ sep ++ later) = .ok (script ++ script') := by
  rw [parse_eq_ok_iff_readScript] at hlater ⊢
  rw [readScript_join h hsep, hlater]
  rfl

/-- A fault in a text put below another is the same fault, further down by the lines above. -/
theorem parse_below {source later : String} {script : Script} {fault : SyntaxFault}
    (h : parse source = .ok script) (hlater : parse later = .error fault) :
    parse (source ++ "\n" ++ later) = .error
      { message := fault.message
        position :=
          { line := fault.position.line + 1 + source.toList.count '\n'
            column := fault.position.column } } := by
  have hfeed : "\n" ∈ separators := by simp [separators]
  have hchars : (source ++ "\n" ++ later).toList = source.toList ++ '\n' :: later.toList := by
    simp
  obtain ⟨refusal, hread, rfl⟩ := (parse_eq_error_iff later fault).mp hlater
  refine (parse_eq_error_iff _ _).mpr ⟨refusal, ?_, ?_⟩
  · rw [readScript_join h hfeed later, hread]
    rfl
  · rw [hchars, located_below _ (spot_suffix_of_readScript hread)]

theorem parse_print {script : Script} (h : WellFormed script) :
    parse (print script) = .ok script := by
  rw [parse_eq_ok_iff_readScript, readScript_eq_ok_iff]
  exact spells_print h

end OntologyGraph.Script
