import OntologyGraph.Proofs.Script.Characters
import OntologyGraph.Proofs.Script.Readings

/-!
Marks, names and quoted texts: the reader of each succeeds exactly when the grammar has one of its
kind at the front of the text, with the same value and the same rest.
-/

namespace OntologyGraph.Script

open Grammar

/-- A mark that is no blank is what is met behind the blanks. -/
theorem outcome_expect_eq_ok_iff {mark : Char} (hmark : ¬ SpaceOrBreak mark)
    (cs rest : List Char) :
    (expect mark cs).outcome = .ok ((), rest) ↔ Run SpaceOrBreak cs (mark :: rest) := by
  rw [outcome_expect]
  constructor
  · intro h
    have hrun := run_skipBreaks cs
    split at h
    · cases h
    · next c more hskip =>
      split at h
      · next hc =>
        cases h
        rw [hskip, hc] at hrun
        exact hrun
      · cases h
  · intro h
    rw [skipBreaks_eq h (stops_cons.mpr hmark)]
    simp

/-- Another mark than the expected one is met behind the blanks. -/
theorem outcome_expect_of_ne {mark c : Char} (hne : c ≠ mark) (hc : ¬ SpaceOrBreak c)
    {cs rest : List Char} (h : Run SpaceOrBreak cs (c :: rest)) :
    (expect mark cs).outcome = .error (some (c :: rest)) := by
  rw [outcome_expect, skipBreaks_eq h (stops_cons.mpr hc)]
  simp [hne]

theorem takeWhile_eq_of_append {p : Char → Bool} {P : Char → Prop} (hp : ∀ c, p c = true ↔ P c)
    {run rest : List Char} (hrun : ∀ c ∈ run, P c) (hstop : Stops P rest) :
    (run ++ rest).takeWhile p = run := by
  rw [List.takeWhile_append_of_pos fun c hc => (hp c).mpr (hrun c hc)]
  cases rest with
  | nil => simp
  | cons c rest =>
    have hc : ¬ p c = true := fun h => stops_cons.mp hstop ((hp c).mp h)
    rw [List.takeWhile_cons_of_neg hc, List.append_nil]

/-- A word is read exactly where the grammar has one, and as long as it can be. -/
theorem outcome_readWord_eq_ok_iff (cs : List Char) (word : String) (rest : List Char) :
    (readWord cs).outcome = .ok (word, rest) ↔ Word cs word rest := by
  cases cs with
  | nil =>
    rw [outcome_readWord_nil]
    constructor
    · intro h
      cases h
    · rintro ⟨htext, hname, -⟩
      rw [(List.append_eq_nil_iff.mp htext.symm).1] at hname
      exact hname.elim
  | cons c cs =>
    rw [outcome_readWord_cons]
    constructor
    · intro h
      split at h
      · next hc =>
        cases h
        refine ⟨?_, ?_, stops_dropWhile isNamePart_iff cs⟩
        · simp
        · rw [String.toList_ofList]
          refine ⟨(isNameStart_iff c).mp hc, ?_⟩
          intro d hd
          exact (isNamePart_iff d).mp (List.mem_takeWhile_imp hd)
      · cases h
    · rintro ⟨htext, hname, hstop⟩
      cases hword : word.toList with
      | nil =>
        rw [hword] at hname
        exact hname.elim
      | cons d ds =>
        rw [hword] at htext hname
        obtain ⟨hd, hds⟩ := hname
        rw [List.cons_append, List.cons.injEq] at htext
        obtain ⟨rfl, rfl⟩ := htext
        have htake := takeWhile_eq_of_append isNamePart_iff hds hstop
        have hdrop := dropWhile_eq_of_run isNamePart_iff ⟨ds, rfl, hds⟩ hstop
        rw [if_pos ((isNameStart_iff c).mpr hd), htake, hdrop, ← hword, String.ofList_toList]

theorem word_cons {cs rest : List Char} {word : String} (h : Word cs word rest) :
    ∃ c ds, cs = c :: ds ∧ NameStart c := by
  obtain ⟨rfl, hname, -⟩ := h
  cases hword : word.toList with
  | nil =>
    rw [hword] at hname
    exact hname.elim
  | cons c ds =>
    rw [hword] at hname
    exact ⟨c, ds ++ rest, rfl, hname.1⟩

/-- A bare name begins with a character that is in no class of other characters. -/
theorem word_stops {P : Char → Prop} (hP : ∀ c, NameStart c → ¬ P c) {cs rest : List Char}
    {word : String} (h : Word cs word rest) : Stops P cs := by
  obtain ⟨c, ds, rfl, hc⟩ := word_cons h
  exact stops_cons.mpr (hP c hc)

theorem outcome_readWord_absent {cs : List Char} (h : Stops NameStart cs) :
    (readWord cs).outcome = .error none := by
  cases cs with
  | nil => rfl
  | cons c cs =>
    rw [outcome_readWord_cons, if_neg]
    exact fun hc => stops_cons.mp h ((isNameStart_iff c).mp hc)

/-- A quoted name is read exactly where the grammar has one, doubled backticks and all. -/
theorem readBody?_eq_some_iff (cs name rest : List Char) :
    Text.Backtick.readBody? cs = some (name, rest) ↔ QuotedName cs name rest := by
  constructor
  · intro h
    fun_induction Text.Backtick.readBody? cs generalizing name rest with
    | case1 => cases h
    | case2 =>
      cases h
      exact .close stops_nil
    | case3 ds ih =>
      obtain ⟨⟨name', rest'⟩, hread, heq⟩ := Option.map_eq_some_iff.mp h
      cases heq
      exact .doubled (ih name' rest hread)
    | case4 d ds hd =>
      cases h
      exact .close (stops_cons.mpr hd)
    | case5 c cs hc ih =>
      obtain ⟨⟨name', rest'⟩, hread, heq⟩ := Option.map_eq_some_iff.mp h
      cases heq
      exact .other hc (ih name' rest hread)
  · intro h
    induction h with
    | @close rest hstop =>
      cases rest with
      | nil => rfl
      | cons d ds =>
        have hd : d ≠ '\x60' := hstop d rfl
        simp [Text.Backtick.readBody?, Text.Backtick.mark, hd]
    | doubled _ ih =>
      simp [Text.Backtick.readBody?, Text.Backtick.mark, ih]
    | other hc _ ih =>
      rw [Text.Backtick.readBody?_cons_of_ne hc, ih]
      rfl

theorem unescape?_eq_some_iff (c d : Char) : Text.Quoted.unescape? c = some d ↔ Escape c d := by
  constructor
  · intro h
    unfold Text.Quoted.unescape? at h
    split at h
    · next hc =>
      cases h
      exact hc ▸ .quote
    split at h
    · next hc =>
      cases h
      exact hc ▸ .backslash
    split at h
    · next hc =>
      cases h
      exact hc ▸ .newline
    split at h
    · next hc =>
      cases h
      exact hc ▸ .tab
    split at h
    · next hc =>
      cases h
      exact hc ▸ .carriageReturn
    · cases h
  · intro h
    cases h <;> rfl

/-- A quoted text is read exactly where the grammar has one, escapes and all. -/
theorem readBody_eq_ok_iff (cs text rest : List Char) :
    Text.Quoted.readBody cs = .ok (text, rest) ↔ QuotedText cs text rest := by
  constructor
  · intro h
    fun_induction Text.Quoted.readBody cs generalizing text rest with
    | case1 => cases h
    | case2 =>
      cases h
      exact .close
    | case3 => cases h
    | case4 d ds e he _ ih =>
      obtain ⟨⟨text', rest'⟩, hread, heq⟩ := Except.map_eq_ok_iff.mp h
      cases heq
      exact .escape ((unescape?_eq_some_iff d e).mp he) (ih text' rest hread)
    | case5 => cases h
    | case6 c cs hq hb ih =>
      obtain ⟨⟨text', rest'⟩, hread, heq⟩ := Except.map_eq_ok_iff.mp h
      cases heq
      exact .other hq hb (ih text' rest hread)
  · intro h
    induction h with
    | @close rest => cases rest <;> rfl
    | escape he _ ih =>
      have he := (unescape?_eq_some_iff _ _).mpr he
      simp [Text.Quoted.readBody, he, ih, Except.map]
    | other hq hb _ ih =>
      rw [Text.Quoted.readBody_cons_of_ne hq hb, ih]
      rfl

/-- Where neither a bare name nor a quoted one begins, no identifier begins. -/
theorem outcome_readIdentifier_absent {cs : List Char} (hname : Stops NameStart cs)
    (hquote : Stops (· = '\x60') cs) : (readIdentifier cs).outcome = .error none := by
  have hquoted : (readQuotedName cs).outcome = .error none := by
    cases cs with
    | nil => rfl
    | cons c cs =>
      have hc : c ≠ Text.Backtick.mark := hquote c rfl
      rw [outcome_readQuotedName_cons, if_neg hc]
  rw [outcome_readIdentifier, hquoted]
  simp only [outcome_readWord_absent hname, Except.map]

theorem outcome_readQuotedName_eq_ok_iff (cs : List Char) (name : String) (rest : List Char) :
    (readQuotedName cs).outcome = .ok (name, rest) ↔
      ∃ ds chars, cs = '\x60' :: ds ∧ name = String.ofList chars ∧ QuotedName ds chars rest := by
  cases cs with
  | nil =>
    rw [outcome_readQuotedName_nil]
    constructor
    · intro h
      cases h
    · rintro ⟨ds, chars, h, -, -⟩
      cases h
  | cons c cs =>
    rw [outcome_readQuotedName_cons]
    constructor
    · intro h
      split at h
      · next hc =>
        split at h
        · next chars more hread =>
          cases h
          exact ⟨cs, chars, by rw [hc]; rfl, rfl, (readBody?_eq_some_iff cs chars rest).mp hread⟩
        · cases h
      · cases h
    · rintro ⟨ds, chars, htext, rfl, hname⟩
      cases htext
      rw [if_pos (by rfl), (readBody?_eq_some_iff cs chars rest).mpr hname]

theorem outcome_readIdentifier_eq_ok_iff (cs : List Char) (i : Identifier) (rest : List Char) :
    (readIdentifier cs).outcome = .ok (i, rest) ↔ Ident cs i rest := by
  rw [outcome_readIdentifier]
  constructor
  · intro h
    split at h
    · obtain ⟨⟨word, rest'⟩, hread, heq⟩ := Except.map_eq_ok_iff.mp h
      cases heq
      exact .bare ((outcome_readWord_eq_ok_iff cs word rest).mp hread)
    · next quoted _ =>
      obtain ⟨⟨name, rest'⟩, hread, heq⟩ := Except.map_eq_ok_iff.mp h
      cases heq
      obtain ⟨ds, chars, rfl, rfl, hname⟩ :=
        (outcome_readQuotedName_eq_ok_iff cs name rest).mp hread
      exact .quoted hname
  · intro h
    cases h with
    | @bare cs rest word hword =>
      have hquote : (readQuotedName cs).outcome = .error none := by
        obtain ⟨c, ds, rfl, hc⟩ := word_cons hword
        rw [outcome_readQuotedName_cons, if_neg]
        rintro rfl
        exact absurd hc (by simp [NameStart, Text.Backtick.mark])
      rw [hquote]
      simp only [(outcome_readWord_eq_ok_iff cs word rest).mpr hword, Except.map]
    | @quoted ds chars rest hname =>
      have hread := (outcome_readQuotedName_eq_ok_iff _ _ rest).mpr ⟨ds, chars, rfl, rfl, hname⟩
      rw [hread]
      rfl

/-- An identifier begins with a character that is in no class of other characters. -/
theorem ident_stops {P : Char → Prop} (hname : ∀ c, NameStart c → ¬ P c) (hquote : ¬ P '\x60')
    {cs rest : List Char} {i : Identifier} (h : Ident cs i rest) : Stops P cs := by
  cases h with
  | bare hword => exact word_stops hname hword
  | quoted _ => exact stops_cons.mpr hquote

theorem outcome_readText_eq_ok_iff (cs : List Char) (text : String) (rest : List Char) :
    (readText cs).outcome = .ok (text, rest) ↔
      ∃ ds chars, cs = '"' :: ds ∧ text = String.ofList chars ∧ QuotedText ds chars rest := by
  cases cs with
  | nil =>
    rw [outcome_readText_nil]
    constructor
    · intro h
      cases h
    · rintro ⟨ds, chars, h, -, -⟩
      cases h
  | cons c cs =>
    rw [outcome_readText_cons]
    constructor
    · intro h
      split at h
      · next hc =>
        split at h
        · next chars more hread =>
          cases h
          exact ⟨cs, chars, by rw [hc], rfl, (readBody_eq_ok_iff cs chars rest).mp hread⟩
        · cases h
      · cases h
    · rintro ⟨ds, chars, htext, rfl, hname⟩
      cases htext
      rw [if_pos rfl, (readBody_eq_ok_iff cs chars rest).mpr hname]

end OntologyGraph.Script
