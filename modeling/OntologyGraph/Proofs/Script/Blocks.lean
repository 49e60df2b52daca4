import OntologyGraph.Proofs.Script.Tokens

/-!
Blocks. A reader goes from pair to pair and decides behind each whether a comma or the brace
follows; the grammar has a list of pairs, then perhaps a comma, then the brace. Both come to the
same, by way of a relation that follows the reader's order.
-/

namespace OntologyGraph.Script

open Grammar

theorem outcome_readValue_eq_ok_iff (cs : List Char) (text : String) (rest : List Char) :
    (readValue cs).outcome = .ok (text, rest) ↔
      ∃ beforeText ds chars, Run SpaceOrBreak cs (':' :: beforeText) ∧
        Run SpaceOrBreak beforeText ('"' :: ds) ∧ text = String.ofList chars ∧
        QuotedText ds chars rest := by
  rw [outcome_readValue]
  constructor
  · intro h
    split at h
    · cases h
    · next u beforeText hcolon =>
      have hcolon := (outcome_expect_eq_ok_iff (by simp [SpaceOrBreak]) cs beforeText).mp hcolon
      split at h
      · cases h
      · obtain ⟨ds, chars, hskip, rfl, htext⟩ := (outcome_readText_eq_ok_iff _ text rest).mp h
        have hrun := run_skipBreaks beforeText
        rw [hskip] at hrun
        exact ⟨beforeText, ds, chars, hcolon, hrun, rfl, htext⟩
  · rintro ⟨beforeText, ds, chars, hcolon, hrun, rfl, htext⟩
    rw [(outcome_expect_eq_ok_iff (by simp [SpaceOrBreak]) cs beforeText).mpr hcolon]
    have hskip : skipBreaks beforeText = '"' :: ds :=
      skipBreaks_eq hrun (stops_cons.mpr (by simp [SpaceOrBreak]))
    have hread : (readText (skipBreaks beforeText)).outcome = .ok (String.ofList chars, rest) :=
      (outcome_readText_eq_ok_iff _ _ rest).mpr ⟨ds, chars, hskip, rfl, htext⟩
    simp only [hread]

/-- A pair is read exactly where the grammar has one. -/
theorem outcome_readPair_eq_ok_iff (cs : List Char) (pair : Pair) (rest : List Char) :
    (readPair cs).outcome = .ok (pair, rest) ↔ KeyText cs pair rest := by
  rw [outcome_readPair]
  constructor
  · intro h
    split at h
    · cases h
    · next key afterKey hkey =>
      obtain ⟨⟨text, rest'⟩, hvalue, heq⟩ := Except.map_eq_ok_iff.mp h
      cases heq
      obtain ⟨beforeText, ds, chars, hcolon, hrun, rfl, htext⟩ :=
        (outcome_readValue_eq_ok_iff afterKey text rest).mp hvalue
      exact .mk ((outcome_readIdentifier_eq_ok_iff cs key afterKey).mp hkey) hcolon hrun htext
  · intro h
    obtain ⟨hkey, hcolon, hrun, htext⟩ := h
    rw [(outcome_readIdentifier_eq_ok_iff cs _ _).mpr hkey]
    have hvalue := (outcome_readValue_eq_ok_iff _ _ rest).mpr ⟨_, _, _, hcolon, hrun, rfl, htext⟩
    simp only [hvalue, Except.map]

theorem outcome_readPair_absent {cs : List Char} (hname : Stops NameStart cs)
    (hquote : Stops (· = '\x60') cs) : (readPair cs).outcome = .error none := by
  rw [outcome_readPair, outcome_readIdentifier_absent hname hquote]

theorem outcome_eq_of_done {α : Type} {n : Nat} {r : Reading α n} {value : α} {rest : List Char}
    {h : rest.length < n} (hr : r = .done value rest h) : r.outcome = .ok (value, rest) := by
  rw [hr]
  rfl

theorem done_of_outcome_eq {α : Type} {n : Nat} {r : Reading α n} {value : α} {rest : List Char}
    (h : r.outcome = .ok (value, rest)) : ∃ shorter, r = .done value rest shorter := by
  cases r with
  | done value' rest' shorter =>
    cases h
    exact ⟨shorter, rfl⟩
  | absent => cases h
  | stuck spot => cases h

theorem keyText_stops {cs rest : List Char} {pair : Pair} (h : KeyText cs pair rest) :
    Stops SpaceOrBreak cs := by
  obtain ⟨hkey, -, -, -⟩ := h
  exact ident_stops not_spaceOrBreak_of_nameStart (by simp [SpaceOrBreak]) hkey

/-- What stands behind an opening brace or a comma, in the order in which it is read. -/
inductive PairsToBrace : List Char → List Pair → List Char → Prop where
  | close {cs rest : List Char} : Run SpaceOrBreak cs ('\x7d' :: rest) → PairsToBrace cs [] rest
  | last {cs first afterPair rest : List Char} {pair : Pair} : Run SpaceOrBreak cs first →
      KeyText first pair afterPair → Run SpaceOrBreak afterPair ('\x7d' :: rest) →
      PairsToBrace cs [pair] rest
  | more {cs first afterPair next rest : List Char} {pair : Pair} {pairs : List Pair} :
      Run SpaceOrBreak cs first → KeyText first pair afterPair →
      Run SpaceOrBreak afterPair (',' :: next) → PairsToBrace next pairs rest →
      PairsToBrace cs (pair :: pairs) rest

theorem pairsToBrace_of_readPairs {cs rest : List Char} {pairs : List Pair}
    (h : (readPairs cs).outcome = .ok (pairs, rest)) : PairsToBrace cs pairs rest := by
  have hbrace : ¬ SpaceOrBreak '\x7d' := by simp [SpaceOrBreak]
  have hcomma : ¬ SpaceOrBreak ',' := by simp [SpaceOrBreak]
  fun_induction readPairs cs generalizing pairs rest with
  | case1 => cases h
  | case2 cs _ =>
    rw [Reading.outcome_map] at h
    obtain ⟨⟨_, rest'⟩, hclose, heq⟩ := Except.map_eq_ok_iff.mp h
    cases heq
    exact .close ((outcome_expect_eq_ok_iff hbrace cs rest).mp hclose)
  | case3 cs pair afterPair _ hpair _ _ next _ hnext ih =>
    rw [Reading.outcome_map] at h
    obtain ⟨⟨pairs', rest'⟩, hread, heq⟩ := Except.map_eq_ok_iff.mp h
    cases heq
    have hpair := (outcome_readPair_eq_ok_iff _ pair afterPair).mp (outcome_eq_of_done hpair)
    have hnext := (outcome_expect_eq_ok_iff hcomma afterPair next).mp (outcome_eq_of_done hnext)
    exact .more (run_skipBreaks cs) hpair hnext (ih hread)
  | case4 cs pair afterPair _ hpair _ _ =>
    rw [Reading.outcome_map] at h
    obtain ⟨⟨_, rest'⟩, hclose, heq⟩ := Except.map_eq_ok_iff.mp h
    cases heq
    have hpair := (outcome_readPair_eq_ok_iff _ pair afterPair).mp (outcome_eq_of_done hpair)
    have hclose := (outcome_expect_eq_ok_iff hbrace afterPair rest).mp hclose
    exact .last (run_skipBreaks cs) hpair hclose

/-- A pair is read behind blanks. -/
theorem outcome_readPair_behind {cs first rest : List Char} {pair : Pair}
    (hfirst : Run SpaceOrBreak cs first) (hpair : KeyText first pair rest) :
    (readPair (skipBreaks cs)).outcome = .ok (pair, rest) := by
  rw [skipBreaks_eq hfirst (keyText_stops hpair)]
  exact (outcome_readPair_eq_ok_iff first pair rest).mpr hpair

theorem readPairs_of_pairsToBrace {cs rest : List Char} {pairs : List Pair}
    (h : PairsToBrace cs pairs rest) : (readPairs cs).outcome = .ok (pairs, rest) := by
  have hbrace : ¬ SpaceOrBreak '\x7d' := by simp [SpaceOrBreak]
  have hcomma : ¬ SpaceOrBreak ',' := by simp [SpaceOrBreak]
  induction h with
  | @close cs rest hclose =>
    have hskip := skipBreaks_eq hclose (stops_cons.mpr hbrace)
    have habsent : (readPair (skipBreaks cs)).outcome = .error none := by
      rw [hskip]
      exact outcome_readPair_absent (stops_cons.mpr (by simp [NameStart]))
        (stops_cons.mpr (by simp))
    rw [outcome_readPairs, habsent]
    simp only [(outcome_expect_eq_ok_iff hbrace cs rest).mpr hclose, Except.map]
  | @last cs first afterPair rest pair hfirst hpair hclose =>
    have hcomma := outcome_expect_of_ne (by decide : '\x7d' ≠ ',') hbrace hclose
    have hclose := (outcome_expect_eq_ok_iff hbrace afterPair rest).mpr hclose
    rw [outcome_readPairs, outcome_readPair_behind hfirst hpair]
    simp only [hcomma, hclose, Except.map]
  | @more cs first afterPair next rest pair pairs hfirst hpair hnext _ ih =>
    rw [outcome_readPairs, outcome_readPair_behind hfirst hpair]
    simp only [(outcome_expect_eq_ok_iff hcomma afterPair next).mpr hnext, ih, Except.map]

/-- The pairs up to a brace are none, or a list of pairs with or without a last comma. -/
theorem pairsToBrace_split {cs rest : List Char} {pairs : List Pair}
    (h : PairsToBrace cs pairs rest) :
    (pairs = [] ∧ Run SpaceOrBreak cs ('\x7d' :: rest)) ∨
      ∃ first afterPairs beforeBrace, Run SpaceOrBreak cs first ∧
        KeyTexts first pairs afterPairs ∧ LastComma afterPairs beforeBrace ∧
        Run SpaceOrBreak beforeBrace ('\x7d' :: rest) := by
  induction h with
  | close hclose => exact .inl ⟨rfl, hclose⟩
  | @last cs first afterPair rest pair hfirst hpair hclose =>
    exact .inr ⟨first, afterPair, afterPair, hfirst, .one hpair, .absent, hclose⟩
  | @more cs first afterPair next rest pair pairs hfirst hpair hnext _ ih =>
    rcases ih with ⟨rfl, hclose⟩ | ⟨first', afterPairs, beforeBrace, hrun, hpairs, hlast, hclose⟩
    · exact .inr ⟨first, afterPair, next, hfirst, .one hpair, .present hnext, hclose⟩
    · exact .inr ⟨first, afterPairs, beforeBrace, hfirst, .more hpair hnext hrun hpairs, hlast,
        hclose⟩

theorem pairsToBrace_of_keyTexts {first afterPairs beforeBrace rest : List Char}
    {pairs : List Pair} (hpairs : KeyTexts first pairs afterPairs)
    (hlast : LastComma afterPairs beforeBrace)
    (hclose : Run SpaceOrBreak beforeBrace ('\x7d' :: rest)) {cs : List Char}
    (hfirst : Run SpaceOrBreak cs first) : PairsToBrace cs pairs rest := by
  induction hpairs generalizing cs with
  | one hpair =>
    cases hlast with
    | absent => exact .last hfirst hpair hclose
    | present hcomma => exact .more hfirst hpair hcomma (.close hclose)
  | more hpair hcomma hrun _ ih => exact .more hfirst hpair hcomma (ih hlast hrun)

/-- Behind an opening brace a block is pairs up to the closing one. -/
theorem braced_iff (cs : List Char) (block : Block) (rest : List Char) :
    Braced ('\x7b' :: cs) block rest ↔ PairsToBrace cs block rest := by
  constructor
  · intro h
    cases h with
    | empty hclose => exact .close hclose
    | pairs hfirst hpairs hlast hclose => exact pairsToBrace_of_keyTexts hpairs hlast hclose hfirst
  · intro h
    rcases pairsToBrace_split h with ⟨rfl, hclose⟩ | ⟨_, _, _, hfirst, hpairs, hlast, hclose⟩
    · exact .empty hclose
    · exact .pairs hfirst hpairs hlast hclose

theorem outcome_readBlock_absent {cs : List Char} (h : Stops (· = '\x7b') cs) :
    (readBlock cs).outcome = .error none := by
  cases cs with
  | nil => rfl
  | cons c cs =>
    have hc : ¬ c = '\x7b' := h c rfl
    rw [outcome_readBlock_cons, if_neg hc]

/-- A block is read exactly where the grammar has one. -/
theorem outcome_readBlock_eq_ok_iff (cs : List Char) (block : Block) (rest : List Char) :
    (readBlock cs).outcome = .ok (block, rest) ↔ Braced cs block rest := by
  cases cs with
  | nil =>
    rw [outcome_readBlock_nil]
    constructor <;> intro h <;> cases h
  | cons c cs =>
    rw [outcome_readBlock_cons]
    constructor
    · intro h
      split at h
      · next hc =>
        rw [hc, braced_iff]
        exact pairsToBrace_of_readPairs h
      · cases h
    · intro h
      have hc : c = '\x7b' := by cases h <;> rfl
      subst hc
      rw [if_pos rfl]
      exact readPairs_of_pairsToBrace ((braced_iff cs block rest).mp h)

theorem braced_stops {P : Char → Prop} (hP : ¬ P '\x7b') {cs rest : List Char} {block : Block}
    (h : Braced cs block rest) : Stops P cs := by
  cases h <;> exact stops_cons.mpr hP

end OntologyGraph.Script
