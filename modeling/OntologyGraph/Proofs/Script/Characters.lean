import Mathlib.Data.List.TakeWhile
import OntologyGraph.Proofs.Script.Grammar
import OntologyGraph.Script.Reader

/-!
The classes of characters that the readers test are those of the grammar, and skipping a class is
taking the longest run of it. No character that begins a name is blank or a separator.
-/

namespace OntologyGraph.Script

open Grammar

theorem isNameStart_iff (c : Char) : Text.isNameStart c = true ↔ NameStart c := by
  have hupper : c.isUpper = true ↔ 'A' ≤ c ∧ c ≤ 'Z' := by
    delta Char.isUpper
    rw [decide_eq_true_eq]
    rfl
  have hlower : c.isLower = true ↔ 'a' ≤ c ∧ c ≤ 'z' := by
    delta Char.isLower
    rw [Bool.and_eq_true, decide_eq_true_eq, decide_eq_true_eq]
    rfl
  have halpha : c.isAlpha = true ↔ c.isUpper = true ∨ c.isLower = true := Bool.or_eq_true_iff
  rw [Text.isNameStart, Bool.or_eq_true, halpha, hupper, hlower, beq_iff_eq, or_assoc, NameStart]

theorem isNamePart_iff (c : Char) : Text.isNamePart c = true ↔ NamePart c := by
  have hdigit : c.isDigit = true ↔ '0' ≤ c ∧ c ≤ '9' := by
    simp only [Char.isDigit, Bool.and_eq_true, decide_eq_true_eq]
    rfl
  have hstart : Text.isNameStart c = true ↔ c.isAlpha = true ∨ (c == '_') = true := by
    simp only [Text.isNameStart, Bool.or_eq_true]
  rw [NamePart, ← isNameStart_iff, hstart, ← hdigit]
  simp only [Text.isNamePart, Char.isAlphanum, Bool.or_eq_true]
  constructor
  · rintro ((h | h) | h)
    · exact .inl (.inl h)
    · exact .inr h
    · exact .inl (.inr h)
  · rintro ((h | h) | h)
    · exact .inl (.inl h)
    · exact .inr h
    · exact .inl (.inr h)

theorem isSpace_iff (c : Char) : isSpace c = true ↔ Space c := by
  simp [isSpace, Space]

theorem isSpaceOrBreak_iff (c : Char) : isSpaceOrBreak c = true ↔ SpaceOrBreak c := by
  simp only [isSpaceOrBreak, isSpace, SpaceOrBreak, Bool.or_eq_true, beq_iff_eq]
  constructor
  · rintro (((h | h) | h) | h)
    · exact .inl h
    · exact .inr (.inl h)
    · exact .inr (.inr (.inr h))
    · exact .inr (.inr (.inl h))
  · rintro (h | h | h | h)
    · exact .inl (.inl (.inl h))
    · exact .inl (.inl (.inr h))
    · exact .inr h
    · exact .inl (.inr h)

theorem isSeparator_iff (c : Char) : isSeparator c = true ↔ Filler c := by
  simp [isSeparator, Filler]

theorem isName_iff (cs : List Char) : Text.isName cs = true ↔ IsName cs := by
  cases cs with
  | nil => simp [Text.isName, IsName]
  | cons c cs =>
    simp only [Text.isName, IsName, Bool.and_eq_true, List.all_eq_true, isNameStart_iff,
      isNamePart_iff]

private theorem nameStart_bounds {c : Char} (h : NameStart c) : 65 ≤ c.toNat ∧ c.toNat ≤ 122 := by
  simp only [NameStart, Char.le_def, UInt32.le_iff_toNat_le] at h
  change (65 ≤ c.toNat ∧ c.toNat ≤ 90) ∨ (97 ≤ c.toNat ∧ c.toNat ≤ 122) ∨ c = '_' at h
  rcases h with h | h | rfl
  · omega
  · omega
  · decide

theorem not_spaceOrBreak_of_nameStart (c : Char) (h : NameStart c) : ¬ SpaceOrBreak c := by
  rintro (rfl | rfl | rfl | rfl) <;> revert h <;> simp [NameStart]

theorem not_space_of_nameStart (c : Char) (h : NameStart c) : ¬ Space c := by
  rintro (rfl | rfl) <;> revert h <;> simp [NameStart]

theorem blank_bounds {c : Char} (h : Text.isBlank c = true) : c.toNat ≤ 32 ∨ 133 ≤ c.toNat := by
  simp only [Text.isBlank, Bool.or_eq_true, Bool.and_eq_true, decide_eq_true_eq, beq_iff_eq,
    Char.le_def, UInt32.le_iff_toNat_le] at h
  rcases h with (((((((((h | rfl) | rfl) | rfl) | rfl) | h) | rfl) | rfl) | rfl) | rfl) | rfl
  any_goals decide
  · have hle : c.toNat ≤ 13 := h.2
    omega
  · have hle : 8192 ≤ c.toNat := h.1
    omega

theorem not_filler_of_nameStart (c : Char) (h : NameStart c) : ¬ Filler c := by
  have hname := nameStart_bounds h
  rintro (hblank | rfl)
  · have hblank := blank_bounds hblank
    omega
  · exact absurd hname.1 (by decide)

section Runs

variable {p : Char → Bool} {P : Char → Prop}

theorem run_refl (cs : List Char) : Run P cs cs :=
  ⟨[], rfl, by simp⟩

theorem run_cons {c : Char} {cs rest : List Char} (hc : P c) (h : Run P cs rest) :
    Run P (c :: cs) rest := by
  obtain ⟨run, rfl, hrun⟩ := h
  refine ⟨c :: run, rfl, ?_⟩
  intro d hd
  rcases List.mem_cons.mp hd with rfl | hd
  · exact hc
  · exact hrun d hd

theorem stops_nil : Stops P [] := by
  intro c hc
  cases hc

theorem stops_cons {c : Char} {cs : List Char} : Stops P (c :: cs) ↔ ¬ P c := by
  constructor
  · intro h
    exact h c rfl
  · intro h d hd
    cases hd
    exact h

private theorem run_dropWhile (hp : ∀ c, p c = true ↔ P c) (cs : List Char) :
    Run P cs (cs.dropWhile p) := by
  refine ⟨cs.takeWhile p, List.takeWhile_append_dropWhile.symm, ?_⟩
  intro c hc
  exact (hp c).mp (List.mem_takeWhile_imp hc)

theorem stops_dropWhile (hp : ∀ c, p c = true ↔ P c) (cs : List Char) :
    Stops P (cs.dropWhile p) := by
  induction cs with
  | nil => exact stops_nil
  | cons c cs ih =>
    by_cases hc : p c = true
    · rw [List.dropWhile_cons_of_pos hc]
      exact ih
    · rw [List.dropWhile_cons_of_neg hc, stops_cons]
      exact fun h => hc ((hp c).mpr h)

/-- A run that cannot go on is the one that skipping finds. -/
theorem dropWhile_eq_of_run (hp : ∀ c, p c = true ↔ P c) {cs rest : List Char}
    (h : Run P cs rest) (hstop : Stops P rest) : cs.dropWhile p = rest := by
  obtain ⟨run, rfl, hrun⟩ := h
  rw [List.dropWhile_append_of_pos fun c hc => (hp c).mpr (hrun c hc)]
  cases rest with
  | nil => rfl
  | cons c rest =>
    have hc : ¬ p c = true := fun h => stops_cons.mp hstop ((hp c).mp h)
    rw [List.dropWhile_cons_of_neg hc]

end Runs

theorem run_skipBreaks (cs : List Char) : Run SpaceOrBreak cs (skipBreaks cs) :=
  run_dropWhile isSpaceOrBreak_iff cs

theorem skipBreaks_eq {cs rest : List Char} (h : Run SpaceOrBreak cs rest)
    (hstop : Stops SpaceOrBreak rest) : skipBreaks cs = rest :=
  dropWhile_eq_of_run isSpaceOrBreak_iff h hstop

theorem run_skipSpaces (cs : List Char) : Run Space cs (skipSpaces cs) :=
  run_dropWhile isSpace_iff cs

theorem skipSpaces_eq {cs rest : List Char} (h : Run Space cs rest) (hstop : Stops Space rest) :
    skipSpaces cs = rest :=
  dropWhile_eq_of_run isSpace_iff h hstop

theorem run_skipSeparators (cs : List Char) : Run Filler cs (skipSeparators cs) :=
  run_dropWhile isSeparator_iff cs

theorem skipSeparators_eq {cs rest : List Char} (h : Run Filler cs rest)
    (hstop : Stops Filler rest) : skipSeparators cs = rest :=
  dropWhile_eq_of_run isSeparator_iff h hstop

end OntologyGraph.Script
