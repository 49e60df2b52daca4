import Mathlib.Data.List.TakeWhile
import OntologyGraph.Decimal.Layout
import OntologyGraph.Decimal.Numeral

/-!
Texts of integers as numerals. What is written for an integer is read as that integer, and as that
number where a float is expected.
-/

namespace OntologyGraph.Decimal

theorem isDigit_of_mem_digitsOf {n : Nat} {c : Char} (h : c ∈ digitsOf n) : c.isDigit = true :=
  Nat.isDigit_of_mem_toDigits (by decide) (by decide) h

theorem mem_integerText {n : Int} {c : Char} (h : c ∈ integerText n) :
    c = '-' ∨ c.isDigit = true := by
  cases n with
  | ofNat n => exact .inr (isDigit_of_mem_digitsOf h)
  | negSucc n => exact (List.mem_cons.mp h).imp_right isDigit_of_mem_digitsOf

/-- Digits begin with no sign. -/
theorem exists_digitsOf (n : Nat) : ∃ c cs, digitsOf n = c :: cs ∧ c ≠ '+' ∧ c ≠ '-' := by
  cases hdigits : digitsOf n with
  | nil => exact absurd hdigits Nat.toDigits_ne_nil
  | cons c cs =>
    have hdigit : c.isDigit = true := isDigit_of_mem_digitsOf (hdigits ▸ List.mem_cons_self)
    refine ⟨c, cs, rfl, ?_, ?_⟩
    · rintro rfl
      cases hdigit
    · rintro rfl
      cases hdigit

theorem integer?_integerText (n : Int) : integer? (integerText n) = some n := by
  cases n with
  | ofNat n =>
    obtain ⟨c, cs, hdigits, hplus, hminus⟩ := exists_digitsOf n
    have hnatural : natural? (c :: cs) = some n := hdigits ▸ natural?_toDigits n
    rw [integerText, hdigits, integer?, if_neg hminus, unsigned?, if_neg hplus, hnatural]
    rfl
  | negSucc n =>
    have hnatural : natural? (digitsOf (n + 1)) = some (n + 1) := natural?_toDigits (n + 1)
    rw [integerText, integer?, if_pos rfl, hnatural]
    rfl

theorem int64?_integerText (n : Int64) : int64? (integerText n.toInt) = some n := by
  have hlow : decide (Int64.minValue.toInt ≤ n.toInt) = true := decide_eq_true n.minValue_le_toInt
  have hhigh : decide (n.toInt ≤ Int64.maxValue.toInt) = true := decide_eq_true n.toInt_le
  rw [int64?, integer?_integerText, Option.bind_some, hlow, hhigh, Int64.ofInt_toInt]
  rfl

private theorem splitSign_integerText (n : Int) :
    splitSign (integerText n) = (decide (n < 0), digitsOf n.natAbs) := by
  cases n with
  | ofNat n =>
    obtain ⟨c, cs, hdigits, hplus, hminus⟩ := exists_digitsOf n
    have hsign : decide (Int.ofNat n < 0) = false := decide_eq_false (by simp)
    rw [integerText, hsign, Int.natAbs_ofNat', hdigits, splitSign, if_neg hminus, if_neg hplus]
  | negSucc n =>
    have hsign : decide (Int.negSucc n < 0) = true := decide_eq_true (Int.negSucc_lt_zero n)
    rw [integerText, hsign, splitSign, if_pos rfl]
    rfl

private theorem scientific?_digitsOf (n : Nat) : scientific? (digitsOf n) = some (n, 0) := by
  have hdigits : ∀ c ∈ digitsOf n, c.isDigit = true := fun _ hmem => isDigit_of_mem_digitsOf hmem
  have hwhole : (digitsOf n).takeWhile Char.isDigit = digitsOf n :=
    List.takeWhile_eq_self_iff.mpr hdigits
  have hrest : (digitsOf n).dropWhile Char.isDigit = [] := List.dropWhile_eq_nil_iff.mpr hdigits
  have hne : digitsOf n ≠ [] := Nat.toDigits_ne_nil
  have hvalue : valueOf (digitsOf n) = n := Nat.ofDigitChars_ten_toDigits
  simp [scientific?, hwhole, hrest, hne, powerOfTen?, hvalue]

theorem float?_integerText (n : Int) :
    float? (integerText n) = some (.finite (decide (n < 0)) n.natAbs 0) := by
  rw [float?, splitSign_integerText]
  dsimp only
  rw [scientific?_digitsOf]

end OntologyGraph.Decimal
