import OntologyGraph.Proofs.Decimal.Integers
import OntologyGraph.Proofs.Time.Calendar
import OntologyGraph.Time.Timestamp

/-!
Texts of instants as timestamps. The text of an instant is a timestamp whatever the day, the time of
the day and the leap second are, if its year has four digits; a year with a sign makes it none.
-/

namespace OntologyGraph.Time

private theorem isDigit_of_mem_padded {width n : Nat} {c : Char} (h : c ∈ padded width n) :
    c.isDigit = true := by
  induction width generalizing n with
  | zero => cases h
  | succ width ih =>
    rcases List.mem_append.mp h with hmem | hmem
    · exact ih hmem
    · rw [List.mem_singleton.mp hmem, Nat.isDigit_digitChar, decide_eq_true_eq]
      exact Nat.mod_lt n (by decide)

private theorem length_padded (width n : Nat) : (padded width n).length = width := by
  induction width generalizing n with
  | zero => rfl
  | succ width ih => rw [padded, List.length_append, ih, List.length_singleton]

private theorem valueOf_padded {width n : Nat} (h : n < Nat.pow 10 width) :
    Decimal.valueOf (padded width n) = n := by
  induction width generalizing n with
  | zero =>
    have hzero : n = 0 := Nat.lt_one_iff.mp h
    rw [hzero]
    rfl
  | succ width ih =>
    have hfront : n / 10 < Nat.pow 10 width :=
      Nat.div_lt_of_lt_mul (Nat.mul_comm .. ▸ h)
    have hback : n % 10 < 10 := Nat.mod_lt n (by decide)
    have hvalue := ih hfront
    unfold Decimal.valueOf at hvalue ⊢
    rw [padded, Nat.ofDigitChars_append, hvalue, Nat.ofDigitChars_cons_digitChar_of_lt_ten hback,
      Nat.ofDigitChars_nil]
    omega

theorem natural?_padded {width n : Nat} (hwidth : 0 < width) (h : n < Nat.pow 10 width) :
    Decimal.natural? (padded width n) = some n := by
  have hne : padded width n ≠ [] := by
    rw [← List.length_pos_iff, length_padded]
    exact hwidth
  have hdigits : (padded width n).all Char.isDigit = true :=
    List.all_eq_true.mpr fun c hmem => isDigit_of_mem_padded hmem
  simp [Decimal.natural?, hne, hdigits, valueOf_padded h]

private theorem natural?_padded_two {n : Nat} (h : n < 100) :
    Decimal.natural? (padded 2 n) = some n :=
  natural?_padded (by decide) h

/-- The second sixty is that of a leap second. -/
private theorem timeOfDay_bounds (t : Instant) :
    t.timeOfDay.hour ≤ 23 ∧ t.timeOfDay.minute ≤ 59 ∧ t.timeOfDay.second ≤ 60 := by
  have hsecond : (t.seconds % 86400).toNat < 86400 := by omega
  have hleap := t.nanoseconds_lt
  unfold Instant.timeOfDay
  dsimp only
  omega

theorem isClockTime_padded {hour minute second : Nat} (hhour : hour ≤ 23) (hminute : minute ≤ 59)
    (hsecond : second ≤ 60) :
    isClockTime (padded 2 hour) (padded 2 minute) (padded 2 second) = true := by
  rw [isClockTime, natural?_padded_two (by omega), natural?_padded_two (by omega),
    natural?_padded_two (by omega)]
  simp [hhour, hminute, hsecond]

theorem daysInMonth_le (year : Int) (month : Nat) : daysInMonth year month ≤ 31 := by
  unfold daysInMonth
  repeat' split
  all_goals decide

theorem isDate_padded {year month day : Nat} (hyear : year < 10000)
    (h : Date.isValid ⟨year, month, day⟩ = true) :
    isDate (padded 4 year) (padded 2 month) (padded 2 day) = true := by
  obtain ⟨-, hmonth, -, hday⟩ := (isValid_iff _).mp h
  have hmonth_lt : month < 100 := Nat.lt_of_le_of_lt hmonth (by decide)
  have hday_lt : day < 100 := Nat.lt_of_le_of_lt (hday.trans (daysInMonth_le _ _)) (by decide)
  rw [isDate, natural?_padded (by decide) hyear, natural?_padded_two hmonth_lt,
    natural?_padded_two hday_lt]
  exact h

theorem isFractionAndOffset_padded (millisecond : Nat) :
    isFractionAndOffset ('.' :: padded 3 millisecond ++ ['Z']) = true := by
  have hdigits : ∀ c ∈ padded 3 millisecond, c.isDigit = true := fun c hmem =>
    isDigit_of_mem_padded hmem
  have hfraction : (padded 3 millisecond ++ ['Z']).takeWhile Char.isDigit ≠ [] := by
    rw [List.takeWhile_append_of_pos hdigits, ← List.length_pos_iff, List.length_append,
      length_padded]
    omega
  have hoffset : (padded 3 millisecond ++ ['Z']).dropWhile Char.isDigit = ['Z'] := by
    rw [List.dropWhile_append_of_pos hdigits]
    rfl
  have hzone : isOffset ['Z'] = true := rfl
  rw [List.cons_append, isFractionAndOffset, if_pos rfl, hoffset, hzone]
  simpa using hfraction

/-- Parts of the right widths are found where they are. -/
theorem isTimestamp_padded (year month day hour minute second : Nat) (rest : List Char) :
    isTimestamp (padded 4 year ++ '-' :: padded 2 month ++ '-' :: padded 2 day ++
        'T' :: padded 2 hour ++ ':' :: padded 2 minute ++ ':' :: padded 2 second ++ rest) =
      (isDate (padded 4 year) (padded 2 month) (padded 2 day) &&
        isClockTime (padded 2 hour) (padded 2 minute) (padded 2 second) &&
        isFractionAndOffset rest) := by
  rfl

/-- Behind the four digits of the year there is a dash. -/
private theorem dash_of_isTimestamp {cs : List Char} (h : isTimestamp cs = true) :
    cs[4]? = some '-' := by
  unfold isTimestamp at h
  split at h
  · simp only [Bool.and_eq_true, decide_eq_true_eq] at h
    simp [h]
  · cases h

theorem isTimestamp_chars {t : Instant} (hlow : 0 ≤ t.date.year) (hhigh : t.date.year ≤ 9999) :
    isTimestamp t.chars = true := by
  obtain ⟨hhour, hminute, hsecond⟩ := timeOfDay_bounds t
  have hyear : (t.date.year.toNat : Int) = t.date.year := Int.toNat_of_nonneg hlow
  have hvalid : Date.isValid ⟨t.date.year.toNat, t.date.month, t.date.day⟩ = true := by
    rw [hyear]
    exact isValid_ofDays (t.seconds / 86400)
  have hdigits : yearText t.date.year = padded 4 t.date.year.toNat := by
    unfold yearText
    simp [hlow, hhigh]
  unfold Instant.chars
  dsimp only
  rw [hdigits, List.append_assoc _ ('.' :: _), isTimestamp_padded,
    isDate_padded (by omega) hvalid, isClockTime_padded hhour hminute hsecond,
    isFractionAndOffset_padded]
  rfl

/-- A year that needs a sign has at least four digits behind it. -/
theorem yearText_signed {year : Int} (h : ¬ (0 ≤ year ∧ year ≤ 9999)) :
    ∃ sign digits, yearText year = sign :: digits ∧ 4 ≤ digits.length ∧
      ∀ c ∈ digits, c.isDigit = true := by
  let digits := Decimal.digitsOf year.natAbs
  have htext : yearText year =
      (if year < 0 then '-' else '+') :: (List.replicate (4 - digits.length) '0' ++ digits) := by
    unfold yearText
    rw [if_neg (by simpa using h)]
  refine ⟨_, _, htext, ?_, ?_⟩
  · rw [List.length_append, List.length_replicate]
    omega
  · intro c hmem
    rcases List.mem_append.mp hmem with hzero | hdigit
    · rw [List.eq_of_mem_replicate hzero]
      decide
    · exact Decimal.isDigit_of_mem_digitsOf hdigit

theorem not_isTimestamp_chars {t : Instant} (h : ¬ (0 ≤ t.date.year ∧ t.date.year ≤ 9999)) :
    isTimestamp t.chars = false := by
  obtain ⟨sign, digits, htext, hlength, hdigits⟩ := yearText_signed h
  -- The sign moves the fourth digit to where a timestamp has its first dash.
  have hfourth : t.chars[4]? = some digits[3] := by
    unfold Instant.chars
    simp only [htext, List.cons_append, List.append_assoc, List.getElem?_cons_succ]
    rw [List.getElem?_append_left hlength, List.getElem?_eq_getElem hlength]
  rw [Bool.eq_false_iff]
  intro htimestamp
  rw [dash_of_isTimestamp htimestamp, Option.some.injEq] at hfourth
  have hdash := hdigits _ (List.getElem_mem hlength)
  rw [← hfourth] at hdash
  cases hdash

/-- An instant is written as a timestamp that can be read exactly if its year needs no sign. -/
theorem isTimestamp_chars_iff (t : Instant) :
    isTimestamp t.chars = true ↔ 0 ≤ t.date.year ∧ t.date.year ≤ 9999 := by
  constructor
  · intro htimestamp
    by_contra hyear
    rw [not_isTimestamp_chars hyear] at htimestamp
    cases htimestamp
  · rintro ⟨hlow, hhigh⟩
    exact isTimestamp_chars hlow hhigh

end OntologyGraph.Time
