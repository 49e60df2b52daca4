import Mathlib.Tactic.IntervalCases
import OntologyGraph.Time.Instant

/-!
Dates of days, whatever the day. A day belongs to one year from March to February, and its month and
its day there exist in the calendar. The years of four digits are those from the first day of the
year zero to the last of the year 9999.
-/

namespace OntologyGraph.Time

/-- The days from the first of March of the year zero to that of another year. -/
def daysBeforeMarch (year : Int) : Int :=
  365 * year + year / 4 - year / 100 + year / 400

/-- A day, counted from 1970-01-01, by the year that began in the last March and the days since. The
day behind the 365th is there only if the February of that year is the one of a leap year. -/
structure InMarchYear (days year : Int) (dayOfYear : Nat) : Prop where
  days_eq : days + 719468 = daysBeforeMarch year + dayOfYear
  dayOfYear_le : dayOfYear ≤ 365
  leap : dayOfYear = 365 → isLeapYear (year + 1) = true

/-- The last year of four is longer, but for the last four of a century that is not the last of its
cycle. -/
private theorem inMarchYear_of_parts {days cycle : Int} {century quad yearOfQuad dayOfYear : Nat}
    (hdays : days + 719468 =
      146097 * cycle + (36524 * century + 1461 * quad + 365 * yearOfQuad + dayOfYear : Nat))
    (hcentury : century ≤ 3) (hquad : quad ≤ 24) (hyear : yearOfQuad ≤ 3)
    (hday : dayOfYear ≤ 365)
    (hlast : dayOfYear = 365 → yearOfQuad = 3 ∧ (quad ≤ 23 ∨ century = 3)) :
    InMarchYear days (400 * cycle + (100 * century + 4 * quad + yearOfQuad : Nat)) dayOfYear where
  days_eq := by
    unfold daysBeforeMarch
    omega
  dayOfYear_le := hday
  leap hlong := by
    obtain ⟨hyear, hleap⟩ := hlast hlong
    simp only [isLeapYear, Bool.and_eq_true, Bool.or_eq_true, decide_eq_true_eq]
    omega

def dateInMarchYear (year : Int) (dayOfYear : Nat) : Date :=
  let (month, day) := monthAndDay dayOfYear
  ⟨if month ≤ 2 then year + 1 else year, month, day⟩

/-- A number of days gives the date of its place in a year counted from March. -/
theorem ofDays_eq (days : Int) :
    ∃ year dayOfYear, InMarchYear days year dayOfYear ∧
      Date.ofDays days = dateInMarchYear year dayOfYear := by
  let cycle := (days + 719468) / 146097
  let dayOfCycle := ((days + 719468) % 146097).toNat
  let century := min (dayOfCycle / 36524) 3
  let dayOfCentury := dayOfCycle - 36524 * century
  let quad := dayOfCentury / 1461
  let dayOfQuad := dayOfCentury % 1461
  let yearOfQuad := min (dayOfQuad / 365) 3
  let dayOfYear := dayOfQuad - 365 * yearOfQuad
  have hdayOfCycle : dayOfCycle ≤ 146096 := by omega
  have hcentury : dayOfCycle = 36524 * century + dayOfCentury := by omega
  -- Only the last century of a cycle has a day more than the others.
  have hdayOfCentury : dayOfCentury ≤ 36524 ∧ (dayOfCentury = 36524 → century = 3) := by omega
  have hquad : dayOfCentury = 1461 * quad + dayOfQuad := by omega
  have hdayOfQuad : dayOfQuad = 365 * yearOfQuad + dayOfYear := by omega
  have hdayOfYear : dayOfYear ≤ 365 ∧ (dayOfYear = 365 → yearOfQuad = 3) := by omega
  have hdays : days + 719468 =
      146097 * cycle + (36524 * century + 1461 * quad + 365 * yearOfQuad + dayOfYear : Nat) := by
    omega
  have hparts := inMarchYear_of_parts hdays (by omega) (by omega) (by omega) hdayOfYear.1
    fun hlong => ⟨hdayOfYear.2 hlong, by omega⟩
  exact ⟨_, dayOfYear, hparts, rfl⟩

def daysBeforeMonth (month : Nat) : Nat :=
  (153 * month + 2) / 5

def calendarMonth (month : Nat) : Nat :=
  if month < 10 then month + 3 else month - 9

theorem monthAndDay_eq {dayOfYear : Nat} (h : dayOfYear ≤ 365) :
    ∃ month ≤ 11, daysBeforeMonth month ≤ dayOfYear ∧ dayOfYear < daysBeforeMonth (month + 1) ∧
      monthAndDay dayOfYear =
        (calendarMonth month, dayOfYear - daysBeforeMonth month + 1) := by
  refine ⟨(5 * dayOfYear + 2) / 153, by omega, ?_, ?_, rfl⟩
  · unfold daysBeforeMonth
    omega
  · unfold daysBeforeMonth
    omega

/-- All months but February, the last of the year, have the days up to the next month. -/
theorem daysInMonth_calendarMonth (year : Int) {month : Nat} (h : month ≤ 10) :
    daysInMonth year (calendarMonth month) =
      daysBeforeMonth (month + 1) - daysBeforeMonth month := by
  interval_cases month <;> rfl

private theorem calendarMonth_bounds {month : Nat} (h : month ≤ 11) :
    1 ≤ calendarMonth month ∧ calendarMonth month ≤ 12 := by
  unfold calendarMonth
  split <;> omega

theorem isValid_iff (date : Date) :
    date.isValid = true ↔ 1 ≤ date.month ∧ date.month ≤ 12 ∧ 1 ≤ date.day ∧
      date.day ≤ daysInMonth date.year date.month := by
  simp [Date.isValid, and_assoc]

/-- Every day of a year counted from March is a date of the calendar. -/
theorem isValid_dateInMarchYear {days year : Int} {dayOfYear : Nat}
    (h : InMarchYear days year dayOfYear) : (dateInMarchYear year dayOfYear).isValid = true := by
  obtain ⟨month, hmonth, hfirst, hnext, hdate⟩ := monthAndDay_eq h.dayOfYear_le
  obtain ⟨hlow, hhigh⟩ := calendarMonth_bounds hmonth
  rw [isValid_iff, dateInMarchYear, hdate]
  refine ⟨hlow, hhigh, Nat.le_add_left 1 _, ?_⟩
  dsimp only
  by_cases hfebruary : month = 11
  · subst hfebruary
    have hle := h.dayOfYear_le
    change dayOfYear - 337 + 1 ≤ if isLeapYear (year + 1) then 29 else 28
    split
    · omega
    · next hcommon =>
      have hshort : dayOfYear ≠ 365 := fun hlong => hcommon (h.leap hlong)
      omega
  · rw [daysInMonth_calendarMonth _ (by omega)]
    omega

/-- Every day has a date that exists. -/
theorem isValid_ofDays (days : Int) : (Date.ofDays days).isValid = true := by
  obtain ⟨year, dayOfYear, hyear, hdate⟩ := ofDays_eq days
  rw [hdate]
  exact isValid_dateInMarchYear hyear

/-- January begins on the day 306 of the year from March on. -/
theorem year_dateInMarchYear (year : Int) {dayOfYear : Nat} (h : dayOfYear ≤ 365) :
    (dateInMarchYear year dayOfYear).year = if dayOfYear < 306 then year else year + 1 := by
  obtain ⟨month, hmonth, hfirst, hnext, hdate⟩ := monthAndDay_eq h
  rw [dateInMarchYear, hdate]
  unfold daysBeforeMonth at hfirst hnext
  unfold calendarMonth
  dsimp only
  split <;> split <;> split <;> omega

private theorem daysBeforeMarch_mono {year year' : Int} (h : year ≤ year') :
    daysBeforeMarch year ≤ daysBeforeMarch year' := by
  have hsucc (year : Int) : daysBeforeMarch year ≤ daysBeforeMarch (year + 1) := by
    unfold daysBeforeMarch
    omega
  exact monotone_int_of_le_succ hsucc h

/-- The years written without a sign are those of the days from 0000-01-01 to 9999-12-31. -/
theorem year_ofDays_iff (days : Int) :
    (0 ≤ (Date.ofDays days).year ∧ (Date.ofDays days).year ≤ 9999) ↔
      -719528 ≤ days ∧ days ≤ 2932896 := by
  obtain ⟨year, dayOfYear, hyear, hdate⟩ := ofDays_eq days
  have hle := hyear.dayOfYear_le
  have hdays := hyear.days_eq
  -- The two years that are cut in January, and those below, between and above them.
  have hbelow : year ≤ -2 → daysBeforeMarch year ≤ -731 := fun h => daysBeforeMarch_mono h
  have hfirst : year = -1 → daysBeforeMarch year = -366 := fun h => h ▸ rfl
  have hafter : 0 ≤ year → 0 ≤ daysBeforeMarch year := fun h => daysBeforeMarch_mono h
  have hbefore : year ≤ 9998 → daysBeforeMarch year ≤ 3651694 := fun h => daysBeforeMarch_mono h
  have hlast : year = 9999 → daysBeforeMarch year = 3652059 := fun h => h ▸ rfl
  have habove : 10000 ≤ year → 3652425 ≤ daysBeforeMarch year := fun h => daysBeforeMarch_mono h
  rw [hdate, year_dateInMarchYear year hle]
  split <;> omega

example : Date.ofDays (-719529) = ⟨-1, 12, 31⟩ ∧ Date.ofDays 2932896 = ⟨9999, 12, 31⟩ := by decide

/-- An instant has a year of four digits from the first second of the year zero to the last of the
year 9999. -/
theorem year_date_iff (t : Instant) :
    (0 ≤ t.date.year ∧ t.date.year ≤ 9999) ↔
      -62167219200 ≤ t.seconds ∧ t.seconds < 253402300800 := by
  rw [Instant.date, year_ofDays_iff]
  omega

end OntologyGraph.Time
