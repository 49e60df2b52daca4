/-!
The calendar of common and leap years, extended without end in both directions. Years are counted
from March, so that a leap day is the last day of its year, in cycles of four centuries.
-/

namespace OntologyGraph.Time

structure Date where
  year : Int
  month : Nat
  day : Nat
deriving Repr, DecidableEq

def isLeapYear (year : Int) : Bool :=
  year % 4 = 0 && (year % 100 ≠ 0 || year % 400 = 0)

/-- The number of days of a month, and zero for a month that there is not. -/
def daysInMonth (year : Int) (month : Nat) : Nat :=
  if month = 2 then (if isLeapYear year then 29 else 28)
  else if month = 4 || month = 6 || month = 9 || month = 11 then 30
  else if 1 ≤ month && month ≤ 12 then 31
  else 0

def Date.isValid (d : Date) : Bool :=
  1 ≤ d.month && d.month ≤ 12 && 1 ≤ d.day && d.day ≤ daysInMonth d.year d.month

/-- Month and day of a day of the year that begins in March, counted from zero. The months from
March on repeat the lengths 31, 30, 31, 30, 31, which add up to 153. -/
def monthAndDay (dayOfYear : Nat) : Nat × Nat :=
  let month := (5 * dayOfYear + 2) / 153
  let day := dayOfYear - (153 * month + 2) / 5 + 1
  (if month < 10 then month + 3 else month - 9, day)

/-- The date that lies `days` days after 1970-01-01. -/
def Date.ofDays (days : Int) : Date :=
  let shifted := days + 719468
  let cycle := shifted / 146097
  let dayOfCycle := (shifted % 146097).toNat
  let century := min (dayOfCycle / 36524) 3
  let dayOfCentury := dayOfCycle - 36524 * century
  let quad := dayOfCentury / 1461
  let dayOfQuad := dayOfCentury % 1461
  let yearOfQuad := min (dayOfQuad / 365) 3
  let dayOfYear := dayOfQuad - 365 * yearOfQuad
  let (month, day) := monthAndDay dayOfYear
  let marchYear : Int := 400 * cycle + (100 * century + 4 * quad + yearOfQuad : Nat)
  ⟨if month ≤ 2 then marchYear + 1 else marchYear, month, day⟩

end OntologyGraph.Time
