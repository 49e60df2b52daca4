import OntologyGraph.Decimal.Layout
import OntologyGraph.Time.Calendar

/-!
Instants in universal time and their text: date, time of day to the millisecond, and `Z`.
-/

namespace OntologyGraph.Time

/-- Seconds since the start of 1970, and nanoseconds counted forward from there. A second's worth
of further nanoseconds stands for a leap second. -/
structure Instant where
  seconds : Int
  nanoseconds : Nat
  nanoseconds_lt : nanoseconds < 2000000000 := by decide
deriving Repr, DecidableEq

/-- The last `width` decimal digits of a number. -/
def padded : Nat → Nat → List Char
  | 0, _ => []
  | width + 1, n => padded width (n / 10) ++ [Nat.digitChar (n % 10)]

/-- A year has four digits; one that needs more, or lies before the year zero, has a sign. -/
def yearText (year : Int) : List Char :=
  if 0 ≤ year && year ≤ 9999 then padded 4 year.toNat
  else
    let digits := Decimal.digitsOf year.natAbs
    (if year < 0 then '-' else '+') :: (List.replicate (4 - digits.length) '0' ++ digits)

structure TimeOfDay where
  hour : Nat
  minute : Nat
  second : Nat
  millisecond : Nat
deriving Repr, DecidableEq

/-- The date in universal time. -/
def Instant.date (t : Instant) : Date :=
  Date.ofDays (t.seconds / 86400)

/-- The time of day in universal time; a leap second is the one after its second. -/
def Instant.timeOfDay (t : Instant) : TimeOfDay :=
  let second := (t.seconds % 86400).toNat
  { hour := second / 3600
    minute := second / 60 % 60
    second := second % 60 + t.nanoseconds / 1000000000
    millisecond := t.nanoseconds % 1000000000 / 1000000 }

def Instant.chars (t : Instant) : List Char :=
  let date := t.date
  let time := t.timeOfDay
  yearText date.year ++ '-' :: padded 2 date.month ++ '-' :: padded 2 date.day ++
    'T' :: padded 2 time.hour ++ ':' :: padded 2 time.minute ++ ':' :: padded 2 time.second ++
    '.' :: padded 3 time.millisecond ++ ['Z']

def Instant.text (t : Instant) : String :=
  String.ofList t.chars

end OntologyGraph.Time
