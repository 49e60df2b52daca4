import OntologyGraph.Decimal.Numeral
import OntologyGraph.Time.Calendar

/-!
Timestamps: a date, a time of day with an optional fraction of a second, and the offset from
universal time. A year has exactly four digits, every other field two.
-/

namespace OntologyGraph.Time

/-- The number that two digits spell. -/
def two? (a b : Char) : Option Nat :=
  Decimal.natural? [a, b]

/-- A date as year, month and day with dashes between, that exists in the calendar. -/
def isDate (year month day : List Char) : Bool :=
  match Decimal.natural? year, Decimal.natural? month, Decimal.natural? day with
  | some y, some m, some d => Date.isValid ⟨y, m, d⟩
  | _, _, _ => false

/-- A time of day; the second sixty is allowed in every minute. -/
def isClockTime (hour minute second : List Char) : Bool :=
  match Decimal.natural? hour, Decimal.natural? minute, Decimal.natural? second with
  | some h, some m, some s => h ≤ 23 && m ≤ 59 && s ≤ 60
  | _, _, _ => false

/-- An offset from universal time: `Z`, or a sign, hours and minutes, less than a day. The minus
sign may be U+2212. -/
def isOffset : List Char → Bool
  | [z] => z = 'Z' || z = 'z'
  | [sign, h₁, h₂, colon, m₁, m₂] =>
    (sign = '+' || sign = '-' || sign = '\u2212') && colon = ':' &&
      match two? h₁ h₂, two? m₁ m₂ with
      | some h, some m => h ≤ 23 && m ≤ 59
      | _, _ => false
  | _ => false

/-- A fraction of a second, if there is one, and then an offset. -/
def isFractionAndOffset : List Char → Bool
  | [] => false
  | c :: cs =>
    if c = '.' then !(cs.takeWhile Char.isDigit).isEmpty && isOffset (cs.dropWhile Char.isDigit)
    else isOffset (c :: cs)

/-- Whether a text is a timestamp. Date and time of day are joined by `T`, `t` or a space. -/
def isTimestamp : List Char → Bool
  | y₁ :: y₂ :: y₃ :: y₄ :: dash₁ :: o₁ :: o₂ :: dash₂ :: d₁ :: d₂ :: joint ::
      h₁ :: h₂ :: colon₁ :: m₁ :: m₂ :: colon₂ :: s₁ :: s₂ :: rest =>
    dash₁ = '-' && dash₂ = '-' && colon₁ = ':' && colon₂ = ':' &&
      (joint = 'T' || joint = 't' || joint = ' ') &&
      isDate [y₁, y₂, y₃, y₄] [o₁, o₂] [d₁, d₂] && isClockTime [h₁, h₂] [m₁, m₂] [s₁, s₂] &&
      isFractionAndOffset rest
  | _ => false

end OntologyGraph.Time
