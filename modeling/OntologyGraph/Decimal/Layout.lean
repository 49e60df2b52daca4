import OntologyGraph.Decimal.Shortest

/-!
How the digits of a number are laid out: positionally, or one digit, a point and an exponent.
A format of numbers is a value of `FloatFormat`.
-/

namespace OntologyGraph.Decimal

def digitsOf (n : Nat) : List Char :=
  Nat.toDigits 10 n

/-- The decimal text of an integer, with a sign only when it is negative. -/
def integerText (n : Int) : List Char :=
  match n with
  | .ofNat n => digitsOf n
  | .negSucc n => '-' :: digitsOf (n + 1)

/-- The decisions that a text format takes about finite numbers. -/
structure FloatFormat where
  /-- Which of two equally near shortest decimals is written. -/
  tie : Tie
  /-- The exponents of the first digit at which the number is written positionally. -/
  positional : Int → Bool
  /-- Whether a whole number in positional form ends with `.0`. -/
  pointZero : Bool

/-- Digits with the point at its place; `pointZero` adds a fraction to a whole number. -/
def positionalText (digits : List Char) (exponent : Int) (pointZero : Bool) : List Char :=
  if 0 ≤ exponent then
    digits ++ List.replicate exponent.toNat '0' ++ (if pointZero then ['.', '0'] else [])
  else
    let places := (-exponent).toNat
    if places < digits.length then
      digits.take (digits.length - places) ++ '.' :: digits.drop (digits.length - places)
    else '0' :: '.' :: (List.replicate (places - digits.length) '0' ++ digits)

/-- One digit, a point if more follow, and the exponent of the first digit with its sign. -/
def exponentText (digits : List Char) (first : Int) : List Char :=
  let mantissa :=
    match digits with
    | d :: e :: rest => d :: '.' :: e :: rest
    | short => short
  let sign := if 0 ≤ first then ['+'] else []
  mantissa ++ 'e' :: (sign ++ integerText first)

/-- The text of a finite number. -/
def FloatFormat.text (format : FloatFormat) (x : Float) : List Char :=
  let bits := x.toBits
  let sign := if bits >>> 63 = 1 then ['-'] else []
  let shortest := (Binary.ofBits bits).shortest format.tie
  let digits := digitsOf shortest.digits
  let first := shortest.exponent + digits.length - 1
  if format.positional first then
    sign ++ positionalText digits shortest.exponent format.pointZero
  else sign ++ exponentText digits first

end OntologyGraph.Decimal
