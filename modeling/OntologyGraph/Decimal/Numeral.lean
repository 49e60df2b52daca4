/-!
Numerals: which texts spell a number, and the number that they spell. Digits are those of ASCII,
and nothing may stand around a numeral.
-/

namespace OntologyGraph.Decimal

/-- The number that a run of digits spells. -/
def valueOf (digits : List Char) : Nat :=
  Nat.ofDigitChars 10 digits 0

/-- One or more digits. -/
def natural? (cs : List Char) : Option Nat :=
  if cs ≠ [] && cs.all Char.isDigit then some (valueOf cs) else none

theorem natural?_toDigits (n : Nat) : natural? (Nat.toDigits 10 n) = some n := by
  have digits : (Nat.toDigits 10 n).all Char.isDigit = true := by
    rw [List.all_eq_true]
    intro c hc
    exact Nat.isDigit_of_mem_toDigits (by decide) (by decide) hc
  simp [natural?, digits, valueOf, Nat.ofDigitChars_ten_toDigits]

/-- Digits, with a plus sign allowed before them. -/
def unsigned? : List Char → Option Nat
  | [] => none
  | c :: cs => if c = '+' then natural? cs else natural? (c :: cs)

/-- Digits, with either sign allowed before them. -/
def integer? : List Char → Option Int
  | [] => none
  | c :: cs =>
    if c = '-' then (natural? cs).map fun n => -(n : Int)
    else (unsigned? (c :: cs)).map fun n => (n : Int)

/-- An integer numeral within 64 bits. -/
def int64? (cs : List Char) : Option Int64 :=
  (integer? cs).bind fun n =>
    if Int64.minValue.toInt ≤ n && n ≤ Int64.maxValue.toInt then some (Int64.ofInt n) else none

/-- An unsigned numeral below `limit`. -/
def below? (limit : Nat) (cs : List Char) : Option Nat :=
  (unsigned? cs).bind fun n => if n < limit then some n else none

/-- What a text can spell where a float is expected. -/
inductive FloatNumeral where
  | finite (negative : Bool) (digits : Nat) (exponent : Int)
  | infinite (negative : Bool)
  | nan
deriving Repr, DecidableEq

/-- A power of ten: nothing, or `e` and an integer numeral. -/
def powerOfTen? : List Char → Option Int
  | [] => some 0
  | c :: cs => if c = 'e' || c = 'E' then integer? cs else none

/-- Digits with an optional point among or around them, then an optional power of ten. -/
def scientific? (cs : List Char) : Option (Nat × Int) :=
  let whole := cs.takeWhile Char.isDigit
  let rest := cs.dropWhile Char.isDigit
  let (fraction, rest) :=
    match rest with
    | '.' :: after => (after.takeWhile Char.isDigit, after.dropWhile Char.isDigit)
    | other => ([], other)
  if whole = [] && fraction = [] then none
  else (powerOfTen? rest).map fun e => (valueOf (whole ++ fraction), e - fraction.length)

/-- The sign of a numeral, and what follows it. -/
def splitSign : List Char → Bool × List Char
  | [] => (false, [])
  | c :: cs => if c = '-' then (true, cs) else if c = '+' then (false, cs) else (false, c :: cs)

/-- A float numeral: a decimal with an optional power of ten, or one of the words `inf`,
`infinity` and `nan` in letters of either case; a sign is allowed before each. -/
def float? (cs : List Char) : Option FloatNumeral :=
  let (negative, body) := splitSign cs
  match scientific? body with
  | some (digits, exponent) => some (.finite negative digits exponent)
  | none =>
    let word := String.ofList (body.map Char.toLower)
    if word = "inf" || word = "infinity" then some (.infinite negative)
    else if word = "nan" then some .nan
    else none

/-- The nearest float. Numbers far outside the range of floats are not computed: they are zero or
infinite. -/
def FloatNumeral.toFloat : FloatNumeral → Float
  | .nan => 0.0 / 0.0
  | .infinite negative => if negative then -1.0 / 0.0 else 1.0 / 0.0
  | .finite negative digits exponent =>
    let size := exponent + (Nat.toDigits 10 digits).length
    let magnitude :=
      if digits = 0 || size < -400 then 0.0
      else if 400 < size then 1.0 / 0.0
      else Float.ofScientific digits (exponent < 0) exponent.natAbs
    if negative then -magnitude else magnitude

end OntologyGraph.Decimal
