/-!
The shortest decimal that reads back as a given binary number. Every real in a number's rounding
interval reads back as that number, so the search takes the coarsest power of ten that has a
multiple in the interval, and of two such multiples the one nearer to the number itself.
-/

namespace OntologyGraph.Decimal

/-- A non-negative binary number, `significand * 2 ^ exponent`. -/
structure Binary where
  significand : Nat
  exponent : Int
  /-- Whether the number below is only half as far away as the number above. -/
  narrowBelow : Bool
deriving Repr, DecidableEq

/-- A decimal number, `digits * 10 ^ exponent`. -/
structure Scaled where
  digits : Nat
  exponent : Int
deriving Repr, DecidableEq

/-- Which of two equally near candidates is taken. -/
inductive Tie where
  | up
  | toEven
deriving Repr, DecidableEq

/-- The magnitude that the bits of a finite 64-bit float stand for. -/
def Binary.ofBits (bits : UInt64) : Binary :=
  let exponent := ((bits >>> 52) &&& 0x7ff).toNat
  let fraction := (bits &&& 0xfffffffffffff).toNat
  if exponent = 0 then ⟨fraction, -1074, false⟩
  else ⟨0x10000000000000 + fraction, exponent - 1075, fraction = 0 && 1 < exponent⟩

/-- The reals that round to a binary number. The three points count in units of `2 ^ scale`. -/
structure Interval where
  lower : Nat
  centre : Nat
  upper : Nat
  scale : Int
  /-- Whether the two ends belong to the interval. -/
  closed : Bool
deriving Repr

/-- Ends lie half way to the neighbours, and round to the even significand. -/
def Binary.interval (x : Binary) : Interval where
  lower := 4 * x.significand - if x.narrowBelow then 1 else 2
  centre := 4 * x.significand
  upper := 4 * x.significand + 2
  scale := x.exponent - 2
  closed := x.significand % 2 = 0

/-- An interval and a power of ten in one unit: the interval's points times `factor`, in which
`10 ^ k` measures `step`. -/
structure Grid where
  factor : Nat
  step : Nat

def Interval.grid (i : Interval) (k : Int) : Grid where
  factor := Nat.pow 2 i.scale.toNat * Nat.pow 10 (-k).toNat
  step := Nat.pow 10 k.toNat * Nat.pow 2 (-i.scale).toNat

/-- Whether the `n`-th multiple of the grid's step lies in the interval. -/
def Interval.holds (i : Interval) (g : Grid) (n : Nat) : Bool :=
  let lower := i.lower * g.factor
  let upper := i.upper * g.factor
  if i.closed then lower ≤ n * g.step && n * g.step ≤ upper
  else lower < n * g.step && n * g.step < upper

/-- The multiple of `10 ^ k` in the interval that is nearest to its centre. -/
def Interval.onGrid? (i : Interval) (tie : Tie) (k : Int) : Option Scaled :=
  let g := i.grid k
  let below := i.centre * g.factor / g.step
  let twice := 2 * (i.centre * g.factor % g.step)
  let takeUpper :=
    g.step < twice || (twice = g.step && (tie = .up || below % 2 = 1))
  match i.holds g below, i.holds g (below + 1) with
  | true, true => some ⟨if takeUpper then below + 1 else below, k⟩
  | true, false => some ⟨below, k⟩
  | false, true => some ⟨below + 1, k⟩
  | false, false => none

/-- A power of ten at or above the number, and less than ten times as large. -/
def Binary.magnitude (x : Binary) : Int :=
  let above := x.significand * Nat.pow 2 x.exponent.toNat
  let below := Nat.pow 2 (-x.exponent).toNat
  if below ≤ above then ((Nat.toDigits 10 (above / below)).length : Int)
  else 1 - ((Nat.toDigits 10 (below / above)).length : Int)

/-- The shortest decimal in the rounding interval of a number. Seventeen digits tell any two
numbers of 53 binary digits apart, so eighteen grids are enough. -/
def Binary.shortest (x : Binary) (tie : Tie) : Scaled :=
  if x.significand = 0 then ⟨0, 0⟩
  else
    let top := x.magnitude
    ((List.range 18).findSome? fun (n : Nat) => x.interval.onGrid? tie (top - n)).getD ⟨0, 0⟩

end OntologyGraph.Decimal
