/-!
Hexadecimal digits: a number of a fixed width in lower case, and the number that digits of either
case spell.
-/

namespace OntologyGraph.Text.Hex

/-- The digit of a number below sixteen. -/
def digit (n : Nat) : Char :=
  if n < 10 then Char.ofNat ('0'.toNat + n) else Char.ofNat ('a'.toNat + (n - 10))

def value? (c : Char) : Option Nat :=
  if '0' ≤ c && c ≤ '9' then some (c.toNat - '0'.toNat)
  else if 'a' ≤ c && c ≤ 'f' then some (c.toNat - 'a'.toNat + 10)
  else if 'A' ≤ c && c ≤ 'F' then some (c.toNat - 'A'.toNat + 10)
  else none

/-- The last `width` digits of a number. -/
def encode : Nat → Nat → List Char
  | 0, _ => []
  | width + 1, n => encode width (n / 16) ++ [digit (n % 16)]

/-- The number that a run of digits spells, continuing the number `n`. -/
def decodeFrom? (n : Nat) : List Char → Option Nat
  | [] => some n
  | c :: cs => (value? c).bind fun d => decodeFrom? (16 * n + d) cs

def decode? (cs : List Char) : Option Nat :=
  decodeFrom? 0 cs

theorem length_encode (width n : Nat) : (encode width n).length = width := by
  induction width generalizing n with
  | zero => rfl
  | succ width ih => simp [encode, ih]

theorem value?_digit {n : Nat} (h : n < 16) : value? (digit n) = some n := by
  have all : ∀ m : Fin 16, value? (digit m) = some m.val := by decide
  exact all ⟨n, h⟩

theorem decodeFrom?_append (n : Nat) (cs ds : List Char) :
    decodeFrom? n (cs ++ ds) = (decodeFrom? n cs).bind fun m => decodeFrom? m ds := by
  induction cs generalizing n with
  | nil => rfl
  | cons c cs ih =>
    simp only [List.cons_append, decodeFrom?]
    cases value? c with
    | none => rfl
    | some d => exact ih (16 * n + d)

/-- Decoding gives back every number that fits the width. -/
theorem decode?_encode {width n : Nat} (h : n < Nat.pow 16 width) :
    decode? (encode width n) = some n := by
  induction width generalizing n with
  | zero =>
    have : n = 0 := Nat.lt_one_iff.mp h
    simp [encode, decode?, decodeFrom?, this]
  | succ width ih =>
    have hn : n / 16 < Nat.pow 16 width :=
      Nat.div_lt_of_lt_mul (Nat.lt_of_lt_of_eq h (Nat.mul_comm (Nat.pow 16 width) 16))
    have hd : value? (digit (n % 16)) = some (n % 16) := value?_digit (Nat.mod_lt n (by decide))
    simp only [decode?] at ih
    simp only [decode?, encode, decodeFrom?_append, ih hn, Option.bind_some, decodeFrom?, hd,
      Option.some.injEq]
    omega

end OntologyGraph.Text.Hex
