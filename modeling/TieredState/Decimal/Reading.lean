/-!
# Numbers read from decimals

A numeral is decimal digits with a plus sign in front of them, or none, and stands for a natural
number. Any other decimal is read into the nearest binary floating-point number, an integer of at most
53 significant bits times a power of two. All arithmetic is on natural numbers, so nothing is rounded
on the way.
-/

namespace TieredState.Decimal

/-! ## Numerals -/

/-- The number that decimal digits stand for, read on from `n`. -/
def readDigits (n : Nat) : List Char → Option Nat
  | [] => some n
  | d :: ds => if d.isDigit then readDigits (n * 10 + (d.toNat - '0'.toNat)) ds else none

/-- The number that a text stands for. There is at least one digit. -/
def numeral? (s : String) : Option Nat :=
  match s.toList with
  | '+' :: d :: ds => readDigits 0 (d :: ds)
  | d :: ds => readDigits 0 (d :: ds)
  | [] => none

/-! ## Binary floating-point numbers -/

/-- A 64-bit binary floating-point number. -/
inductive Binary64 where
  -- The number `m · 2 ^ q`, with a sign that zero has too. Either `2 ^ 52 ≤ m < 2 ^ 53`, or
  -- `m < 2 ^ 52` and `q = -1074`.
  | finite (negative : Bool) (m : Nat) (q : Int)
  | infinite (negative : Bool)
  | nan
  deriving DecidableEq, Repr, Inhabited

/-- The quotient of two natural numbers, rounded to the nearest; a half goes to the even
neighbour. -/
def roundDiv (num den : Nat) : Nat :=
  let d := num / den
  let r := num % den
  if 2 * r < den then d
  else if den < 2 * r then d + 1
  else if d % 2 = 0 then d else d + 1

/-- `num / den` divided by `2 ^ q`, as numerator and denominator. -/
def scaleBinary (num den : Nat) (q : Int) : Nat × Nat :=
  (num * Nat.pow 2 (-q).toNat, den * Nat.pow 2 q.toNat)

/-- The exponent `q` for which `num / den` divided by `2 ^ q` lies between `2 ^ 52` and `2 ^ 53`,
and at least the least exponent there is. -/
def binaryExponent (num den : Nat) : Int :=
  let guess : Int := (Nat.log2 num : Int) - (Nat.log2 den : Int) - 52
  let (n, d) := scaleBinary num den guess
  max (if n < d * Nat.pow 2 52 then guess - 1 else guess) (-1074)

namespace Binary64

/-- The number nearest to a positive quotient. -/
def ofQuotient (negative : Bool) (num den : Nat) : Binary64 :=
  let q := binaryExponent num den
  let (n, d) := scaleBinary num den q
  let m := roundDiv n d
  let (m, q) := if m = Nat.pow 2 53 then (Nat.pow 2 52, q + 1) else (m, q)
  if q > 971 then infinite negative else finite negative m q

/-- The number nearest to `digits · 10 ^ exponent`. Exponents far out of range are settled by the
count of digits alone. -/
def ofDecimal (negative : Bool) (digits : Nat) (exponent : Int) : Binary64 :=
  if digits = 0 then finite negative 0 (-1074)
  else
    let leading : Int := (Nat.toDigits 10 digits).length + exponent
    if leading > 310 then infinite negative
    else if leading < -330 then finite negative 0 (-1074)
    else ofQuotient negative (digits * Nat.pow 10 exponent.toNat) (Nat.pow 10 (-exponent).toNat)

end Binary64

end TieredState.Decimal
