import TieredState.Decimal.Reading

/-!
# The shortest decimal that reads back

Of the decimals that round to a given binary number, the one with the fewest digits, and of those
with as few the nearest. It is searched on decimal grids from coarse to fine, testing the two grid
points next to the number.
-/

namespace TieredState.Decimal

/-- The reals that round to `m · 2 ^ q`, in units of `2 ^ (q - 2)`: the two ends, which belong to
the range when `m` is even. -/
def roundingRange (m : Nat) (q : Int) : Nat × Nat :=
  (if m = Nat.pow 2 52 ∧ q > -1074 then 4 * m - 1 else 4 * m - 2, 4 * m + 2)

/-- Whether `d · 10 ^ k` rounds to `m · 2 ^ q`. -/
def roundsTo (m : Nat) (q : Int) (d : Nat) (k : Int) : Bool :=
  let (lo, hi) := roundingRange m q
  -- compare `d · 10 ^ k` with `lo · 2 ^ (q - 2)` and `hi · 2 ^ (q - 2)`
  let x := d * Nat.pow 10 k.toNat * Nat.pow 2 (2 - q).toNat
  let unit := Nat.pow 10 (-k).toNat * Nat.pow 2 (q - 2).toNat
  if m % 2 = 0 then lo * unit ≤ x && x ≤ hi * unit else lo * unit < x && x < hi * unit

/-- The point of the grid of multiples of `10 ^ k` that rounds to `m · 2 ^ q`, if there is one: of
the two next to the number the nearer, and the upper one where they are equally near. -/
def onGrid? (m : Nat) (q k : Int) : Option Nat :=
  let num := m * Nat.pow 2 q.toNat * Nat.pow 10 (-k).toNat
  let den := Nat.pow 2 (-q).toNat * Nat.pow 10 k.toNat
  let d := num / den
  let below := roundsTo m q d k
  let above := roundsTo m q (d + 1) k
  if below && above then some (if 2 * (num % den) < den then d else d + 1)
  else if below then some d
  else if above then some (d + 1)
  else none

/-- The number of decimal places by which the leading digit of `m · 2 ^ q` is left of the point. -/
def leadingPlace (m : Nat) (q : Int) : Int :=
  let num := m * Nat.pow 2 q.toNat
  let den := Nat.pow 2 (-q).toNat
  if den ≤ num then ((Nat.toDigits 10 (num / den)).length : Int) - 1
  else
    -- the first place at which the number reaches one unit
    -((List.range 400).find? fun i => den ≤ num * Nat.pow 10 i).getD 0

/-- The shortest decimal for `m · 2 ^ q` as digits and a decimal exponent. -/
def shortest (m : Nat) (q : Int) : Nat × Int :=
  if m = 0 then (0, 0)
  else
    let top := leadingPlace m q + 1
    let found := (List.range 18).findSome? fun (i : Nat) =>
      let k := top - i
      (onGrid? m q k).map fun d => (d, k)
    found.getD (0, 0)

/-- A decimal in positional notation, always with a point and a digit on both sides of it. -/
def positional (digits : Nat) (exponent : Int) : List Char :=
  let ds := Nat.toDigits 10 digits
  if 0 ≤ exponent then ds ++ List.replicate exponent.toNat '0' ++ ['.', '0']
  else
    let places := (-exponent).toNat
    let padded := List.replicate (places + 1 - ds.length) '0' ++ ds
    padded.take (padded.length - places) ++ '.' :: padded.drop (padded.length - places)

/-- The text of a number: the shortest decimal that reads back, without an exponent. -/
def Binary64.text : Binary64 → String
  | .nan => "NaN"
  | .infinite negative => if negative then "-inf" else "inf"
  | .finite negative m q =>
    let (d, k) := shortest m q
    String.ofList ((if negative then ['-'] else []) ++ positional d k)

end TieredState.Decimal
