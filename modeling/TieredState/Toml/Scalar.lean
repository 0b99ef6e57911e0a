import TieredState.Toml.Scan
import TieredState.Toml.Value

/-!
# Plain values

The scanners for numbers, truth values, dates and times. Integers have 64 bits with a sign. A
decimal too large for a floating-point number is refused, but not its negative.
-/

namespace TieredState.Toml.Scan

open Decimal

/-! ## Numbers -/

/-- A sign, if there is one: whether it is a minus, and the rest. -/
def sign : Input → Bool × Input
  | '-' :: r => (true, r)
  | '+' :: r => (false, r)
  | cs => (false, cs)

/-- A decimal integer without leading zeros: whether it is negative, and its digits. -/
def decimal (cs : Input) : Scan (Bool × List Char) :=
  let (negative, r) := sign cs
  match r with
  | '0' :: r' => some ((negative, ['0']), r')
  | _ => (digits Char.isDigit r).map fun (ds, rest) => ((negative, ds), rest)

/-- An integer in the range of 64 bits with a sign. -/
def inRange? (n : Int) : Option Value :=
  if -0x8000000000000000 ≤ n ∧ n < 0x8000000000000000 then some (.integer n) else none

/-- Digits to a base, after the mark of the base. -/
def based (base : Nat) (isDigit : Char → Bool) (cs : Input) : Scan Value :=
  (digits isDigit cs).bind fun (ds, rest) => (inRange? (numeral base ds)).map (·, rest)

def integer : Input → Scan Value
  | '0' :: 'x' :: r => based 16 isHexDigit r
  | '0' :: 'o' :: r => based 8 (fun c => '0' ≤ c && c ≤ '7') r
  | '0' :: 'b' :: r => based 2 (fun c => c = '0' || c = '1') r
  | cs =>
    (decimal cs).bind fun ((negative, ds), rest) =>
      let n : Int := numeral 10 ds
      (inRange? (if negative then -n else n)).map (·, rest)

/-- The power of ten after an `e`. -/
def power : Input → Scan Int
  | 'e' :: r | 'E' :: r =>
    let (negative, r) := sign r
    (digits Char.isDigit r).map fun (ds, rest) =>
      let n : Int := numeral 10 ds
      (if negative then -n else n, rest)
  | _ => none

/-- The decimal with a whole part, a fraction and a power of ten, if it is in range. -/
def float? (negative : Bool) (whole fraction : List Char) (exponent : Int) : Option Value :=
  match Binary64.ofDecimal negative (numeral 10 (whole ++ fraction)) (exponent - fraction.length) with
  | .infinite false => none
  | x => some (.float x)

/-- A decimal with a fraction, a power of ten or both. -/
def float (cs : Input) : Scan Value :=
  (decimal cs).bind fun ((negative, whole), r) =>
    match r with
    | '.' :: r' =>
      (digits Char.isDigit r').bind fun (fraction, r'') =>
        match r'' with
        | 'e' :: _ | 'E' :: _ =>
          (power r'').bind fun (e, rest) => (float? negative whole fraction e).map (·, rest)
        | _ => (float? negative whole fraction 0).map (·, r'')
    | _ => (power r).bind fun (e, rest) => (float? negative whole [] e).map (·, rest)

/-- Infinity and the value that is no number, with or without a sign. -/
def special (cs : Input) : Scan Value :=
  let (negative, r) := sign cs
  match r with
  | 'i' :: 'n' :: 'f' :: rest => some (.float (.infinite negative), rest)
  | 'n' :: 'a' :: 'n' :: rest => some (.float .nan, rest)
  | _ => none

/-! ## Dates and times -/

/-- A number of `count` digits between two bounds. -/
def field (count low high : Nat) (cs : Input) : Scan Nat :=
  let ds := cs.take count
  let n := numeral 10 ds
  if ds.length = count && ds.all Char.isDigit && low ≤ n && n ≤ high then some (n, cs.drop count)
  else none

/-- One character that has to come next. -/
def skip? (c : Char) : Input → Option Input
  | d :: r => if d = c then some r else none
  | [] => none

/-- The number of days in a month. -/
def daysIn (year month : Nat) : Nat :=
  if month = 2 then
    if year % 4 = 0 && (year % 100 ≠ 0 || year % 400 = 0) then 29 else 28
  else if month = 4 || month = 6 || month = 9 || month = 11 then 30
  else 31

/-- A date: year, month and day, up to the last day of the month. -/
def date? (cs : Input) : Option Input := do
  let (year, r) ← field 4 0 9999 cs
  let (month, r) ← field 2 1 12 (← skip? '-' r)
  let (_, r) ← field 2 1 (daysIn year month) (← skip? '-' r)
  return r

/-- A time of day: hour, minute and second, with any number of decimals. A minute may have a leap
second. -/
def time? (cs : Input) : Option Input := do
  let (_, r) ← field 2 0 23 cs
  let (_, r) ← field 2 0 59 (← skip? ':' r)
  let (_, r) ← field 2 0 60 (← skip? ':' r)
  match r with
  | '.' :: d :: r' => return if d.isDigit then r'.dropWhile Char.isDigit else r
  | _ => return r

/-- The distance of a time from universal time. -/
def offset? : Input → Option Input
  | 'Z' :: r | 'z' :: r => some r
  | '+' :: r | '-' :: r => do
    let (_, r) ← field 2 0 23 r
    let (_, r) ← field 2 0 59 (← skip? ':' r)
    return r
  | _ => none

/-- What may follow a date: a time, with or without an offset. -/
def timeAfterDate (cs : Input) : Input :=
  match cs with
  | 'T' :: r | 't' :: r | ' ' :: r =>
    match time? r with
    | some r' => (offset? r').getD r'
    | none => cs
  | _ => cs

/-- A date, a time, or a date and a time. -/
def moment (cs : Input) : Scan Value :=
  match date? cs with
  | some r => some (.moment, timeAfterDate r)
  | none => (time? cs).map fun r => (.moment, r)

/-! ## All plain values -/

def boolean : Input → Scan Value
  | 't' :: 'r' :: 'u' :: 'e' :: r => some (.boolean true, r)
  | 'f' :: 'a' :: 'l' :: 's' :: 'e' :: r => some (.boolean false, r)
  | _ => none

/-- A value that holds no other. -/
def scalar (cs : Input) : Scan Value :=
  match cs with
  | '"' :: _ | '\'' :: _ => (text cs).map fun (s, rest) => (.text s, rest)
  | 't' :: _ | 'f' :: _ => boolean cs
  | _ => moment cs <|> float cs <|> special cs <|> integer cs

end TieredState.Toml.Scan
