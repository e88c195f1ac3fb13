import BankTrace.Decimal.Binary
import BankTrace.Text.Numeral

/-!
# Shortest decimals

A binary fraction is written with the fewest decimal digits that still round to it, and of those
with the digits nearest to it. Numbers from `0.0001` up to `10 ^ 16` are written with a point, which
has a digit on either side; others with one digit in front of the point and an exponent of two
digits at least.
-/

namespace BankTrace.Decimal

/-- The number `0.d₁d₂… * 10 ^ point`. -/
structure Digits where
  digits : List Char
  point : Int

namespace Shortest

/-- The numbers that round to a binary fraction lie between two bounds, which belong to them when
the mantissa is even. All three are multiples of a common unit. -/
structure Interval where
  low : Nat
  value : Nat
  high : Nat
  /-- The number of units in one. -/
  unit : Nat
  closed : Bool

/-- The interval of a positive binary fraction: half a unit of its mantissa to either side, but a
quarter downwards where the mantissas below are twice as dense. -/
def interval (mantissa : Nat) (exponent : Int) : Interval :=
  let dense := mantissa = Binary.fullMantissa ∧ exponent ≠ Binary.leastExponent
  let (factor, unit) := Binary.scale 1 1 (exponent - 2)
  { low := (4 * mantissa - if dense then 1 else 2) * factor
    value := 4 * mantissa * factor
    high := (4 * mantissa + 2) * factor
    unit
    closed := mantissa % 2 = 0 }

/-- The number lies in the interval; it is given in units. -/
def Interval.contains (i : Interval) (num den : Nat) : Bool :=
  if i.closed then i.low * den ≤ num && num ≤ i.high * den
  else i.low * den < num && num < i.high * den

/-- The power of ten just above the value: the value is at least a tenth of it. -/
def Interval.point (i : Interval) : Int :=
  let estimate := ((Nat.toDigits 10 i.value).length : Int) - (Nat.toDigits 10 i.unit).length
  let (num, den) := power estimate
  if i.value * den < num * i.unit then estimate else estimate + 1
where
  /-- A power of ten as a quotient. -/
  power (n : Int) : Nat × Nat :=
    if 0 ≤ n then (Nat.pow 10 n.toNat, 1) else (1, Nat.pow 10 (-n).toNat)

/-- The multiple of a power of ten that lies in the interval next to the value, if there is one. -/
def Interval.nearest? (i : Interval) (power : Int) : Option Nat :=
  let (num, den) := Interval.point.power power
  let step := num * i.unit
  let below := i.value * den / step
  let inside (n : Nat) := i.contains (n * step) den
  match inside below, inside (below + 1) with
  | true, true => some (roundHalfEven (i.value * den) step)
  | true, false => some below
  | false, true => some (below + 1)
  | false, false => none

/-- The shortest digits, from `count` places on and as long as the allowance lasts. -/
def Interval.search (i : Interval) (point : Int) (count : Nat) : (allowance : Nat) → Nat × Int
  | 0 => (i.value / i.unit, 0)
  | allowance + 1 =>
    match i.nearest? (point - count) with
    | some n => (n, point - count)
    | none => i.search point (count + 1) allowance

/-- The digits of a positive binary fraction. Seventeen of them are always enough. -/
def digits (mantissa : Nat) (exponent : Int) : Digits :=
  let i := interval mantissa exponent
  let (n, power) := i.search i.point 1 17
  let ds := Nat.toDigits 10 n
  ⟨(ds.reverse.dropWhile (· = '0')).reverse, power + ds.length⟩

/-- Numbers with more digits in front of the point are written with an exponent. -/
def longestInteger : Int := 16

/-- Numbers with this many zeros behind the point, or more, are written with an exponent. -/
def mostZeros : Int := 4

/-- A number with a point. -/
def positional (d : Digits) : String :=
  let ds := String.ofList d.digits
  if d.point ≤ 0 then "0." ++ Numeral.fill (-d.point).toNat '0' ++ ds
  else if d.digits.length ≤ d.point.toNat then
    ds ++ Numeral.fill (d.point.toNat - d.digits.length) '0' ++ ".0"
  else
    String.ofList (d.digits.take d.point.toNat) ++ "." ++
      String.ofList (d.digits.drop d.point.toNat)

/-- A number with an exponent. -/
def scientific (d : Digits) : String :=
  let exponent := d.point - 1
  let places := String.ofList (d.digits.drop 1)
  let size := toString exponent.natAbs
  String.ofList (d.digits.take 1) ++ (if places = "" then "" else "." ++ places) ++ "e" ++
    (if exponent < 0 then "-" else "+") ++ Numeral.fill (2 - size.length) '0' ++ size

/-- Digits in the notation that fits their size. -/
def layout (d : Digits) : String :=
  if -mostZeros < d.point ∧ d.point ≤ longestInteger then positional d else scientific d

end Shortest

/-- The written form of a binary fraction. -/
def Binary.text : Binary → String
  | .notANumber => "nan"
  | .infinite negative => (if negative then "-" else "") ++ "inf"
  | .finite negative mantissa exponent =>
    (if negative then "-" else "") ++
      if mantissa = 0 then "0.0" else Shortest.layout (Shortest.digits mantissa exponent)

end BankTrace.Decimal
