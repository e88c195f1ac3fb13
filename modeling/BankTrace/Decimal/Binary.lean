import BankTrace.Decimal.Round

/-!
# Binary fractions

A binary fraction is a sign, a mantissa of 53 bits at most and a power of two from `-1074` to `971`.
A decimal number is rounded to the nearest of them, a half to the one with the even mantissa; a
number that is nearest to a greater power is infinite.
-/

namespace BankTrace.Decimal

/-- A binary fraction, infinity, or no number at all. -/
inductive Binary where
  /-- The number `mantissa * 2 ^ exponent`, or its negation. -/
  | finite (negative : Bool) (mantissa : Nat) (exponent : Int)
  | infinite (negative : Bool)
  | notANumber
  deriving DecidableEq

namespace Binary

/-- The least power of two. -/
def leastExponent : Int := -1074

/-- The greatest power of two. -/
def greatestExponent : Int := 971

/-- The least mantissa of 53 bits. -/
def fullMantissa : Nat := 0x10000000000000

/-- The mantissas are below this number. -/
def mantissaLimit : Nat := 0x20000000000000

/-- The quotient of two numbers times a power of two, as two numbers. -/
def scale (num den : Nat) (power : Int) : Nat × Nat :=
  if 0 ≤ power then (num <<< power.toNat, den) else (num, den <<< (-power).toNat)

/-- The power of two that makes the quotient of two positive numbers a mantissa of 53 bits. -/
def normalExponent (num den : Nat) : Int :=
  let guess := (num.log2 : Int) - den.log2 - 52
  let (n, d) := scale num den (-guess)
  if n < d * fullMantissa then guess - 1 else guess

/-- The binary fraction nearest to the quotient of two positive numbers. -/
def ofRatio (negative : Bool) (num den : Nat) : Binary :=
  let exponent := max leastExponent (normalExponent num den)
  let (n, d) := scale num den (-exponent)
  let rounded := roundHalfEven n d
  let (mantissa, exponent) :=
    if rounded = mantissaLimit then (fullMantissa, exponent + 1) else (rounded, exponent)
  if exponent > greatestExponent then infinite negative else finite negative mantissa exponent

/-- A power of ten from here on makes every number infinite or zero. -/
def powerLimit : Int := 400

/-- The binary fraction nearest to `digits * 10 ^ power`. -/
def ofDecimal (negative : Bool) (digits : Nat) (power : Int) : Binary :=
  let size := power + (Nat.toDigits 10 digits).length
  if digits = 0 ∨ size < -powerLimit then finite negative 0 leastExponent
  else if size > powerLimit then infinite negative
  else if 0 ≤ power then ofRatio negative (digits * Nat.pow 10 power.toNat) 1
  else ofRatio negative digits (Nat.pow 10 (-power).toNat)

end Binary

end BankTrace.Decimal
