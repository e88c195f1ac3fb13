import BankTrace.Decimal.Binary
import BankTrace.Text.Numeral

/-!
# Percentages

A percentage is kept in hundredths: the share of a whole, rounded to two places, a half to the even
neighbour. Where one place is shown, what is rounded is the binary fraction of 53 bits that is
nearest to the percentage, so a percentage half way between two shown values goes to the side where
that fraction lies.
-/

namespace BankTrace

/-- A percentage in hundredths. -/
structure Percent where
  hundredths : Nat
  deriving DecidableEq

namespace Percent

/-- The share of a whole. -/
def ofRatio (part whole : Nat) : Percent := ⟨Decimal.roundHalfEven (part * 10000) whole⟩

/-- The decimal digits of a number below `100`, two of them. -/
def twoDigits (n : Nat) : List Char :=
  [Nat.digitChar (n / 10), Nat.digitChar (n % 10)]

/-- The percentage with as few places as it needs, but one at least: `12.5`, `0.0`. -/
def text (p : Percent) : String :=
  let places :=
    if p.hundredths % 10 = 0 then [Nat.digitChar (p.hundredths % 100 / 10)]
    else twoDigits (p.hundredths % 100)
  toString (p.hundredths / 100) ++ "." ++ String.ofList places

/-- The number of bits behind the binary point that leaves 53 bits for `hundredths / 100`. -/
def precision (hundredths : Nat) : Nat :=
  let bits := (100 * Decimal.Binary.fullMantissa / hundredths).log2
  if hundredths <<< bits < 100 * Decimal.Binary.fullMantissa then bits + 1 else bits

/-- The tenths of the nearest binary fraction, a half to the even neighbour. -/
def tenths (p : Percent) : Nat :=
  if p.hundredths = 0 then 0
  else
    let scale := 1 <<< precision p.hundredths
    Decimal.roundHalfEven (Decimal.roundHalfEven (p.hundredths * scale) 100 * 10) scale

/-- The percentage with one place: `12.5`, `0.0`. -/
def onePlace (p : Percent) : String :=
  toString (p.tenths / 10) ++ "." ++ toString (p.tenths % 10)

end Percent

end BankTrace
