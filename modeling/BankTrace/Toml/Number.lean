import BankTrace.Decimal.Binary
import BankTrace.Text.Integer

/-!
# Numbers

A number is an integer in base 2, 8 or 16 behind its mark, or a decimal integer with a sign or
without, or a decimal fraction: an integer with places behind a point, a power of ten, or both.
Underscores may stand between digits, and a decimal integer has no zero in front. An integer of too
many decimal digits is refused.
-/

namespace BankTrace.Toml

/-- Why a text cannot be read. -/
inductive Fault where
  /-- The text breaks the rules of the format. -/
  | malformed
  /-- A decimal integer has that many digits, which are too many. -/
  | digits (count : Nat)
  /-- Values lie too deep inside each other. -/
  | tooDeep
  deriving DecidableEq

/-- A number that is written in a text. -/
inductive Number where
  | integer (n : Int)
  | float (x : Decimal.Binary)
  deriving DecidableEq

namespace Number

/-- Digits at the front and what is behind them; single underscores between two digits are
dropped. -/
def digitRun (isDigit : Char → Bool) : List Char → List Char × List Char
  | '_' :: c :: rest =>
    if isDigit c then
      let (digits, behind) := digitRun isDigit rest
      (c :: digits, behind)
    else ([], '_' :: c :: rest)
  | c :: rest =>
    if isDigit c then
      let (digits, behind) := digitRun isDigit rest
      (c :: digits, behind)
    else ([], c :: rest)
  | [] => ([], [])

/-- Digits at the front, of which the first has no underscore before it. -/
def digits? (isDigit : Char → Bool) (s : List Char) : Option (List Char × List Char) :=
  match s with
  | c :: _ => if isDigit c then some (digitRun isDigit s) else none
  | [] => none

/-- The number that digits denote. -/
def value (radix : Nat) (digits : List Char) : Nat :=
  Integer.ofDigits radix (digits.map fun c => (Digit.hex? c).getD 0)

/-- The character is a digit of the radix. -/
def isDigitOf (radix : Nat) (c : Char) : Bool := (Digit.hex? c).any (· < radix)

/-- An integer behind the mark of its base. -/
def marked? (s : List Char) : Option (Nat × List Char) :=
  match s with
  | '0' :: 'x' :: rest => read 16 rest
  | '0' :: 'o' :: rest => read 8 rest
  | '0' :: 'b' :: rest => read 2 rest
  | _ => none
where
  /-- Digits of a base. -/
  read (radix : Nat) (s : List Char) : Option (Nat × List Char) :=
    (digits? (isDigitOf radix) s).map fun (ds, rest) => (value radix ds, rest)

/-- A sign, which may be missing; the answer says whether it is a minus. -/
def sign : List Char → Bool × List Char
  | '-' :: rest => (true, rest)
  | '+' :: rest => (false, rest)
  | rest => (false, rest)

/-- The digits in front of a point: a single zero, or digits that do not start with zero. -/
def whole? (s : List Char) : Option (List Char × List Char) :=
  match s with
  | '0' :: rest => some (['0'], rest)
  | _ => digits? Char.isDigit s

/-- The places behind a point. -/
def places? : List Char → Option (List Char × List Char)
  | '.' :: rest => digits? Char.isDigit rest
  | _ => none

/-- The power of ten behind its mark. -/
def power? : List Char → Option (Int × List Char)
  | 'e' :: rest | 'E' :: rest =>
    let (negative, rest) := sign rest
    (digits? Char.isDigit rest).map fun (ds, rest) =>
      (if negative then -(value 10 ds : Int) else value 10 ds, rest)
  | _ => none

/-- A decimal number at the front. -/
def decimal? (s : List Char) : Option (Except Fault Number × List Char) := do
  let (negative, s) := sign s
  let (whole, s) ← whole? s
  let places := places? s
  let s := (places.map Prod.snd).getD s
  let power := power? s
  let s := (power.map Prod.snd).getD s
  if places.isNone ∧ power.isNone then
    if whole.length > Integer.digitLimit then return (.error (.digits whole.length), s)
    let n : Int := value 10 whole
    return (.ok (.integer (if negative then -n else n)), s)
  else
    let behind := (places.map Prod.fst).getD []
    let exponent := (power.map Prod.fst).getD 0 - behind.length
    return (.ok (.float (.ofDecimal negative (value 10 (whole ++ behind)) exponent)), s)

/-- A number that is given by its name. -/
def named? (s : List Char) : Option (Number × List Char) :=
  let (negative, rest) := sign s
  match rest with
  | 'i' :: 'n' :: 'f' :: rest => some (.float (.infinite negative), rest)
  | 'n' :: 'a' :: 'n' :: rest => some (.float .notANumber, rest)
  | _ => none

/-- A number at the front. -/
def read? (s : List Char) : Option (Except Fault Number × List Char) :=
  match marked? s with
  | some (n, rest) => some (.ok (.integer n), rest)
  | none =>
    match decimal? s with
    | some found => some found
    | none => (named? s).map fun (n, rest) => (.ok n, rest)

end Number

end BankTrace.Toml
