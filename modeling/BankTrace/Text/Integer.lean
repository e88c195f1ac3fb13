import BankTrace.Text.Blank
import BankTrace.Text.Digit

/-!
# Written integers

An integer is a sign, which may be missing, and digits; one underscore may stand between two
digits. A numeral in base 2, 8 or 16 may start with `0b`, `0o` or `0x`, followed by an underscore
or not. A reader that is told no base takes it from that mark and reads plain digits in base ten,
where a leading zero is allowed in numerals of zero only. The digits of base ten may be those of
any script. Decimal numerals longer than `digitLimit` are refused, as their value takes too long
to compute.
-/

namespace BankTrace.Integer

/-- The most digits that a decimal numeral may have. -/
def digitLimit : Nat := 4300

/-- Bases that a numeral can be read in. -/
inductive Base where
  | two | eight | ten | sixteen
  deriving DecidableEq

namespace Base

/-- The number of digits of the base. -/
def radix : Base → Nat
  | two => 2
  | eight => 8
  | ten => 10
  | sixteen => 16

/-- The base that a letter after a leading zero announces. -/
def ofMark? (c : Char) : Option Base :=
  if c = 'x' ∨ c = 'X' then some sixteen
  else if c = 'o' ∨ c = 'O' then some eight
  else if c = 'b' ∨ c = 'B' then some two
  else none

end Base

/-- Fold every decimal digit to the digit of the basic alphabet. -/
def foldDigit (c : Char) : Char :=
  match Digit.decimal? c with
  | some value => Char.ofNat ('0'.toNat + value)
  | none => c

/-- Digits of one numeral: values below the radix, single underscores between them. -/
def digits? (radix : Nat) : List Char → Option (List Nat)
  | [] => none
  | [c] => (Digit.hex? c).bind fun d => if d < radix then some [d] else none
  | c :: '_' :: rest =>
    (Digit.hex? c).bind fun d => if d < radix then (digits? radix rest).map (d :: ·) else none
  | c :: rest =>
    (Digit.hex? c).bind fun d => if d < radix then (digits? radix rest).map (d :: ·) else none

/-- The number that digits denote, most significant first. -/
def ofDigits (radix : Nat) (digits : List Nat) : Nat :=
  digits.foldl (fun value d => value * radix + d) 0

/-- The digits after the mark of a base; one underscore may follow the mark. -/
def afterMark (base : Base) : List Char → Option (List Nat)
  | '_' :: rest => digits? base.radix rest
  | rest => digits? base.radix rest

/-- The value of unsigned digits. With no base given, the mark decides, and unmarked digits that
start with zero must denote zero. -/
def magnitude? (base : Option Base) (s : List Char) : Option Nat :=
  match base, s with
  | none, '0' :: c :: rest =>
    match Base.ofMark? c with
    | some marked => (afterMark marked rest).map (ofDigits marked.radix)
    | none =>
      match digits? 10 s with
      | some ds =>
        if ds.length ≤ digitLimit ∧ ofDigits 10 ds = 0 then some 0 else none
      | none => none
  | none, _ => decimal s
  | some .ten, _ => decimal s
  | some base, '0' :: c :: rest =>
    if Base.ofMark? c = some base then (afterMark base rest).map (ofDigits base.radix)
    else (digits? base.radix s).map (ofDigits base.radix)
  | some base, _ => (digits? base.radix s).map (ofDigits base.radix)
where
  /-- Unmarked digits of base ten. -/
  decimal (s : List Char) : Option Nat :=
    match digits? 10 s with
    | some ds => if ds.length ≤ digitLimit then some (ofDigits 10 ds) else none
    | none => none

/-- The value of a numeral with its sign. -/
def ofChars? (base : Option Base) : List Char → Option Int
  | '-' :: rest => (magnitude? base rest).map fun n => -(n : Int)
  | '+' :: rest => (magnitude? base rest).map fun n => (n : Int)
  | s => (magnitude? base s).map fun n => (n : Int)

/-- Read a numeral that may have blanks around it; no base means that its mark decides. -/
def parse? (base : Option Base) (s : List Char) : Option Int :=
  ofChars? base ((Blank.trimBy Blank.setsOffNumber s).map foldDigit)

end BankTrace.Integer
