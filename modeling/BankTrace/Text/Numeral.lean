/-!
# Written numbers

Addresses are written in upper-case hexadecimal, with a mark in front where the reader could take
them for decimal, and padded with zeros to a width that counts the sign and the mark. Totals are
written in decimal with commas between groups of three digits. Columns are filled with blanks.
-/

namespace BankTrace.Numeral

/-- A text of `count` copies of one character. -/
def fill (count : Nat) (c : Char) : String :=
  String.ofList (List.replicate count c)

/-- Hexadecimal digits with letters `A` to `F`, without leading zeros. -/
def upperDigits (n : Nat) : String :=
  String.ofList ((Nat.toDigits 16 n).map Char.toUpper)

/-- Hexadecimal digits with letters `a` to `f`, without leading zeros. -/
def lowerDigits (n : Nat) : String :=
  String.ofList (Nat.toDigits 16 n)

/-- Sign, mark, zeros up to `width`, then digits; the width counts all four. -/
def signed (width : Nat) (mark : String) (digits : Nat → String) (n : Int) : String :=
  let sign := if n < 0 then "-" else ""
  let body := digits n.natAbs
  sign ++ mark ++ fill (width - (sign.length + mark.length + body.length)) '0' ++ body

/-- Hexadecimal of at least `width` characters without a mark: `C000`, `-001`. -/
def hex (width : Nat) (n : Int) : String :=
  signed width "" upperDigits n

/-- Hexadecimal with the mark `0X`: `0X8000`, `-0X1`. -/
def marked (n : Int) : String :=
  signed 0 "0X" upperDigits n

/-- Hexadecimal with the mark `0X`, six characters at least: `0X0001`. -/
def markedSix (n : Int) : String :=
  signed 6 "0X" upperDigits n

/-- Hexadecimal with the mark `0x` and small letters: `0x4000`. -/
def lowerMarked (n : Int) : String :=
  signed 0 "0x" lowerDigits n

/-- An address in messages and listings: `$C000`. -/
def dollar (n : Int) : String :=
  "$" ++ hex 4 n

/-- An address in reports: `0xC000`. -/
def address (n : Int) : String :=
  "0x" ++ hex 4 n

/-- Split into groups of three from the right; `digits` is in reverse order. -/
def groups : List Char → List Char
  | a :: b :: c :: d :: rest => a :: b :: c :: ',' :: groups (d :: rest)
  | digits => digits

/-- Decimal with commas between groups of three digits: `65,536`. -/
def grouped (n : Nat) : String :=
  String.ofList (groups (Nat.toDigits 10 n).reverse).reverse

/-- Fill with blanks on the left up to `width` characters. -/
def alignRight (width : Nat) (s : String) : String :=
  fill (width - s.length) ' ' ++ s

/-- Fill with blanks on the right up to `width` characters. -/
def alignLeft (width : Nat) (s : String) : String :=
  s ++ fill (width - s.length) ' '

/-- A byte as two small hexadecimal digits. -/
def byteHex (b : UInt8) : String :=
  signed 2 "" lowerDigits b.toNat

/-- A byte string as small hexadecimal digits. -/
def bytesHex (bytes : List UInt8) : String :=
  String.join (bytes.map byteHex)

end BankTrace.Numeral
