import BankTrace.Memory.Region
import BankTrace.Text.Integer
import BankTrace.Text.Quoted

/-!
# Numbers on the command line

An address is written in hexadecimal after a dollar sign, or as a number that shows its own base. A
count is a decimal number of one or more.
-/

namespace BankTrace.CommandLine

/-- Why a text is not an address or a count. -/
inductive ValueError where
  | address (text : String)
  | addressRange (text : String)
  | number (text : String)
  | notPositive (text : String)
  deriving DecidableEq

/-- The wording of a refused value. -/
def ValueError.message : ValueError → String
  | address text => "invalid address: " ++ Quoted.render text
  | addressRange text => "address out of range: " ++ Quoted.render text
  | number text => "invalid number: " ++ Quoted.render text
  | notPositive text => "must be at least 1: " ++ Quoted.render text

/-- The number that an address text denotes. -/
def addressValue? (s : List Char) : Option Int :=
  match Blank.trimBy Blank.isBlank s with
  | '$' :: digits => Integer.parse? (some .sixteen) digits
  | text => Integer.parse? none text

/-- Read an address. -/
def parseAddress (text : String) : Except ValueError Int :=
  match addressValue? text.toList with
  | none => .error (.address text)
  | some value =>
    if 0 ≤ value ∧ value < addressCount then .ok value else .error (.addressRange text)

/-- Read a count. -/
def parseCount (text : String) : Except ValueError Int :=
  match Integer.parse? (some .ten) text.toList with
  | none => .error (.number text)
  | some value => if 1 ≤ value then .ok value else .error (.notPositive text)

end BankTrace.CommandLine
