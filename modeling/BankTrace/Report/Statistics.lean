import BankTrace.Report.Coverage

/-!
# Statistics

The statistics are what the summary says, laid out for a reader.
-/

namespace BankTrace.Statistics

open Numeral (grouped alignLeft alignRight)

/-- A line between two parts. -/
def rule : String := Numeral.fill 60 '='

/-- A count behind its label. -/
def countLine (label : String) (n : Nat) : String :=
  alignLeft 20 ("  " ++ label ++ ":") ++ alignRight 10 (grouped n)

/-- The reasons, the most frequent first and otherwise in the order of their occurrence. -/
def ranked (reasons : List (Refusal × Nat)) : List (Refusal × Nat) :=
  reasons.mergeSort fun a b => a.2 ≥ b.2

/-- A reason with its count. -/
def reasonLine (reason : Refusal × Nat) : String :=
  "    " ++ alignLeft 40 reason.1.text ++ " " ++ alignRight 8 (grouped reason.2)

/-- The coverage of a bank. -/
def coverageLine (c : Coverage) : String :=
  "    " ++ alignLeft 12 c.bank.name ++ " " ++ Numeral.address c.bank.start ++ "  code " ++
    alignRight 7 (grouped c.code) ++ "  data " ++ alignRight 7 (grouped c.data) ++ "  (" ++
    alignRight 5 c.percent.onePlace ++ "% code)" ++ if c.analyzable then "" else "  (not loaded)"

/-- The lines about reasons, if there are any. -/
def reasonLines (reasons : List (Refusal × Nat)) : List String :=
  if reasons = [] then [] else ["", "  Rejections by reason:"] ++ (ranked reasons).map reasonLine

/-- All lines of the statistics. -/
def lines (results : List Result) (rows : List Coverage) : List String :=
  ["", rule, "  CDL Analysis Summary", rule, "",
    countLine "Snapshots" results.length, countLine "Steps" (Result.total Result.steps results),
    countLine "Decoded" (Result.total Result.decoded results),
    countLine "Accepted" (Result.total Result.accepted results),
    countLine "Rejected" (Result.total Result.rejected results),
    countLine "Decode errors" (Result.total Result.decodeErrors results)] ++
  reasonLines (Result.reasons results) ++
  ["", "  Coverage by bank:"] ++ rows.map coverageLine ++ ["", rule]

end BankTrace.Statistics
