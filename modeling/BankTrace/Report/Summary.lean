import BankTrace.Decimal.Shortest
import BankTrace.Document
import BankTrace.Report.Coverage

/-!
# The summary

The summary is a document about all results, the coverage of the banks and the log files that were
written.
-/

namespace BankTrace.Summary

/-- The times that a summary and its readers are shown. -/
structure Timing where
  /-- The time of the whole program in the summary. -/
  total : Document
  /-- The time of one traversal in the summary. -/
  single : Document
  /-- The time of the whole program as it is printed. -/
  shown : String

/-- Milliseconds as seconds, without zeros that tell nothing: `0.25`. -/
def seconds (milliseconds : Nat) : Document :=
  .number (Decimal.Binary.ofDecimal false milliseconds (-3)).text

/-- The timing of a program that took so long for so many traversals; each of them is given its
share. -/
def Timing.ofMilliseconds (milliseconds traversals : Nat) : Timing :=
  let hundredths := Decimal.roundHalfEven milliseconds 10
  { total := seconds milliseconds
    single := seconds (milliseconds / traversals)
    shown := toString (hundredths / 100) ++ "." ++
      String.ofList (Percent.twoDigits (hundredths % 100)) ++ "s" }

/-- The members of a result, without the time. -/
def resultMembers (r : Result) : List (String × Document) :=
  [("snapshot", .text r.snapshot.describe), ("version", .int r.snapshot.version),
    ("seeds", .list (r.seeds.map fun addr => .text (Numeral.address addr))),
    ("loaded_seeds", .int r.loadedSeeds.length), ("steps", .int r.steps),
    ("decoded", .int r.decoded), ("accepted", .int r.accepted), ("skipped", .int r.skipped),
    ("discarded", .int r.discarded), ("decode_errors", .int r.decodeErrors),
    ("rejected", .int r.rejected), ("limit_reached", .bool r.limitReached)]

/-- The coverage of a bank. -/
def coverage (c : Coverage) : Document :=
  .object
    [("name", .text c.bank.name), ("start", .text (Numeral.address c.bank.start)),
      ("len", .int c.bank.size), ("fixed", .bool c.bank.fixed),
      ("analyzable", .bool c.analyzable), ("code", .int c.code), ("data", .int c.data),
      ("unknown", .int c.unknown), ("code_pct", .number c.percent.text)]

/-- A member that holds a time, if there is one. -/
def elapsed (time : Option Document) : List (String × Document) :=
  time.toList.map fun t => ("elapsed", t)

/-- The text of a path, null where there is none or an empty one. -/
def pathText : Option String → Document
  | none | some "" => .null
  | some text => .text text

/-- The members of the summary; times are left out where there are none. -/
def members (results : List Result) (rows : List Coverage) (manifest : Option String)
    (written : List Path) (references : Option Int) (timing : Option Timing) :
    List (String × Document) :=
  [("manifest", pathText manifest),
    ("runs", .list (results.map fun r =>
      .object (resultMembers r ++ elapsed (timing.map Timing.single)))),
    ("total_steps", .int (Result.total Result.steps results)),
    ("total_accepted", .int (Result.total Result.accepted results)),
    ("total_rejected", .int (Result.total Result.rejected results)),
    ("rejections_by_reason", .object ((Result.reasons results).map fun (reason, count) =>
      (reason.text, .int count))),
    ("banks", .list (rows.map coverage)),
    ("cdl_files_written", .list (written.map fun p => .text p.toString))] ++
  elapsed (timing.map Timing.total) ++
  references.toList.map fun count => ("data_references", .int count)

end BankTrace.Summary
