import BankTrace.Report.Percent
import BankTrace.Trace.Analysis

/-!
# Coverage and reasons

Coverage says for every bank how much of its stretch of the log is marked. The reasons of refused
instructions are counted over several results, in the order in which they first occur.
-/

namespace BankTrace

/-- How much of a bank is marked. -/
structure Coverage where
  bank : Bank
  /-- The image of the bank is known. -/
  analyzable : Bool
  /-- The number of bytes that are marked as code. -/
  code : Nat
  /-- The number of bytes that are marked as data. -/
  data : Nat
  /-- The number of bytes without a mark. -/
  unknown : Nat

namespace Coverage

/-- The share of code. -/
def percent (c : Coverage) : Percent := .ofRatio c.code c.bank.size

/-- The coverage of one bank. -/
def ofBank (store : Cdl.Store) (b : LoadedBank) : Except Error Coverage := do
  let code ← store.count b.cdl Cdl.code b.cdlOffset (some b.size)
  let data ← store.count b.cdl Cdl.data b.cdlOffset (some b.size)
  let marked ← store.count b.cdl (Cdl.code ||| Cdl.data) b.cdlOffset (some b.size)
  return ⟨b.toBank, b.isAnalyzable, code, data, b.size - marked⟩

/-- The coverage of all banks in the order of their declaration. -/
def ofSet (store : Cdl.Store) (set : BankSet) : Except Error (List Coverage) :=
  set.banks.mapM (ofBank store)

end Coverage

namespace Result

/-- Count a reason once more. -/
def addReason (reason : Refusal) : List (Refusal × Nat) → List (Refusal × Nat)
  | [] => [(reason, 1)]
  | (r, n) :: rest => if r = reason then (r, n + 1) :: rest else (r, n) :: addReason reason rest

/-- How often each reason occurs in results, in the order of the first occurrences. -/
def reasons (results : List Result) : List (Refusal × Nat) :=
  (results.flatMap fun r => r.refusals.map Prod.snd).foldl (fun counts r => addReason r counts) []

/-- The sum of a count over results. -/
def total (count : Result → Nat) (results : List Result) : Nat :=
  results.foldl (fun sum r => sum + count r) 0

end Result

end BankTrace
