import BankTrace.Path

/-!
# Positions

A position is one byte of one log file.
-/

namespace BankTrace.Cdl

/-- A byte of a log file. -/
structure Position where
  /-- The log file. -/
  file : Path
  /-- The offset in the file. -/
  offset : Int
  deriving DecidableEq, Hashable

end BankTrace.Cdl
