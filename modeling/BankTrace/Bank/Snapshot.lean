import BankTrace.Bank.Basic

/-!
# Snapshots

A snapshot says which switchable banks are mapped. It is a list of starts with the name of the bank
that is mapped there, and a number that tells later snapshots from earlier ones and means nothing
for what is mapped.
-/

namespace BankTrace

/-- A choice of switchable banks. -/
structure Snapshot where
  /-- The starts of windows and the names of the banks that are mapped there. -/
  selection : List (Int × String) := []
  /-- The number of the snapshot. -/
  version : Int := 0
  deriving DecidableEq, Inhabited

namespace Snapshot

/-- Put a name at a start, in place of the name that is there. -/
def assign (pairs : List (Int × String)) (start : Int) (name : String) : List (Int × String) :=
  if pairs.any fun pair => pair.1 = start then
    pairs.map fun pair => if pair.1 = start then (start, name) else pair
  else pairs ++ [(start, name)]

/-- The snapshot of an assignment of names to starts: of two names for one start the later one
counts, and the starts ascend. -/
def ofAssignment (pairs : List (Int × String)) (version : Int) : Snapshot :=
  let latest := pairs.foldl (fun found pair => assign found pair.1 pair.2) []
  ⟨latest.mergeSort fun a b => a.1 ≤ b.1, version⟩

/-- The snapshot that maps one bank. -/
def single (b : Bank) (version : Int) : Snapshot := ⟨[((b.start : Int), b.name)], version⟩

/-- The name that is selected first for a window. -/
def activeBank? (s : Snapshot) (start : Int) : Option String := s.selection.lookup start

/-- The same choice without its number. -/
def unversioned (s : Snapshot) : Snapshot := { s with version := 0 }

/-- The choice in words: `P0@$8000, P1@$A000`. -/
def describe (s : Snapshot) : String :=
  match s.selection with
  | [] => "fixed banks only"
  | pairs =>
    ", ".intercalate (pairs.map fun (start, name) => name ++ "@" ++ Numeral.dollar start)

end Snapshot

end BankTrace
