/-!
# Settings

What a traversal starts from, which instructions it believes, and in which order it takes the
addresses that wait.
-/

namespace BankTrace

/-- The settings of an analysis. -/
structure Settings where
  /-- Start at the handler of the non-maskable interrupt. -/
  useNmi : Bool := true
  /-- Start at the handler of the reset. -/
  useReset : Bool := true
  /-- Start at the handler of the interrupt request. -/
  useIrq : Bool := true
  /-- Believe `brk`. -/
  allowBrk : Bool := false
  /-- Believe `clv`. -/
  allowClv : Bool := false
  /-- Believe `sed`. -/
  allowSed : Bool := false
  /-- Believe opcodes that the documentation leaves out. -/
  allowUnofficial : Bool := false
  /-- Believe an instruction only if what it reads can be read and what it writes can be
  written. -/
  checkOperandAccess : Bool := true
  /-- Believe an instruction only if execution stays in its bank. -/
  checkFallthrough : Bool := true
  /-- Mark the bytes that instructions refer to as data. -/
  markDataRefs : Bool := false
  deriving DecidableEq, Inhabited

namespace Settings

/-- One setting: its key in a manifest, how it is read and how it is replaced. -/
structure Field where
  key : String
  get : Settings → Bool
  set : Bool → Settings → Settings

/-- All settings in the order in which they are declared. -/
def fields : List Field :=
  [⟨"use_nmi", useNmi, fun b s => { s with useNmi := b }⟩,
    ⟨"use_reset", useReset, fun b s => { s with useReset := b }⟩,
    ⟨"use_irq", useIrq, fun b s => { s with useIrq := b }⟩,
    ⟨"allow_brk", allowBrk, fun b s => { s with allowBrk := b }⟩,
    ⟨"allow_clv", allowClv, fun b s => { s with allowClv := b }⟩,
    ⟨"allow_sed", allowSed, fun b s => { s with allowSed := b }⟩,
    ⟨"allow_unofficial", allowUnofficial, fun b s => { s with allowUnofficial := b }⟩,
    ⟨"check_operand_access", checkOperandAccess, fun b s => { s with checkOperandAccess := b }⟩,
    ⟨"check_fallthrough", checkFallthrough, fun b s => { s with checkFallthrough := b }⟩,
    ⟨"mark_data_refs", markDataRefs, fun b s => { s with markDataRefs := b }⟩]

end Settings

/-- The end of the waiting addresses that the next one is taken from. -/
inductive Order where
  /-- The address that has waited longest. -/
  | fifo
  /-- The address that came last. -/
  | lifo
  deriving DecidableEq, Inhabited

namespace Order

/-- The name of the order. -/
def text : Order → String
  | fifo => "fifo"
  | lifo => "lifo"

/-- Both orders. -/
def all : List Order := [fifo, lifo]

/-- The order of that name. -/
def ofText? (s : String) : Option Order := all.find? fun order => order.text = s

end Order

end BankTrace
