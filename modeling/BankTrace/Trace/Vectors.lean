import BankTrace.MemoryMap

/-!
# Vectors

The handler of an interrupt is read from its vector under a memory map. A vector is expected in a
fixed bank; one in a switchable bank is read all the same, with a warning.
-/

namespace BankTrace.MemoryMap

/-- The address stored at a vector, if it can be read, and what is worth a warning. -/
def readVector (map : MemoryMap) (vector : Int) : List Event × Option Nat :=
  match map.resolve vector with
  | none => ([.vectorUnmapped vector], none)
  | some location =>
    let bank := location.bank
    let switchable := if bank.fixed then [] else [.vectorSwitchable vector bank.name]
    match location.word? with
    | some handler => (switchable, some handler)
    | none => (switchable ++ [.vectorUnreadable vector bank.name], none)

/-- The handlers of interrupts, as far as they can be read. -/
def handlers (map : MemoryMap) : List Interrupt → List Event × List (Interrupt × Nat)
  | [] => ([], [])
  | interrupt :: rest =>
    let (events, others) := map.handlers rest
    match map.readVector interrupt.vector with
    | (seen, none) => (seen ++ events, others)
    | (seen, some handler) =>
      (seen ++ .handlerFound interrupt handler :: events, (interrupt, handler) :: others)

/-- The locations of the two bytes of a vector in banks with an image. -/
def vectorLocations (map : MemoryMap) (interrupt : Interrupt) : List Location :=
  ([interrupt.vector, interrupt.vector + 1].filterMap map.resolve).filter
    fun location => location.bank.isAnalyzable

end BankTrace.MemoryMap
