import BankTrace.Cpu.Disassembly

/-!
# Platforms

A run depends on where it is made: on the memory, on how deeply values may lie inside each other
when they are read and shown, and on the disassembler that writes instructions down. Nothing is
known of these, but that the memory holds more than an address space.
-/

namespace BankTrace

/-- The memory of a machine. -/
structure Memory where
  /-- So many bytes do not fit in. -/
  limit : Nat
  /-- An address space fits in. -/
  large : addressCount < limit

/-- Where a run is made. -/
structure Platform where
  /-- The memory. -/
  memory : Memory
  /-- The deepest level of arrays and tables that are read. -/
  levels : Nat
  /-- The number of values inside each other that a message shows. -/
  room : Nat
  /-- What the disassembler writes for a documented instruction, if it writes anything. -/
  disassembly : Instruction → String

/-- The platform that the program brings along. -/
def Platform.standard : Platform where
  memory := { limit := 0x100000000, large := by decide }
  levels := 985
  room := 990
  disassembly := Disassembly.standard

end BankTrace
