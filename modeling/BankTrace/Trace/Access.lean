import BankTrace.Cpu.Instruction

/-!
# Memory accesses

Which addresses an instruction may read or write is known from its encoding up to the value of an
index register. An indexed zero-page operand stays on the zero page, an indexed absolute operand
reaches the 256 addresses from its base on, and both wrap. An indirect mode reads its pointer, also
when the instruction only stores; where the pointer leads is not known.
-/

namespace BankTrace.Instruction

/-- The addresses of the zero page. -/
def zeroPage : List Int := (List.range 0x100).map fun (i : Nat) => (i : Int)

/-- The addresses that an index register reaches from a base. -/
def indexed (base : Int) : List Int :=
  (List.range 0x100).map fun (i : Nat) => wrapAddress (base + i)

/-- Where the operand in memory may be, for a mode that is not indirect. -/
def operandAddresses (insn : Instruction) : Option (List Int) :=
  match insn.mode with
  | .zeroPage | .absolute => some [(insn.operand : Int)]
  | .zeroPageX | .zeroPageY => some zeroPage
  | .absoluteX | .absoluteY => some (indexed insn.operand)
  | _ => none

/-- The addresses that the instruction may read: one of them at least is read. -/
def readCandidates (insn : Instruction) : Option (List Int) :=
  match insn.mode with
  | .indirect => some [(insn.operand : Int), wrapAddress (insn.operand + 1)]
  | .indirectX => some zeroPage
  | .indirectY => some [(insn.operand : Int), ((insn.operand + 1) % 0x100 : Int)]
  | _ => if insn.opcode.reads then insn.operandAddresses else none

/-- The addresses that the instruction may write: one of them is written. -/
def writeCandidates (insn : Instruction) : Option (List Int) :=
  if insn.opcode.writes && !insn.mode.isIndirect then insn.operandAddresses else none

/-- The two bytes of the pointer are not behind each other: the processor does not carry into the
next page when it fetches the second one. -/
def pointerWraps (insn : Instruction) : Bool :=
  match insn.mode with
  | .indirect => insn.operand % 0x100 = 0xFF
  | .indirectX | .indirectY => insn.operand = 0xFF
  | _ => false

end BankTrace.Instruction
