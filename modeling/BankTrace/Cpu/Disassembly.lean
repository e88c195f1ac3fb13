import BankTrace.Cpu.Instruction

/-!
# Disassembly

The text of an instruction is its address and what a disassembler writes for it. The disassembler
knows the documented opcodes; where it writes nothing, the text is the mnemonic with the plain
operand after a dollar sign. The one that comes with the program writes the operand in the notation
of its mode, with the mark `0x`, and the address that a branch goes to.
-/

namespace BankTrace.Disassembly

open Numeral (signed lowerDigits)

/-- An operand with its mark, padded to two or four digits. -/
def number (digits n : Nat) : String :=
  "0x" ++ signed digits "" lowerDigits n

/-- The operand in the notation of the mode, with the blank in front. -/
def operand (insn : Instruction) : String :=
  let short := number 2 insn.operand
  let long := number 4 insn.operand
  match insn.mode with
  | .implied => ""
  | .accumulator => " a"
  | .immediate => " #" ++ short
  | .zeroPage => " " ++ short
  | .zeroPageX => " " ++ short ++ ", x"
  | .zeroPageY => " " ++ short ++ ", y"
  | .absolute => " " ++ long
  | .absoluteX => " " ++ long ++ ", x"
  | .absoluteY => " " ++ long ++ ", y"
  | .indirect => " (" ++ long ++ ")"
  | .indirectX => " (" ++ short ++ ", x)"
  | .indirectY => " (" ++ short ++ "), y"
  | .relative => " " ++ number 4 ((insn.flow.target?.getD 0).toNat)

/-- The plain operand, with the blank in front. -/
def plainOperand (insn : Instruction) : String :=
  match insn.operandBytes with
  | [] => ""
  | [_] => " $" ++ Numeral.hex 2 insn.operand
  | _ => " $" ++ Numeral.hex 4 insn.operand

/-- What the disassembler of the program writes for a documented instruction: `lda #0x01`. -/
def standard (insn : Instruction) : String := insn.mnemonic.text ++ operand insn

/-- The text of an instruction by what a disassembler writes for the documented ones:
`$C000: lda #0x01`, `$C000: slo $10`. -/
def text (disassembly : Instruction → String) (insn : Instruction) : String :=
  let written := if insn.opcode.isDocumented then disassembly insn else ""
  Numeral.dollar insn.address ++ ": " ++
    if written = "" then insn.mnemonic.text ++ plainOperand insn else written

end BankTrace.Disassembly
