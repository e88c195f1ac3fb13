import BankTrace.Cpu.Mnemonic

/-!
# Opcodes

Every byte is an opcode: the table gives the operation and the addressing mode of each. The length
of an instruction, whether its operand is read or written, and whether the documentation knows the
opcode follow from these two.
-/

namespace BankTrace

/-- Where the operand of an instruction is. -/
inductive Mode where
  | implied | accumulator | immediate
  | zeroPage | zeroPageX | zeroPageY
  | absolute | absoluteX | absoluteY
  | indirect | indirectX | indirectY
  | relative
  deriving DecidableEq, Inhabited

namespace Mode

/-- The short name of the mode. -/
def text : Mode → String
  | .implied => "imp"
  | .accumulator => "acc"
  | .immediate => "imm"
  | .zeroPage => "zp"
  | .zeroPageX => "zpx"
  | .zeroPageY => "zpy"
  | .absolute => "abs"
  | .absoluteX => "absx"
  | .absoluteY => "absy"
  | .indirect => "ind"
  | .indirectX => "indx"
  | .indirectY => "indy"
  | .relative => "rel"

/-- The number of bytes behind the opcode. -/
def operandLength : Mode → Nat
  | .implied | .accumulator => 0
  | .immediate | .zeroPage | .zeroPageX | .zeroPageY | .indirectX | .indirectY | .relative => 1
  | .absolute | .absoluteX | .absoluteY | .indirect => 2

/-- The operand is the address of a pointer. -/
def isIndirect : Mode → Bool
  | .indirect | .indirectX | .indirectY => true
  | _ => false

/-- The operand is an address below `$0100`, perhaps plus an index. -/
def isZeroPage : Mode → Bool
  | .zeroPage | .zeroPageX | .zeroPageY => true
  | _ => false

/-- The operand is a value in memory. -/
def isMemory : Mode → Bool
  | .implied | .accumulator | .immediate | .indirect | .relative => false
  | _ => true

/-- No mode has more than two operand bytes. -/
theorem operandLength_le (mode : Mode) : mode.operandLength ≤ 2 := by
  cases mode <;> decide

end Mode

/-- An operation and the mode that it finds its operand by. -/
structure Operation where
  mnemonic : Mnemonic
  mode : Mode
  deriving DecidableEq, Inhabited

/-- The first byte of an instruction. -/
abbrev Opcode := UInt8

namespace Opcode

/-- The operations of all opcodes in ascending order. -/
def table : Array Operation :=
  #[
    -- $00
    ⟨.brk, .implied⟩, ⟨.ora, .indirectX⟩, ⟨.kil, .implied⟩, ⟨.slo, .indirectX⟩, ⟨.nop, .zeroPage⟩,
    ⟨.ora, .zeroPage⟩, ⟨.asl, .zeroPage⟩, ⟨.slo, .zeroPage⟩, ⟨.php, .implied⟩, ⟨.ora, .immediate⟩,
    ⟨.asl, .accumulator⟩, ⟨.anc, .immediate⟩, ⟨.nop, .absolute⟩, ⟨.ora, .absolute⟩,
    ⟨.asl, .absolute⟩, ⟨.slo, .absolute⟩,
    -- $10
    ⟨.bpl, .relative⟩, ⟨.ora, .indirectY⟩, ⟨.kil, .implied⟩, ⟨.slo, .indirectY⟩,
    ⟨.nop, .zeroPageX⟩, ⟨.ora, .zeroPageX⟩, ⟨.asl, .zeroPageX⟩, ⟨.slo, .zeroPageX⟩,
    ⟨.clc, .implied⟩, ⟨.ora, .absoluteY⟩, ⟨.nop, .implied⟩, ⟨.slo, .absoluteY⟩,
    ⟨.nop, .absoluteX⟩, ⟨.ora, .absoluteX⟩, ⟨.asl, .absoluteX⟩, ⟨.slo, .absoluteX⟩,
    -- $20
    ⟨.jsr, .absolute⟩, ⟨.and, .indirectX⟩, ⟨.kil, .implied⟩, ⟨.rla, .indirectX⟩,
    ⟨.bit, .zeroPage⟩, ⟨.and, .zeroPage⟩, ⟨.rol, .zeroPage⟩, ⟨.rla, .zeroPage⟩, ⟨.plp, .implied⟩,
    ⟨.and, .immediate⟩, ⟨.rol, .accumulator⟩, ⟨.anc, .immediate⟩, ⟨.bit, .absolute⟩,
    ⟨.and, .absolute⟩, ⟨.rol, .absolute⟩, ⟨.rla, .absolute⟩,
    -- $30
    ⟨.bmi, .relative⟩, ⟨.and, .indirectY⟩, ⟨.kil, .implied⟩, ⟨.rla, .indirectY⟩,
    ⟨.nop, .zeroPageX⟩, ⟨.and, .zeroPageX⟩, ⟨.rol, .zeroPageX⟩, ⟨.rla, .zeroPageX⟩,
    ⟨.sec, .implied⟩, ⟨.and, .absoluteY⟩, ⟨.nop, .implied⟩, ⟨.rla, .absoluteY⟩,
    ⟨.nop, .absoluteX⟩, ⟨.and, .absoluteX⟩, ⟨.rol, .absoluteX⟩, ⟨.rla, .absoluteX⟩,
    -- $40
    ⟨.rti, .implied⟩, ⟨.eor, .indirectX⟩, ⟨.kil, .implied⟩, ⟨.sre, .indirectX⟩, ⟨.nop, .zeroPage⟩,
    ⟨.eor, .zeroPage⟩, ⟨.lsr, .zeroPage⟩, ⟨.sre, .zeroPage⟩, ⟨.pha, .implied⟩, ⟨.eor, .immediate⟩,
    ⟨.lsr, .accumulator⟩, ⟨.alr, .immediate⟩, ⟨.jmp, .absolute⟩, ⟨.eor, .absolute⟩,
    ⟨.lsr, .absolute⟩, ⟨.sre, .absolute⟩,
    -- $50
    ⟨.bvc, .relative⟩, ⟨.eor, .indirectY⟩, ⟨.kil, .implied⟩, ⟨.sre, .indirectY⟩,
    ⟨.nop, .zeroPageX⟩, ⟨.eor, .zeroPageX⟩, ⟨.lsr, .zeroPageX⟩, ⟨.sre, .zeroPageX⟩,
    ⟨.cli, .implied⟩, ⟨.eor, .absoluteY⟩, ⟨.nop, .implied⟩, ⟨.sre, .absoluteY⟩,
    ⟨.nop, .absoluteX⟩, ⟨.eor, .absoluteX⟩, ⟨.lsr, .absoluteX⟩, ⟨.sre, .absoluteX⟩,
    -- $60
    ⟨.rts, .implied⟩, ⟨.adc, .indirectX⟩, ⟨.kil, .implied⟩, ⟨.rra, .indirectX⟩, ⟨.nop, .zeroPage⟩,
    ⟨.adc, .zeroPage⟩, ⟨.ror, .zeroPage⟩, ⟨.rra, .zeroPage⟩, ⟨.pla, .implied⟩, ⟨.adc, .immediate⟩,
    ⟨.ror, .accumulator⟩, ⟨.arr, .immediate⟩, ⟨.jmp, .indirect⟩, ⟨.adc, .absolute⟩,
    ⟨.ror, .absolute⟩, ⟨.rra, .absolute⟩,
    -- $70
    ⟨.bvs, .relative⟩, ⟨.adc, .indirectY⟩, ⟨.kil, .implied⟩, ⟨.rra, .indirectY⟩,
    ⟨.nop, .zeroPageX⟩, ⟨.adc, .zeroPageX⟩, ⟨.ror, .zeroPageX⟩, ⟨.rra, .zeroPageX⟩,
    ⟨.sei, .implied⟩, ⟨.adc, .absoluteY⟩, ⟨.nop, .implied⟩, ⟨.rra, .absoluteY⟩,
    ⟨.nop, .absoluteX⟩, ⟨.adc, .absoluteX⟩, ⟨.ror, .absoluteX⟩, ⟨.rra, .absoluteX⟩,
    -- $80
    ⟨.nop, .immediate⟩, ⟨.sta, .indirectX⟩, ⟨.nop, .immediate⟩, ⟨.sax, .indirectX⟩,
    ⟨.sty, .zeroPage⟩, ⟨.sta, .zeroPage⟩, ⟨.stx, .zeroPage⟩, ⟨.sax, .zeroPage⟩, ⟨.dey, .implied⟩,
    ⟨.nop, .immediate⟩, ⟨.txa, .implied⟩, ⟨.xaa, .immediate⟩, ⟨.sty, .absolute⟩,
    ⟨.sta, .absolute⟩, ⟨.stx, .absolute⟩, ⟨.sax, .absolute⟩,
    -- $90
    ⟨.bcc, .relative⟩, ⟨.sta, .indirectY⟩, ⟨.kil, .implied⟩, ⟨.ahx, .indirectY⟩,
    ⟨.sty, .zeroPageX⟩, ⟨.sta, .zeroPageX⟩, ⟨.stx, .zeroPageY⟩, ⟨.sax, .zeroPageY⟩,
    ⟨.tya, .implied⟩, ⟨.sta, .absoluteY⟩, ⟨.txs, .implied⟩, ⟨.tas, .absoluteY⟩,
    ⟨.shy, .absoluteX⟩, ⟨.sta, .absoluteX⟩, ⟨.shx, .absoluteY⟩, ⟨.ahx, .absoluteY⟩,
    -- $A0
    ⟨.ldy, .immediate⟩, ⟨.lda, .indirectX⟩, ⟨.ldx, .immediate⟩, ⟨.lax, .indirectX⟩,
    ⟨.ldy, .zeroPage⟩, ⟨.lda, .zeroPage⟩, ⟨.ldx, .zeroPage⟩, ⟨.lax, .zeroPage⟩, ⟨.tay, .implied⟩,
    ⟨.lda, .immediate⟩, ⟨.tax, .implied⟩, ⟨.lax, .immediate⟩, ⟨.ldy, .absolute⟩,
    ⟨.lda, .absolute⟩, ⟨.ldx, .absolute⟩, ⟨.lax, .absolute⟩,
    -- $B0
    ⟨.bcs, .relative⟩, ⟨.lda, .indirectY⟩, ⟨.kil, .implied⟩, ⟨.lax, .indirectY⟩,
    ⟨.ldy, .zeroPageX⟩, ⟨.lda, .zeroPageX⟩, ⟨.ldx, .zeroPageY⟩, ⟨.lax, .zeroPageY⟩,
    ⟨.clv, .implied⟩, ⟨.lda, .absoluteY⟩, ⟨.tsx, .implied⟩, ⟨.las, .absoluteY⟩,
    ⟨.ldy, .absoluteX⟩, ⟨.lda, .absoluteX⟩, ⟨.ldx, .absoluteY⟩, ⟨.lax, .absoluteY⟩,
    -- $C0
    ⟨.cpy, .immediate⟩, ⟨.cmp, .indirectX⟩, ⟨.nop, .immediate⟩, ⟨.dcp, .indirectX⟩,
    ⟨.cpy, .zeroPage⟩, ⟨.cmp, .zeroPage⟩, ⟨.dec, .zeroPage⟩, ⟨.dcp, .zeroPage⟩, ⟨.iny, .implied⟩,
    ⟨.cmp, .immediate⟩, ⟨.dex, .implied⟩, ⟨.axs, .immediate⟩, ⟨.cpy, .absolute⟩,
    ⟨.cmp, .absolute⟩, ⟨.dec, .absolute⟩, ⟨.dcp, .absolute⟩,
    -- $D0
    ⟨.bne, .relative⟩, ⟨.cmp, .indirectY⟩, ⟨.kil, .implied⟩, ⟨.dcp, .indirectY⟩,
    ⟨.nop, .zeroPageX⟩, ⟨.cmp, .zeroPageX⟩, ⟨.dec, .zeroPageX⟩, ⟨.dcp, .zeroPageX⟩,
    ⟨.cld, .implied⟩, ⟨.cmp, .absoluteY⟩, ⟨.nop, .implied⟩, ⟨.dcp, .absoluteY⟩,
    ⟨.nop, .absoluteX⟩, ⟨.cmp, .absoluteX⟩, ⟨.dec, .absoluteX⟩, ⟨.dcp, .absoluteX⟩,
    -- $E0
    ⟨.cpx, .immediate⟩, ⟨.sbc, .indirectX⟩, ⟨.nop, .immediate⟩, ⟨.isc, .indirectX⟩,
    ⟨.cpx, .zeroPage⟩, ⟨.sbc, .zeroPage⟩, ⟨.inc, .zeroPage⟩, ⟨.isc, .zeroPage⟩, ⟨.inx, .implied⟩,
    ⟨.sbc, .immediate⟩, ⟨.nop, .implied⟩, ⟨.sbc, .immediate⟩, ⟨.cpx, .absolute⟩,
    ⟨.sbc, .absolute⟩, ⟨.inc, .absolute⟩, ⟨.isc, .absolute⟩,
    -- $F0
    ⟨.beq, .relative⟩, ⟨.sbc, .indirectY⟩, ⟨.kil, .implied⟩, ⟨.isc, .indirectY⟩,
    ⟨.nop, .zeroPageX⟩, ⟨.sbc, .zeroPageX⟩, ⟨.inc, .zeroPageX⟩, ⟨.isc, .zeroPageX⟩,
    ⟨.sed, .implied⟩, ⟨.sbc, .absoluteY⟩, ⟨.nop, .implied⟩, ⟨.isc, .absoluteY⟩,
    ⟨.nop, .absoluteX⟩, ⟨.sbc, .absoluteX⟩, ⟨.inc, .absoluteX⟩, ⟨.isc, .absoluteX⟩
  ]

/-- The table has an entry for every byte. -/
theorem table_size : table.size = 256 := by decide +kernel

/-- The operation and mode of an opcode. -/
def operation (opcode : Opcode) : Operation :=
  have : opcode.toNat < table.size := by rw [table_size]; exact opcode.toNat_lt
  table[opcode.toNat]

/-- The mnemonic of an opcode. -/
def mnemonic (opcode : Opcode) : Mnemonic := opcode.operation.mnemonic

/-- The addressing mode of an opcode. -/
def mode (opcode : Opcode) : Mode := opcode.operation.mode

/-- The number of bytes of an instruction, opcode included. -/
def length (opcode : Opcode) : Nat := 1 + opcode.mode.operandLength

/-- The documentation lists the opcode. Of the opcodes for `nop` and of those for `sbc` it leaves
some out. -/
def isDocumented (opcode : Opcode) : Bool :=
  opcode.mnemonic.isDocumented && (opcode.mnemonic != .nop || opcode == 0xEA) && opcode != 0xEB

/-- The instruction reads its operand from memory. The bytes of the instruction itself and the
pointer of an indirect mode do not count. -/
def reads (opcode : Opcode) : Bool :=
  opcode.mode.isMemory && !opcode.mnemonic.isStore && !opcode.mnemonic.isTransfer

/-- The instruction writes its operand to memory. -/
def writes (opcode : Opcode) : Bool :=
  opcode.mode.isMemory && (opcode.mnemonic.isStore || opcode.mnemonic.isModify)

/-- The instruction branches on a flag. -/
def isBranch (opcode : Opcode) : Bool := opcode.mode = .relative

/-- The instruction stops the processor. -/
def isHalt (opcode : Opcode) : Bool := opcode.mnemonic = .kil

/-- Execution may go on elsewhere than behind the instruction. -/
def isFlow (opcode : Opcode) : Bool :=
  match opcode.mnemonic with
  | .brk | .jsr | .rti | .jmp | .rts | .kil => true
  | _ => opcode.isBranch

/-- No instruction is longer than three bytes. -/
theorem length_le (opcode : Opcode) : opcode.length ≤ 3 := by
  have := opcode.mode.operandLength_le
  unfold length
  omega

/-- Every instruction has its opcode. -/
theorem length_pos (opcode : Opcode) : 0 < opcode.length := by
  unfold length
  omega

end Opcode

end BankTrace
