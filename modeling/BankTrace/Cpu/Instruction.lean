import BankTrace.Cpu.Opcode
import BankTrace.Memory.AddressSpace

/-!
# Instructions

An instruction is an opcode at an address together with exactly as many operand bytes as the opcode
asks for. Its operand, its length, where execution goes on behind it and the addresses that it may
touch follow from these. Reading an instruction from bytes looks at no byte behind its encoding, and
asks for permission to execute an operand byte before it looks at it.
-/

namespace BankTrace

/-- Where execution goes on after an instruction. -/
inductive Flow where
  /-- Behind the instruction. -/
  | next
  /-- At the target or behind the instruction. -/
  | branch (target behind : Int)
  /-- At the target, and behind the instruction when the subroutine returns. -/
  | call (target behind : Int)
  /-- At the target. -/
  | jump (target : Int)
  /-- At the address that is stored at the pointer. -/
  | indirectJump (pointer : Int)
  /-- Behind the call. -/
  | back
  /-- Where an interrupt broke in. -/
  | interruptReturn
  /-- At the handler of the interrupt vector. -/
  | softwareInterrupt
  /-- Nowhere. -/
  | halt
  deriving DecidableEq

namespace Flow

/-- The name of the kind of transfer; there is none for going on behind the instruction. -/
def kind? : Flow → Option String
  | next => none
  | branch .. => some "branch"
  | call .. => some "call"
  | jump _ | indirectJump _ => some "jump"
  | back => some "return"
  | interruptReturn => some "interrupt_return"
  | softwareInterrupt => some "software_interrupt"
  | halt => some "halt"

/-- The address that the transfer names. -/
def target? : Flow → Option Int
  | branch target _ | call target _ | jump target => some target
  | _ => none

/-- The address behind the instruction, where a branch or a call also goes on. -/
def fallThrough? : Flow → Option Int
  | branch _ behind | call _ behind => some behind
  | _ => none

/-- No address follows from the instruction alone. -/
def terminates : Flow → Bool
  | back | interruptReturn | halt => true
  | _ => false

end Flow

/-- An opcode at an address with its operand bytes. -/
structure Instruction where
  /-- Where the opcode is. -/
  address : Int
  opcode : Opcode
  /-- The bytes behind the opcode. -/
  operandBytes : List UInt8
  /-- There are as many operand bytes as the opcode asks for. -/
  complete : operandBytes.length = opcode.mode.operandLength
  deriving DecidableEq

namespace Instruction

/-- The number that bytes denote, the least significant first. -/
def littleEndian : List UInt8 → Nat
  | [] => 0
  | b :: rest => b.toNat + 256 * littleEndian rest

/-- The addressing mode. -/
def mode (insn : Instruction) : Mode := insn.opcode.mode

/-- The mnemonic. -/
def mnemonic (insn : Instruction) : Mnemonic := insn.opcode.mnemonic

/-- The number of bytes. -/
def length (insn : Instruction) : Nat := insn.opcode.length

/-- The bytes of the instruction. -/
def bytes (insn : Instruction) : List UInt8 := insn.opcode :: insn.operandBytes

/-- The number that the operand bytes denote, zero if there are none. -/
def operand (insn : Instruction) : Nat := littleEndian insn.operandBytes

/-- The operand of an instruction that has one. -/
def operand? (insn : Instruction) : Option Nat :=
  if insn.operandBytes = [] then none else some insn.operand

/-- The address behind the instruction, which may be behind the last address. -/
def endAddress (insn : Instruction) : Int := insn.address + insn.length

/-- A byte as a number from -128 to 127. -/
def signedByte (n : Nat) : Int := if n < 0x80 then n else n - 0x100

/-- How far a branch goes from the address behind it. -/
def branchOffset? (insn : Instruction) : Option Int :=
  if insn.mode = .relative then some (signedByte insn.operand) else none

/-- The address of the pointer of an indirect mode. -/
def pointer? (insn : Instruction) : Option Nat :=
  if insn.mode.isIndirect then some insn.operand else none

/-- The address of the operand when it depends neither on a register nor on memory. -/
def effectiveAddress? (insn : Instruction) : Option Nat :=
  match insn.mode with
  | .zeroPage | .absolute => some insn.operand
  | _ => none

/-- Where execution goes on. -/
def flow (insn : Instruction) : Flow :=
  if insn.opcode.isBranch then
    .branch (wrapAddress (insn.endAddress + signedByte insn.operand))
      (wrapAddress insn.endAddress)
  else
    match insn.mnemonic with
    | .kil => .halt
    | .jsr => .call insn.operand (wrapAddress insn.endAddress)
    | .jmp => if insn.mode = .indirect then .indirectJump insn.operand else .jump insn.operand
    | .rts => .back
    | .rti => .interruptReturn
    | .brk => .softwareInterrupt
    | _ => .next

/-- The opcode at an address may be executed; without an address space, every one may. -/
def mayStart (space : Option AddressSpace) (address : Int) : Except Error Bool :=
  match space with
  | none => .ok true
  | some space => space.isExecutable address

/-- All bytes of an encoding may be executed; without an address space, every one may. -/
def mayExecute (space : Option AddressSpace) (address length : Int) : Bool :=
  match space with
  | none => true
  | some space => space.allExecutable address length

/-- Read the instruction at the front of `bytes`, which start at `address`. With an address space,
every byte of the encoding must be executable. -/
def decode (bytes : List UInt8) (address : Int) (space : Option AddressSpace) :
    Except Error Instruction :=
  match bytes with
  | [] => .error (.decode address .noBytes)
  | byte :: rest =>
    let opcode : Opcode := byte
    let name := opcode.mnemonic.text
    match mayStart space address with
    | .error e => .error e
    | .ok false => .error (.decode address .opcodeNotExecutable)
    | .ok true =>
      if address + opcode.length > addressCount then .error (.decode address (.pastTop name))
      else if !mayExecute space address opcode.length then
        .error (.decode address (.operandNotExecutable name))
      else if enough : opcode.mode.operandLength ≤ rest.length then
        .ok ⟨address, opcode, rest.take opcode.mode.operandLength, by simp [enough]⟩
      else .error (.decode address (.truncated name opcode.length bytes.length))

/-- The encoding is as long as the opcode says. -/
theorem length_bytes (insn : Instruction) : insn.bytes.length = insn.length := by
  simp [bytes, length, Opcode.length, insn.complete, Nat.add_comm]

/-- Two bytes denote a number below `$10000`. -/
theorem littleEndian_lt {bytes : List UInt8} (h : bytes.length ≤ 2) :
    littleEndian bytes < 0x10000 := by
  match bytes with
  | [] => simp [littleEndian]
  | [b] => have := b.toNat_lt; simp only [littleEndian]; omega
  | [b, c] => have := b.toNat_lt; have := c.toNat_lt; simp only [littleEndian]; omega
  | _ :: _ :: _ :: _ => simp only [List.length_cons] at h; omega

/-- An operand is an address. -/
theorem operand_lt (insn : Instruction) : insn.operand < 0x10000 :=
  littleEndian_lt (insn.complete ▸ insn.opcode.mode.operandLength_le)

end Instruction

end BankTrace
