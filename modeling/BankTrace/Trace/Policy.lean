import BankTrace.Trace.Access
import BankTrace.Trace.Vectors

/-!
# The policy and the successors

The policy decides whether an instruction that can be read is believed to be one; the successors are
the addresses where execution goes on behind it. Both ask the memory map only where the answer
depends on it.
-/

namespace BankTrace

namespace Policy

/-- Some address of a list allows what a test asks for. -/
def anyPermits (space : AddressSpace) (test : Permission → Bool) (addrs : List Int) : Bool :=
  addrs.any fun addr => test (space.permissionAt addr)

/-- The instruction accesses memory only where no access is allowed, or by a pointer that wraps. -/
def refusedAccess (space : AddressSpace) (insn : Instruction) : Option Refusal :=
  if insn.pointerWraps then some .pointerWraps
  else if insn.readCandidates.any fun addrs => !anyPermits space Permission.readable addrs then
    some .unreadable
  else if insn.writeCandidates.any fun addrs => !anyPermits space Permission.writable addrs then
    some .unwritable
  else none

/-- Why the instruction is refused, wherever it stands. -/
def refusedAlone (settings : Settings) (space : AddressSpace) (insn : Instruction) :
    Option Refusal :=
  if insn.mnemonic = .brk ∧ !settings.allowBrk then some .brk
  else if insn.mnemonic = .clv ∧ !settings.allowClv then some .clv
  else if insn.mnemonic = .sed ∧ !settings.allowSed then some .sed
  else if !insn.opcode.isDocumented ∧ !settings.allowUnofficial then some .undocumented
  else if settings.checkOperandAccess then refusedAccess space insn
  else none

/-- The address that has to be in the bank of the instruction: the one behind it, or where it
branches to, without wrapping. Other transfers may leave the bank. -/
def sequel? (insn : Instruction) : Option Int :=
  match insn.flow with
  | .next => some insn.endAddress
  | .branch .. => some (insn.endAddress + insn.branchOffset?.getD 0)
  | _ => none

/-- An address is one, and lies in the bank of that name. -/
def liesIn (map : MemoryMap) (bank : String) (addr : Int) : Bool :=
  0 ≤ addr && addr < addressCount && (map.resolve addr).any fun l => l.bank.name = bank

/-- Execution goes on in the bank of that name. -/
def staysInBank (map : MemoryMap) (insn : Instruction) (bank : String) : Bool :=
  (sequel? insn).all (liesIn map bank)

/-- Why an instruction in the bank of that name is refused. -/
def check (settings : Settings) (space : AddressSpace) (map : MemoryMap) (insn : Instruction)
    (bank : String) : Option Refusal :=
  match refusedAlone settings space insn with
  | some reason => some reason
  | none =>
    if settings.checkFallthrough && !staysInBank map insn bank then some .leavesBank else none

/-- Why an instruction in the bank of that name is refused under a snapshot. A snapshot that maps
nothing is an error only where its memory map is needed. -/
def checkUnder (settings : Settings) (space : AddressSpace) (set : BankSet) (snapshot : Snapshot)
    (insn : Instruction) (bank : String) : Except ConfigError (Option Refusal) :=
  match refusedAlone settings space insn with
  | some reason => .ok (some reason)
  | none =>
    if settings.checkFallthrough then
      match sequel? insn with
      | none => .ok none
      | some addr =>
        if 0 ≤ addr ∧ addr < addressCount then do
          let map ← MemoryMap.ofSnapshot set snapshot
          return if liesIn map bank addr then none else some .leavesBank
        else .ok (some .leavesBank)
    else .ok none

end Policy

namespace Instruction

/-- Where execution goes on when the memory map does not matter. -/
def staticSuccessors? (insn : Instruction) : Option (List Int) :=
  match insn.flow with
  | .next => some (if insn.endAddress ≥ addressCount then [] else [insn.endAddress])
  | .branch target behind | .call target behind => some [target, behind]
  | .jump target => some [target]
  | .indirectJump _ => if insn.pointerWraps then some [] else none
  | .softwareInterrupt => none
  | .back | .interruptReturn | .halt => some []

/-- Where execution goes on by an address that is read from memory. -/
def loadedSuccessors (map : MemoryMap) (insn : Instruction) : List Event × List Int :=
  match insn.flow with
  | .indirectJump pointer => ([], (map.readWord pointer).toList.map fun (n : Nat) => (n : Int))
  | .softwareInterrupt =>
    let (events, handler) := map.readVector Interrupt.irq.vector
    (events, handler.toList.map fun (n : Nat) => (n : Int))
  | _ => ([], [])

/-- Where execution goes on, and what is worth a warning on the way. -/
def successors (map : MemoryMap) (insn : Instruction) : List Event × List Int :=
  match insn.staticSuccessors? with
  | some addrs => ([], addrs)
  | none => insn.loadedSuccessors map

/-- Where execution goes on under a snapshot. A snapshot that maps nothing is an error only where
its memory map is needed. -/
def successorsUnder (set : BankSet) (snapshot : Snapshot) (insn : Instruction) :
    Except ConfigError (List Event × List Int) :=
  match insn.staticSuccessors? with
  | some addrs => .ok ([], addrs)
  | none => (MemoryMap.ofSnapshot set snapshot).map fun map => insn.loadedSuccessors map

end Instruction

end BankTrace
