import BankTrace.Proofs.Cpu.Transfers
import BankTrace.Proofs.MemoryMap.Resolution
import BankTrace.Proofs.Trace.Visit

/-!
# Legal instructions

The policy goes through lists of addresses that an instruction may access. What it finds out is
whether the instruction can do what it says: whether there is a value of the index register for
which the operand may be read or written, whether a byte of a pointer may be read, and whether
execution goes on in the bank. Here this is said without the lists, and the policy is shown to
have nothing against an instruction exactly where it holds.
-/

namespace BankTrace

namespace Instruction

/-- The address of the operand when the index register has a value, for the modes that find the
operand without a pointer. -/
def operandAddress? (insn : Instruction) (index : Fin 0x100) : Option Nat :=
  match insn.mode with
  | .zeroPage | .absolute => some insn.operand
  | .zeroPageX | .zeroPageY => some ((insn.operand + index) % 0x100)
  | .absoluteX | .absoluteY => some ((insn.operand + index) % 0x10000)
  | _ => none

/-- A byte of the pointer of an indirect mode may be fetched from an address. For `indirectX` this
is any address of the zero page, as the index register can have any value. -/
def FetchesPointerAt (insn : Instruction) (addr : Nat) : Prop :=
  match insn.mode with
  | .indirect => addr = insn.operand ∨ addr = (insn.operand + 1) % 0x10000
  | .indirectX => addr < 0x100
  | .indirectY => addr = insn.operand ∨ addr = (insn.operand + 1) % 0x100
  | _ => False

/-- What an instruction accesses can be accessed. -/
structure Accessible (space : AddressSpace) (insn : Instruction) : Prop where
  /-- The pointer of a jump is not at the end of a page. -/
  straightJump : insn.mode = .indirect → insn.operand % 0x100 ≠ 0xFF
  /-- The pointer to an operand is not at the end of the zero page. -/
  straight : insn.mode = .indirectX ∨ insn.mode = .indirectY → insn.operand ≠ 0xFF
  /-- An operand that is read without a pointer may be read, for some value of the index
  register. -/
  reads : insn.opcode.reads = true → insn.mode.isIndirect = false →
    ∃ index addr, insn.operandAddress? index = some addr ∧
      (space.permissionAt addr).readable = true
  /-- An operand that is written without a pointer may be written, for some value of the index
  register. -/
  writes : insn.opcode.writes = true → insn.mode.isIndirect = false →
    ∃ index addr, insn.operandAddress? index = some addr ∧
      (space.permissionAt addr).writable = true
  /-- Some byte of a pointer may be read. -/
  pointer : insn.mode.isIndirect = true →
    ∃ addr, insn.FetchesPointerAt addr ∧ (space.permissionAt addr).readable = true

section

variable {insn : Instruction}

/-- Adding an index within a page reaches every address of the page. -/
theorem exists_index_eq (base : Nat) {n : Nat} (small : n < 0x100) :
    ∃ index : Fin 0x100, (base + index) % 0x100 = n := by
  have bound : (n + 0x100 - base % 0x100) % 0x100 < 0x100 := Nat.mod_lt _ (by decide)
  refine ⟨⟨_, bound⟩, ?_⟩
  dsimp only
  omega

/-- The zero page are the addresses below `$0100`. -/
theorem mem_zeroPage {addr : Int} : addr ∈ zeroPage ↔ ∃ n < 0x100, addr = (n : Nat) := by
  unfold zeroPage
  simp only [List.mem_map, List.mem_range]
  exact exists_congr fun n => and_congr_right fun _ => eq_comm

/-- An index register reaches the addresses behind a base, which wrap. -/
theorem mem_indexed {base : Nat} {addr : Int} :
    addr ∈ indexed base ↔ ∃ index : Fin 0x100, addr = ((base + index) % 0x10000 : Nat) := by
  unfold indexed wrapAddress
  simp only [List.mem_map, List.mem_range]
  constructor
  · rintro ⟨n, small, rfl⟩
    refine ⟨⟨n, small⟩, ?_⟩
    dsimp only
    omega
  · rintro ⟨index, rfl⟩
    refine ⟨index, index.isLt, ?_⟩
    omega

/-- Where the operand may be are the addresses that it has for some value of the index register. -/
theorem mem_operandAddresses {addrs : List Int} (candidates : insn.operandAddresses = some addrs)
    (addr : Int) :
    addr ∈ addrs ↔ ∃ index n, insn.operandAddress? index = some n ∧ addr = (n : Nat) := by
  unfold operandAddresses at candidates
  unfold operandAddress?
  cases mode : insn.mode <;> rw [mode] at candidates <;> dsimp only at candidates ⊢
  case zeroPage | absolute =>
    obtain rfl := Option.some.inj candidates
    rw [List.mem_singleton]
    exact ⟨fun here => ⟨0, _, rfl, here⟩, fun ⟨_, _, same, here⟩ => Option.some.inj same ▸ here⟩
  case zeroPageX | zeroPageY =>
    obtain rfl := Option.some.inj candidates
    rw [mem_zeroPage]
    constructor
    · rintro ⟨n, small, rfl⟩
      obtain ⟨index, reached⟩ := exists_index_eq insn.operand small
      exact ⟨index, n, congrArg some reached, rfl⟩
    · rintro ⟨index, n, same, rfl⟩
      obtain rfl := Option.some.inj same
      exact ⟨_, Nat.mod_lt _ (by decide), rfl⟩
  case absoluteX | absoluteY =>
    obtain rfl := Option.some.inj candidates
    rw [mem_indexed]
    exact ⟨fun ⟨index, here⟩ => ⟨index, _, rfl, here⟩,
      fun ⟨index, _, same, here⟩ => ⟨index, Option.some.inj same ▸ here⟩⟩
  all_goals contradiction

/-- An operand in memory that is found without a pointer has addresses. -/
theorem exists_operandAddresses (memory : insn.mode.isMemory = true)
    (direct : insn.mode.isIndirect = false) : ∃ addrs, insn.operandAddresses = some addrs := by
  unfold operandAddresses
  cases mode : insn.mode <;> rw [mode] at memory direct <;> first | contradiction | exact ⟨_, rfl⟩

/-- A pointer wraps where it is at the end of a page. -/
theorem pointerWraps_eq_false_iff : insn.pointerWraps = false ↔
    (insn.mode = .indirect → insn.operand % 0x100 ≠ 0xFF) ∧
      (insn.mode = .indirectX ∨ insn.mode = .indirectY → insn.operand ≠ 0xFF) := by
  unfold pointerWraps
  cases insn.mode <;> simp

/-- The bytes of a pointer that may be fetched are those that may be read. -/
theorem mem_pointerCandidates {addrs : List Int} (indirect : insn.mode.isIndirect = true)
    (candidates : insn.readCandidates = some addrs) (addr : Int) :
    addr ∈ addrs ↔ ∃ n, insn.FetchesPointerAt n ∧ addr = (n : Nat) := by
  unfold readCandidates at candidates
  unfold FetchesPointerAt
  cases mode : insn.mode <;> rw [mode] at candidates indirect <;> dsimp only at candidates ⊢
  case indirect =>
    obtain rfl := Option.some.inj candidates
    unfold wrapAddress
    simp only [List.mem_cons, List.not_mem_nil, or_false, or_and_right, exists_or, exists_eq_left]
    omega
  case indirectX =>
    obtain rfl := Option.some.inj candidates
    rw [mem_zeroPage]
  case indirectY =>
    obtain rfl := Option.some.inj candidates
    simp only [List.mem_cons, List.not_mem_nil, or_false, or_and_right, exists_or, exists_eq_left]
    omega
  all_goals contradiction

/-- An instruction of an indirect mode reads its pointer. -/
theorem exists_pointerCandidates (indirect : insn.mode.isIndirect = true) :
    ∃ addrs, insn.readCandidates = some addrs := by
  unfold readCandidates
  cases mode : insn.mode <;> rw [mode] at indirect <;> first | contradiction | exact ⟨_, rfl⟩

/-- Without a pointer an instruction reads its operand or nothing. -/
theorem readCandidates_of_direct (direct : insn.mode.isIndirect = false) :
    insn.readCandidates = if insn.opcode.reads then insn.operandAddresses else none := by
  unfold readCandidates
  cases mode : insn.mode
  case indirect | indirectX | indirectY =>
    rw [mode] at direct
    contradiction
  all_goals rfl

end

end Instruction

namespace Policy

variable {space : AddressSpace} {settings : Settings} {map : MemoryMap} {insn : Instruction}

/-- An access is allowed when its pointer does not wrap and one address each that it may read and
write has the permission. -/
theorem refusedAccess_eq_none_iff :
    refusedAccess space insn = none ↔ insn.pointerWraps = false ∧
      (∀ addrs, insn.readCandidates = some addrs →
        anyPermits space Permission.readable addrs = true) ∧
      ∀ addrs, insn.writeCandidates = some addrs →
        anyPermits space Permission.writable addrs = true := by
  have none_of : ∀ (candidates : Option (List Int)) (test : Permission → Bool),
      (candidates.any fun addrs => !anyPermits space test addrs) = false ↔
        ∀ addrs, candidates = some addrs → anyPermits space test addrs = true := by
    intro candidates test
    cases candidates with
    | none => simp
    | some addrs => simp
  unfold refusedAccess
  rw [← none_of, ← none_of]
  cases insn.pointerWraps <;>
    cases insn.readCandidates.any fun addrs => !anyPermits space Permission.readable addrs <;>
    cases insn.writeCandidates.any fun addrs => !anyPermits space Permission.writable addrs <;>
    simp

/-- An instruction is believed wherever it stands when the settings allow it, and its accesses are
allowed or not looked at. -/
theorem refusedAlone_eq_none_iff :
    refusedAlone settings space insn = none ↔
      (insn.mnemonic = .brk → settings.allowBrk = true) ∧
      (insn.mnemonic = .clv → settings.allowClv = true) ∧
      (insn.mnemonic = .sed → settings.allowSed = true) ∧
      (insn.opcode.isDocumented = false → settings.allowUnofficial = true) ∧
      (settings.checkOperandAccess = true → refusedAccess space insn = none) := by
  have passes : ∀ (refused : Prop) [Decidable refused] (reason : Refusal) (rest : Option Refusal),
      (if refused then some reason else rest) = none ↔ ¬refused ∧ rest = none := by
    intro refused _ reason rest
    by_cases holds : refused <;> simp [holds]
  have allowed : ∀ (concerned : Prop) (allows : Bool),
      ¬(concerned ∧ (!allows) = true) ↔ (concerned → allows = true) := by
    intro concerned allows
    cases allows <;> simp
  unfold refusedAlone
  rw [passes, passes, passes, passes, allowed, allowed, allowed, allowed, Bool.not_eq_true']
  refine and_congr_right fun _ => and_congr_right fun _ => and_congr_right fun _ =>
    and_congr_right fun _ => ?_
  cases settings.checkOperandAccess <;> simp

/-- The policy has nothing against an instruction when it is believed wherever it stands, and
execution stays in the bank or that is not looked at. -/
theorem check_eq_none_iff {bank : String} :
    check settings space map insn bank = none ↔ refusedAlone settings space insn = none ∧
      (settings.checkFallthrough = true → staysInBank map insn bank = true) := by
  unfold check
  cases refusedAlone settings space insn with
  | some reason => simp
  | none =>
    cases settings.checkFallthrough <;> cases staysInBank map insn bank <;> simp

/-- Some address has a permission when one that is listed has it. -/
theorem anyPermits_iff {test : Permission → Bool} {addrs : List Int} {Listed : Nat → Prop}
    (listed : ∀ addr, addr ∈ addrs ↔ ∃ n, Listed n ∧ addr = (n : Nat)) :
    anyPermits space test addrs = true ↔
      ∃ n, Listed n ∧ test (space.permissionAt (n : Nat)) = true := by
  unfold anyPermits
  rw [List.any_eq_true]
  constructor
  · rintro ⟨addr, member, permits⟩
    obtain ⟨n, here, rfl⟩ := (listed addr).mp member
    exact ⟨n, here, permits⟩
  · rintro ⟨n, here, permits⟩
    exact ⟨n, (listed n).mpr ⟨n, here, rfl⟩, permits⟩

/-- Where an operand may be has a permission when its address has it for some value of the index
register. -/
theorem anyPermits_operand_iff {test : Permission → Bool} {addrs : List Int}
    (candidates : insn.operandAddresses = some addrs) :
    anyPermits space test addrs = true ↔
      ∃ index addr, insn.operandAddress? index = some addr ∧
        test (space.permissionAt addr) = true := by
  have listed : ∀ addr, addr ∈ addrs ↔
      ∃ n, (∃ index, insn.operandAddress? index = some n) ∧ addr = (n : Nat) := by
    intro addr
    rw [Instruction.mem_operandAddresses candidates, exists_comm]
    simp only [exists_and_right]
  rw [anyPermits_iff listed, exists_comm]
  simp only [exists_and_right]

/-- What an instruction reads is allowed when its operand or its pointer may be read. -/
theorem reads_permitted_iff :
    (∀ addrs, insn.readCandidates = some addrs →
        anyPermits space Permission.readable addrs = true) ↔
      (insn.opcode.reads = true → insn.mode.isIndirect = false →
        ∃ index addr, insn.operandAddress? index = some addr ∧
          (space.permissionAt addr).readable = true) ∧
      (insn.mode.isIndirect = true →
        ∃ addr, insn.FetchesPointerAt addr ∧ (space.permissionAt addr).readable = true) := by
  cases indirect : insn.mode.isIndirect with
  | true =>
    obtain ⟨addrs, candidates⟩ := Instruction.exists_pointerCandidates indirect
    have listed := Instruction.mem_pointerCandidates indirect candidates
    rw [candidates]
    simp only [Option.some.injEq, forall_eq', Bool.true_eq_false, false_imp_iff, imp_true_iff,
      true_and, true_imp_iff]
    exact anyPermits_iff listed
  | false =>
    rw [Instruction.readCandidates_of_direct indirect]
    cases reads : insn.opcode.reads with
    | false => simp
    | true =>
      have memory : insn.mode.isMemory = true := by
        unfold Opcode.reads at reads
        simp only [Bool.and_eq_true] at reads
        exact reads.1.1
      obtain ⟨addrs, candidates⟩ := Instruction.exists_operandAddresses memory indirect
      rw [if_pos rfl, candidates]
      simp only [Option.some.injEq, forall_eq', Bool.false_eq_true, false_imp_iff, and_true,
        true_imp_iff]
      exact anyPermits_operand_iff candidates

/-- What an instruction writes is allowed when its operand may be written. -/
theorem writes_permitted_iff :
    (∀ addrs, insn.writeCandidates = some addrs →
        anyPermits space Permission.writable addrs = true) ↔
      (insn.opcode.writes = true → insn.mode.isIndirect = false →
        ∃ index addr, insn.operandAddress? index = some addr ∧
          (space.permissionAt addr).writable = true) := by
  unfold Instruction.writeCandidates
  cases writes : insn.opcode.writes with
  | false => simp
  | true =>
    cases indirect : insn.mode.isIndirect with
    | true => simp
    | false =>
      have memory : insn.mode.isMemory = true := by
        unfold Opcode.writes at writes
        simp only [Bool.and_eq_true] at writes
        exact writes.1
      obtain ⟨addrs, candidates⟩ := Instruction.exists_operandAddresses memory indirect
      simp only [Bool.not_false, Bool.and_self, if_true, candidates, Option.some.injEq, forall_eq',
        true_imp_iff]
      exact anyPermits_operand_iff candidates

/-- The accesses of an instruction are allowed when what it accesses can be accessed. -/
theorem accessible_iff : refusedAccess space insn = none ↔ insn.Accessible space := by
  rw [refusedAccess_eq_none_iff, Instruction.pointerWraps_eq_false_iff, reads_permitted_iff,
    writes_permitted_iff]
  constructor
  · rintro ⟨⟨straightJump, straight⟩, ⟨reads, pointer⟩, writes⟩
    exact ⟨straightJump, straight, reads, writes, pointer⟩
  · rintro ⟨straightJump, straight, reads, writes, pointer⟩
    exact ⟨⟨straightJump, straight⟩, ⟨reads, pointer⟩, writes⟩

end Policy

/-- An address is one, not a number behind the last one, and lies in the mapped bank of that
name. -/
structure MemoryMap.HoldsAt (map : MemoryMap) (bank : String) (addr : Int) : Prop where
  /-- The number is not below the first address. -/
  start : 0 ≤ addr
  /-- The number is not behind the last address. -/
  stop : addr < 0x10000
  /-- The bank that is mapped there has the name. -/
  named : ∃ l, map.resolve addr = some l ∧ l.bank.name = bank

namespace Policy

/-- An instruction in the bank of that name is one that the settings ask for. -/
structure Legal (settings : Settings) (space : AddressSpace) (map : MemoryMap)
    (insn : Instruction) (bank : String) : Prop where
  /-- Software interrupts are allowed. -/
  brk : insn.mnemonic = .brk → settings.allowBrk = true
  /-- Clearing the overflow flag is allowed. -/
  clv : insn.mnemonic = .clv → settings.allowClv = true
  /-- Setting the decimal flag is allowed. -/
  sed : insn.mnemonic = .sed → settings.allowSed = true
  /-- Opcodes that the documentation does not list are allowed. -/
  undocumented : insn.opcode.isDocumented = false → settings.allowUnofficial = true
  /-- What the instruction accesses can be accessed, where accesses count. -/
  accesses : settings.checkOperandAccess = true → insn.Accessible space
  /-- Execution that goes on behind the instruction is in the bank, where that counts. -/
  behind : settings.checkFallthrough = true → insn.opcode.isFlow = false →
    map.HoldsAt bank insn.endAddress
  /-- Execution that branches is in the bank, where that counts. -/
  target : settings.checkFallthrough = true → insn.opcode.isBranch = true →
    map.HoldsAt bank (insn.endAddress + Instruction.signedByte insn.operand)

section

variable {space : AddressSpace} {settings : Settings} {map : MemoryMap} {insn : Instruction}
  {bank : String}

/-- An address lies in a bank when the map holds the bank there. -/
theorem liesIn_iff {addr : Int} : liesIn map bank addr = true ↔ map.HoldsAt bank addr := by
  unfold liesIn addressCount
  simp only [Bool.and_eq_true, decide_eq_true_eq, Option.any_eq_true]
  constructor
  · rintro ⟨⟨start, stop⟩, l, resolved, named⟩
    exact ⟨start, stop, l, resolved, named⟩
  · rintro ⟨start, stop, l, resolved, named⟩
    exact ⟨⟨start, stop⟩, l, resolved, named⟩

/-- Behind a branch execution has to stay where it branches to. -/
theorem sequel?_of_branch (branch : insn.opcode.isBranch = true) :
    sequel? insn = some (insn.endAddress + Instruction.signedByte insn.operand) := by
  have relative : insn.mode = .relative := of_decide_eq_true branch
  unfold sequel? Instruction.flow Instruction.branchOffset?
  rw [if_pos branch, if_pos relative]
  rfl

/-- Without a branch execution has to stay behind the instruction, if it transfers control
nowhere. -/
theorem sequel?_of_not_branch (branch : insn.opcode.isBranch = false) :
    sequel? insn = if insn.opcode.isFlow then none else some insn.endAddress := by
  unfold sequel?
  cases transfers : insn.opcode.isFlow with
  | false => rw [Instruction.flow_eq_next_iff.mpr transfers, if_neg Bool.false_ne_true]
  | true =>
    have other : insn.flow ≠ .next := by
      rw [ne_eq, Instruction.flow_eq_next_iff, transfers]
      decide
    cases flow : insn.flow with
    | next => exact absurd flow other
    | branch target behind =>
      rw [Instruction.isBranch_of_flow flow] at branch
      contradiction
    | _ => rfl

/-- Execution stays in the bank when what is behind the instruction or where it branches to does. -/
theorem staysInBank_iff : staysInBank map insn bank = true ↔
    (insn.opcode.isFlow = false → map.HoldsAt bank insn.endAddress) ∧
      (insn.opcode.isBranch = true →
        map.HoldsAt bank (insn.endAddress + Instruction.signedByte insn.operand)) := by
  rw [← liesIn_iff, ← liesIn_iff]
  unfold staysInBank
  cases branch : insn.opcode.isBranch with
  | true =>
    rw [sequel?_of_branch branch, Opcode.isFlow_of_isBranch branch]
    simp
  | false =>
    rw [sequel?_of_not_branch branch]
    cases insn.opcode.isFlow <;> simp

/-- The policy has nothing against an instruction when it is one that the settings ask for. -/
theorem check_eq_none_iff_legal :
    check settings space map insn bank = none ↔ Legal settings space map insn bank := by
  rw [check_eq_none_iff, refusedAlone_eq_none_iff, accessible_iff, staysInBank_iff]
  constructor
  · rintro ⟨⟨brk, clv, sed, undocumented, accesses⟩, stays⟩
    exact ⟨brk, clv, sed, undocumented, accesses, fun checks => (stays checks).1,
      fun checks => (stays checks).2⟩
  · rintro ⟨brk, clv, sed, undocumented, accesses, behind, target⟩
    exact ⟨⟨brk, clv, sed, undocumented, accesses⟩,
      fun checks => ⟨behind checks, target checks⟩⟩

/-- Under every snapshot that the banks admit the policy gives an answer, and it has nothing
against an instruction exactly when the instruction is one that the settings ask for. -/
theorem checkUnder_decides {set : BankSet} {snapshot : Snapshot} {map : MemoryMap}
    (valid : MemoryMap.ofSnapshot set snapshot = .ok map) (settings : Settings)
    (space : AddressSpace) (insn : Instruction) (bank : String) :
    ∃ answer, checkUnder settings space set snapshot insn bank = .ok answer ∧
      (answer = none ↔ Legal settings space map insn bank) :=
  ⟨_, checkUnder_of_valid valid settings space insn bank, check_eq_none_iff_legal⟩

end

/-! ## An index that wraps -/

/-- The address space where only the first address may be read. -/
def frontSpace : AddressSpace := ⟨Vector.ofFn fun addr => { readable := addr == 0 }⟩

/-- A fixed bank of four bytes. -/
def shortBank : Bank where
  name := "short"
  start := 0x8000
  size := 4
  file := ⟨.relative, ["image"]⟩
  cdl := ⟨.relative, ["log"]⟩
  fileOffset := 0
  cdlOffset := 0
  fixed := true
  name_ne := by decide
  size_power := ⟨2, rfl⟩
  size_dvd := by decide
  end_le := by decide

/-- The layout of the bank alone. -/
def shortSet : BankSet := ⟨[⟨shortBank, none⟩], rfl⟩

/-- The map of the bank. -/
def shortMap : MemoryMap := ⟨[⟨shortBank, none⟩], List.pairwise_singleton _ _⟩

/-- The instruction `lda $FFFF, x` at the front of the bank. -/
def lastIndexed : Instruction := ⟨0x8000, 0xBD, [0xFF, 0xFF], by decide⟩

/-- The operand of the instruction may be read: with the index 1 it is at the first address. -/
theorem accessible_lastIndexed : lastIndexed.Accessible frontSpace where
  straightJump := by decide
  straight := by decide
  reads := by
    intro _ _
    refine ⟨1, 0, by decide, ?_⟩
    rw [AddressSpace.permissionAt_of_lt frontSpace (by decide)]
    unfold frontSpace
    rw [Vector.getElem_ofFn]
    rfl
  writes := by decide
  pointer := fun indirect => absurd indirect (by decide)

/-- The policy believes the instruction, as the bank goes on behind it. -/
theorem checkUnder_decides_lastIndexed : ∃ answer,
    checkUnder {} frontSpace shortSet {} lastIndexed "short" = .ok answer ∧ answer = none := by
  have valid : MemoryMap.ofSnapshot shortSet {} = .ok shortMap := rfl
  obtain ⟨answer, answered, decides⟩ :=
    checkUnder_decides valid {} frontSpace lastIndexed "short"
  have behind : shortMap.resolve 0x8003 = some ⟨⟨shortBank, none⟩, ⟨3, by decide⟩⟩ :=
    MemoryMap.resolve_address (l := ⟨⟨shortBank, none⟩, ⟨3, by decide⟩⟩) List.mem_cons_self
  refine ⟨answer, answered, decides.mpr ?_⟩
  exact {
    brk := by decide
    clv := by decide
    sed := by decide
    undocumented := by decide
    accesses := fun _ => accessible_lastIndexed
    behind := fun _ _ => ⟨by decide, by decide, _, behind, rfl⟩
    target := by
      intro _ branch
      exact absurd branch (by decide) }

end Policy

end BankTrace
