import BankTrace.Proofs.Trace.Contest
import BankTrace.Proofs.Trace.Marking

/-!
# Repetitions

In a repetition all banks are filled with one opcode, so that an instruction starts at every address
whose encoding ends in its bank, and all instructions of all banks are alike. What the log said when
it was read is left open. Repetitions show what overlapping encodings lead to.
-/

namespace BankTrace

/-- An opcode that is believed wherever it stands and whatever it accesses. -/
def Opcode.IsUsual (opcode : Opcode) : Prop :=
  opcode.isDocumented = true ∧ opcode.mnemonic ∉ [.brk, .clv, .sed]

instance (opcode : Opcode) : Decidable opcode.IsUsual :=
  inferInstanceAs (Decidable (_ ∧ _))

namespace Analyzer

/-- The analysis of the banks of a set when all of them are filled with one opcode. -/
def repetition (set : BankSet) (opcode : Opcode) : Analyzer where
  space := .unrestricted
  banks := set.filled fun _ => opcode
  settings := bareSettings
  order := .fifo

/-- The instruction at an address of a repetition. -/
def repeated (opcode : Opcode) (addr : Nat) : Instruction :=
  ⟨addr, opcode, List.replicate opcode.mode.operandLength opcode, List.length_replicate⟩

/-- The encoding repeats the opcode. -/
theorem bytes_repeated (opcode : Opcode) (addr : Nat) :
    (repeated opcode addr).bytes = List.replicate opcode.length opcode := by
  unfold Instruction.bytes repeated Opcode.length
  rw [Nat.add_comm, List.replicate_succ]

/-- Nothing is held against a usual opcode. -/
theorem check_of_usual {opcode : Opcode} (usual : opcode.IsUsual) (space : AddressSpace)
    (map : MemoryMap) {insn : Instruction} (same : insn.opcode = opcode) (bank : String) :
    Policy.check bareSettings space map insn bank = none := by
  obtain ⟨documented, named⟩ := usual
  simp only [List.mem_cons, List.not_mem_nil, or_false, not_or] at named
  obtain ⟨brk, clv, sed⟩ := named
  have mnemonic : insn.mnemonic = opcode.mnemonic := congrArg Opcode.mnemonic same
  have alone : Policy.refusedAlone bareSettings space insn = none := by
    unfold Policy.refusedAlone
    simp [mnemonic, same, documented, brk, clv, sed, bareSettings]
  unfold Policy.check
  rw [alone]
  rfl

section

variable {set : BankSet} {opcode : Opcode} {snapshot : Snapshot} {map : MemoryMap}
  {log : Cdl.Store} {loaded : List Int} {l : Location}

/-- In a repetition a usual instruction is accepted wherever it ends in its bank and its first byte
is not known to be data. -/
theorem accepts_of_repetition (usual : opcode.IsUsual)
    (valid : MemoryMap.ofSnapshot (repetition set opcode).banks snapshot = .ok map)
    (member : l.bank ∈ map.active) (fits : l.offset + opcode.length ≤ l.bank.size)
    (notData : Scene.isKnownData (log.loadedAt l.position) = false) :
    ((repetition set opcode).scene map log loaded).Accepts l.address l
      (repeated opcode l.address) := by
  have filled := BankSet.eq_filled_of_mem (MemoryMap.mem_banks_of_mem_active valid member)
  have short := opcode.length_le
  have top : l.address + opcode.length ≤ 0x10000 := by
    have behind := l.bank.endAddress_le
    unfold Bank.endAddress at behind
    unfold Location.address
    omega
  have executable : ∀ i < opcode.length,
      (AddressSpace.unrestricted.permissionAt ((l.address : Int) + i)).executable = true := by
    intro i small
    rw [← Int.natCast_add, AddressSpace.permissionAt_unrestricted (by omega)]
  refine ⟨MemoryMap.resolve_address member, ?_, ?_, notData, ?_, .inr ?_⟩
  · rw [filled]
    rfl
  · have first := executable 0 opcode.length_pos
    rw [Int.natCast_zero, Int.add_zero] at first
    exact first
  · have front : List.replicate opcode.length opcode <+: l.bytes 3 := by
      rw [Location.bytes_eq_of_filled filled]
      refine ⟨List.replicate (min 3 (l.bank.size - l.offset) - opcode.length) opcode, ?_⟩
      rw [List.replicate_append_replicate, Nat.add_sub_cancel' (by omega)]
    have stop : (l.address : Int) + opcode.length ≤ 0x10000 := by omega
    rw [Instruction.decode_eq_ok_iff, bytes_repeated]
    exact ⟨rfl, front, AddressSpace.allExecutable_eq_true_iff.mpr
      ⟨Int.natCast_nonneg _, stop, executable⟩⟩
  · exact check_of_usual usual _ _ rfl _

/-- In a repetition no other instruction is accepted. -/
theorem eq_repeated_of_accepts
    (valid : MemoryMap.ofSnapshot (repetition set opcode).banks snapshot = .ok map) {addr : Int}
    {insn : Instruction}
    (accepted : ((repetition set opcode).scene map log loaded).Accepts addr l insn) :
    insn.opcode = opcode ∧
      insn.operandBytes = List.replicate opcode.mode.operandLength opcode := by
  have member := (MemoryMap.resolve_eq_some_iff.mp accepted.resolved).1
  have filled := BankSet.eq_filled_of_mem (MemoryMap.mem_banks_of_mem_active valid member)
  have front := (Instruction.decode_eq_ok_iff.mp accepted.decoded).2.1
  rw [Location.bytes_eq_of_filled filled] at front
  have each : ∀ byte ∈ insn.bytes, byte = opcode := fun byte there =>
    List.eq_of_mem_replicate (front.subset there)
  have first : insn.opcode = opcode := each _ List.mem_cons_self
  refine ⟨first, ?_⟩
  rw [List.eq_replicate_iff, ← first]
  exact ⟨insn.complete, fun byte there => first ▸ each byte (List.mem_cons_of_mem _ there)⟩

/-- In a repetition of a single byte no two instructions overlap. -/
theorem endAddress_of_accepts
    (valid : MemoryMap.ofSnapshot (repetition set opcode).banks snapshot = .ok map)
    (short : opcode.length = 1) {insn other : Instruction} {m : Location}
    (accepted : ((repetition set opcode).scene map log loaded).Accepts insn.address l insn)
    (accepted' : ((repetition set opcode).scene map log loaded).Accepts other.address m other)
    (differ : insn ≠ other) :
    insn.endAddress ≤ other.address ∨ other.endAddress ≤ insn.address := by
  obtain ⟨first, operand⟩ := eq_repeated_of_accepts valid accepted
  obtain ⟨first', operand'⟩ := eq_repeated_of_accepts valid accepted'
  have addresses : insn.address ≠ other.address := by
    intro same
    cases insn
    cases other
    simp_all
  unfold Instruction.endAddress Instruction.length
  rw [first, first', short]
  omega

end

/-! ## A bank of returns -/

/-- The analysis of a single bank that is filled with `rts`. -/
def returns : Analyzer := repetition soleSet 0x60

/-- The bank is mapped without any selection. -/
theorem ofSnapshot_returns : MemoryMap.ofSnapshot returns.banks {} = .ok soleMap := rfl

/-- The store covers the bank. -/
theorem forBanks_returns :
    Cdl.Store.forBanks Platform.standard.memory returns.banks.declared = .ok soleLog := rfl

/-- The addresses of the bank have log bytes of their own. -/
theorem distinctPositions_returns : soleMap.DistinctPositions :=
  MemoryMap.SlicesApart.distinctPositions (by decide)

/-! ## A bank of jumps -/

/-- A fixed bank of eight bytes. -/
def jumpBank : Bank :=
  { soleBank with
    size := 8, size_power := ⟨3, rfl⟩, size_dvd := by decide, end_le := by decide }

/-- The layout of the bank alone. -/
def jumpSet : BankSet := ⟨[⟨jumpBank, none⟩], rfl⟩

/-- The map of the bank when it is filled with `jmp`, whose target is not mapped. -/
def jumpMap : MemoryMap := ⟨[.filled jumpBank 0x4C], List.pairwise_singleton _ _⟩

/-- The store that is made for the bank. -/
def jumpLog : Cdl.Store := { files := [(jumpBank.cdl, Cdl.File.blank 8)] }

/-- The analysis of the bank. -/
def jumps : Analyzer := repetition jumpSet 0x4C

/-- The bank is mapped without any selection. -/
theorem ofSnapshot_jumps : MemoryMap.ofSnapshot jumps.banks {} = .ok jumpMap := rfl

/-- The store covers the bank. -/
theorem forBanks_jumps :
    Cdl.Store.forBanks Platform.standard.memory jumps.banks.declared = .ok jumpLog := rfl

/-- The addresses of the bank have log bytes of their own. -/
theorem distinctPositions_jumps : jumpMap.DistinctPositions :=
  MemoryMap.SlicesApart.distinctPositions (by decide)

/-- The location at an offset of the bank. -/
def jumpAt (offset : Fin 8) : Location := ⟨.filled jumpBank 0x4C, offset⟩

/-- A jump is accepted where it ends in the bank and does not start at known data. -/
theorem accepts_jumps {log : Cdl.Store} {loaded : List Int} {offset : Fin 8}
    (fits : offset.val + 3 ≤ 8)
    (notData : Scene.isKnownData (log.loadedAt (jumpAt offset).position) = false) :
    (jumps.scene jumpMap log loaded).Accepts (jumpAt offset).address (jumpAt offset)
      (repeated 0x4C (jumpAt offset).address) :=
  accepts_of_repetition (by decide) ofSnapshot_jumps (l := jumpAt offset) List.mem_cons_self fits
    notData

/-- A jump that ends in the bank has the log bytes of three offsets. -/
theorem covers_jump_iff {offset other : Fin 8} (fits : offset.val + 3 ≤ 8) :
    jumpMap.Covers (jumpAt offset).address 3 (jumpAt other).position ↔
      offset.val ≤ other ∧ other < offset.val + 3 := by
  have found : jumpMap.resolve (jumpAt offset).address = some (jumpAt offset) :=
    MemoryMap.resolve_address List.mem_cons_self
  rw [MemoryMap.covers_iff found fits (Int.natCast_nonneg _) Cdl.code]
  unfold Cdl.Mark.Reaches Location.position jumpAt
  dsimp only
  simp only [Int.toNat_natCast, true_and]
  omega

end Analyzer

end BankTrace
