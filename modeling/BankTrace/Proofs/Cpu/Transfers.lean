import Mathlib.Tactic.ByContra
import BankTrace.Cpu.Instruction

/-!
# Transfers of control

Which opcodes transfer control, and where to. The branches and the call are the two transfers that
also go on behind themselves; what the table says of them is that they are documented, have no
pointer and access no memory.
-/

namespace BankTrace

/-- What goes on elsewhere and behind itself is a branch or a call. -/
theorem Flow.exists_target_of_fallThrough? {flow : Flow} {behind : Int}
    (falls : flow.fallThrough? = some behind) :
    ∃ target, flow = .branch target behind ∨ flow = .call target behind := by
  cases flow <;> try contradiction
  case branch target next =>
    obtain rfl := Option.some.inj falls
    exact ⟨target, .inl rfl⟩
  case call target next =>
    obtain rfl := Option.some.inj falls
    exact ⟨target, .inr rfl⟩

namespace Opcode

/-- The operations that go on behind themselves or at an address that they name. -/
def forking : List Mnemonic := [.jsr, .bcc, .bcs, .beq, .bmi, .bne, .bpl, .bvc, .bvs]

/-- What the table says of the branches, which alone are relative, and of the call. -/
theorem forking_of_mem_table : ∀ op ∈ table.toList,
    (op.mode = .relative → op.mnemonic ≠ .jsr) ∧
      (op.mode = .relative ∨ op.mnemonic = .jsr →
        op.mnemonic ∈ forking ∧ op.mode.isIndirect = false) := by
  decide +kernel

/-- The documentation lists the branches and the call, no setting is about them, and they store
nothing. -/
theorem harmless_of_forking : ∀ mnemonic ∈ forking, mnemonic.isDocumented = true ∧
    (∀ other ∈ [Mnemonic.nop, .sbc, .brk, .clv, .sed], mnemonic ≠ other) ∧
      mnemonic.isStore = false ∧ mnemonic.isModify = false := by
  decide

variable {opcode : Opcode}

/-- Every operation stands in the table. -/
theorem operation_mem_table (opcode : Opcode) : opcode.operation ∈ table.toList :=
  Array.mem_toList_iff.mpr (Array.getElem_mem _)

/-- The call is no branch. -/
theorem mnemonic_ne_jsr_of_isBranch (branch : opcode.isBranch = true) : opcode.mnemonic ≠ .jsr :=
  (forking_of_mem_table _ opcode.operation_mem_table).1 (of_decide_eq_true branch)

/-- A branch or a call is one of the operations that fork, and has no pointer. -/
theorem mnemonic_mem_forking (forks : opcode.isBranch = true ∨ opcode.mnemonic = .jsr) :
    opcode.mnemonic ∈ forking ∧ opcode.mode.isIndirect = false :=
  (forking_of_mem_table _ opcode.operation_mem_table).2 (forks.imp_left of_decide_eq_true)

/-- The documentation lists the opcodes of the branches and of the call. -/
theorem isDocumented_of_forking (forks : opcode.mnemonic ∈ forking) :
    opcode.isDocumented = true := by
  obtain ⟨documented, differs, _⟩ := harmless_of_forking _ forks
  have listed : opcode ≠ 0xEB := by
    rintro rfl
    exact differs .sbc (by decide) (by decide)
  unfold isDocumented
  simp [documented, differs .nop (by decide), listed]

/-- A branch or a call reads nothing from memory. -/
theorem reads_of_forks (forks : opcode.isBranch = true ∨ opcode.mnemonic = .jsr) :
    opcode.reads = false := by
  unfold reads
  rcases forks with branch | call
  · have relative : opcode.mode = .relative := of_decide_eq_true branch
    rw [relative]
    rfl
  · rw [call]
    exact Bool.and_false _

/-- A branch or a call writes nothing to memory. -/
theorem writes_of_forks (forks : opcode.isBranch = true ∨ opcode.mnemonic = .jsr) :
    opcode.writes = false := by
  obtain ⟨_, _, unstored, unmodified⟩ := harmless_of_forking _ (mnemonic_mem_forking forks).1
  unfold writes
  rw [unstored, unmodified]
  exact Bool.and_false _

/-- A call transfers control. -/
theorem isFlow_of_call (call : opcode.mnemonic = .jsr) : opcode.isFlow = true := by
  unfold isFlow
  rw [call]

/-- A branch transfers control. -/
theorem isFlow_of_isBranch (branch : opcode.isBranch = true) : opcode.isFlow = true := by
  unfold isFlow
  rw [branch]
  cases opcode.mnemonic <;> rfl

end Opcode

namespace Instruction

variable {insn : Instruction}

/-- Execution goes on behind an instruction alone when it transfers control nowhere. -/
theorem flow_eq_next_iff : insn.flow = .next ↔ insn.opcode.isFlow = false := by
  unfold flow Opcode.isFlow mnemonic
  cases branch : insn.opcode.isBranch with
  | true => cases insn.opcode.mnemonic <;> simp
  | false =>
    cases insn.opcode.mnemonic <;> simp
    split <;> simp

/-- A branch goes on at the wrapped sum of the address behind it and its offset, and behind it. -/
theorem flow_of_isBranch (branch : insn.opcode.isBranch = true) :
    insn.flow = .branch (wrapAddress (insn.endAddress + signedByte insn.operand))
      (wrapAddress insn.endAddress) := by
  unfold flow
  rw [if_pos branch]

/-- Only branches branch. -/
theorem isBranch_of_flow {target behind : Int} (flow : insn.flow = .branch target behind) :
    insn.opcode.isBranch = true := by
  by_contra other
  unfold Instruction.flow at flow
  rw [if_neg other] at flow
  cases mnemonic : insn.mnemonic <;> rw [mnemonic] at flow <;> try contradiction
  dsimp only at flow
  split at flow <;> contradiction

/-- What a branch or a call goes on with behind itself is the wrapped address there. -/
theorem behind_of_fallThrough? {behind : Int} (falls : insn.flow.fallThrough? = some behind) :
    behind = wrapAddress insn.endAddress := by
  unfold flow at falls
  split at falls
  · exact (Option.some.inj falls).symm
  · split at falls <;> try contradiction
    · exact (Option.some.inj falls).symm
    · split at falls <;> contradiction

/-- Only a call calls. -/
theorem mnemonic_of_flow {target behind : Int} (flow : insn.flow = .call target behind) :
    insn.mnemonic = .jsr ∧ insn.opcode.isBranch = false := by
  unfold Instruction.flow at flow
  split at flow
  · contradiction
  · rename_i other
    split at flow <;> try contradiction
    · rename_i call
      exact ⟨call, Bool.eq_false_iff.mpr other⟩
    · split at flow <;> contradiction

/-- A branch has one operand byte. -/
theorem operandBytes_of_isBranch (branch : insn.opcode.isBranch = true) :
    ∃ offset, insn.operandBytes = [offset] ∧ insn.operand = offset.toNat := by
  have relative : insn.opcode.mode = .relative := of_decide_eq_true branch
  have single : insn.operandBytes.length = 1 := by
    rw [insn.complete, relative]
    rfl
  obtain ⟨offset, only⟩ := List.length_eq_one_iff.mp single
  refine ⟨offset, only, ?_⟩
  unfold operand
  rw [only]
  simp [littleEndian]

/-- A branch is two bytes long. -/
theorem length_of_isBranch (branch : insn.opcode.isBranch = true) : insn.length = 2 := by
  have relative : insn.opcode.mode = .relative := of_decide_eq_true branch
  unfold length Opcode.length
  rw [relative]
  rfl

/-- A byte read as a number from -128 to 127 is its value as a signed byte. -/
theorem signedByte_toNat (byte : UInt8) : signedByte byte.toNat = byte.toInt8.toInt := by
  have below := byte.toNat_lt
  have signed : byte.toInt8.toInt =
      if 2 * byte.toNat < 2 ^ 8 then (byte.toNat : Int) else byte.toNat - (2 ^ 8 : Nat) :=
    BitVec.toInt_eq_toNat_cond byte.toBitVec
  rw [signed]
  unfold signedByte
  split <;> split <;> omega

end Instruction

end BankTrace
