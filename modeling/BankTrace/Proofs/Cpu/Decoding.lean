import BankTrace.Cpu.Instruction

/-!
# Reading instructions

A stretch of addresses may be executed when it lies in the address space and each of its addresses
may be. With an address space, reading an instruction succeeds exactly when the bytes begin with its
encoding and the whole encoding may be executed; nothing else of the bytes or of the address space
has a say.
-/

namespace BankTrace

namespace AddressSpace

/-- Inside the address space the permission of an address is that of the table. -/
theorem permissionAt_of_lt (space : AddressSpace) {addr : Nat} (inside : addr < 0x10000) :
    space.permissionAt addr = space.table[addr] := by
  have bounds : 0 ≤ (addr : Int) ∧ (addr : Int) < 0x10000 := by omega
  unfold permissionAt permission
  rw [dif_pos bounds]
  rfl

/-- Outside the address space nothing is permitted. -/
theorem permissionAt_of_outside (space : AddressSpace) {addr : Int}
    (outside : ¬(0 ≤ addr ∧ addr < 0x10000)) : space.permissionAt addr = {} := by
  unfold permissionAt permission
  rw [dif_neg outside]
  rfl

/-- What may be executed is an address. -/
theorem bounds_of_executable {space : AddressSpace} {addr : Int}
    (executable : (space.permissionAt addr).executable = true) : 0 ≤ addr ∧ addr < 0x10000 := by
  by_cases inside : 0 ≤ addr ∧ addr < 0x10000
  · exact inside
  · rw [permissionAt_of_outside space inside] at executable
    contradiction

/-- A stretch may be executed when it is inside the address space and each of its addresses may be
executed. -/
theorem allExecutable_eq_true_iff {space : AddressSpace} {addr : Int} {count : Nat} :
    space.allExecutable addr count = true ↔
      0 ≤ addr ∧ addr + count ≤ 0x10000 ∧
        ∀ i < count, (space.permissionAt (addr + i)).executable = true := by
  unfold allExecutable addressCount
  by_cases outside : addr < 0 ∨ addr + (count : Int) > (0x10000 : Nat)
  · rw [if_pos outside]
    constructor
    · intro absurdity
      contradiction
    · rintro ⟨start, stop, _⟩
      omega
  · rw [if_neg outside]
    obtain ⟨first, rfl⟩ : ∃ first : Nat, addr = first := ⟨addr.toNat, by omega⟩
    have bound : first + count ≤ 0x10000 := by omega
    have size : space.table.toArray.size = 0x10000 := space.table.size_toArray
    have slice : Slice.between space.table.toArray first ((first : Int) + count) =
        space.table.toArray.extract first (first + count) := by
      unfold Slice.between
      rw [show (first : Int) + count = ((first + count : Nat) : Int) from rfl, size,
        Slice.position_of_le (by omega), Slice.position_of_le bound]
    rw [slice, Array.all_eq_true]
    have length : (space.table.toArray.extract first (first + count)).size = count := by
      rw [Array.size_extract, size]
      omega
    constructor
    · intro all
      refine ⟨by omega, by omega, ?_⟩
      intro i small
      have here := all i (by omega)
      rw [Array.getElem_extract] at here
      rw [show (first : Int) + i = ((first + i : Nat) : Int) from rfl,
        permissionAt_of_lt space (by omega)]
      exact here
    · rintro ⟨_, _, all⟩ i small
      have here := all i (by omega)
      rw [show (first : Int) + i = ((first + i : Nat) : Int) from rfl,
        permissionAt_of_lt space (by omega)] at here
      rw [Array.getElem_extract]
      exact here

end AddressSpace

namespace Instruction

/-- No instruction is empty. -/
theorem length_pos (insn : Instruction) : 0 < insn.length := insn.opcode.length_pos

/-- An instruction may start where its address may be executed. -/
theorem mayStart_of_executable {space : AddressSpace} {addr : Int}
    (executable : (space.permissionAt addr).executable = true) :
    mayStart (some space) addr = .ok true := by
  unfold AddressSpace.permissionAt at executable
  unfold mayStart AddressSpace.isExecutable
  cases known : space.permission addr with
  | error e => simp [known, Except.toOption] at executable
  | ok p =>
    simp only [known, Except.toOption, Option.getD_some] at executable
    simp only [known, Except.map, executable]

/-- An instruction is read at an address exactly when the bytes begin with its encoding and all of
the encoding may be executed. -/
theorem decode_eq_ok_iff {bytes : List UInt8} {addr : Int} {space : AddressSpace}
    {insn : Instruction} :
    decode bytes addr (some space) = .ok insn ↔
      insn.address = addr ∧ insn.bytes <+: bytes ∧
        space.allExecutable addr insn.length = true := by
  constructor
  · intro read
    cases bytes with
    | nil => contradiction
    | cons byte rest =>
      unfold decode at read
      dsimp only at read
      split at read
      · contradiction
      · contradiction
      · split at read
        · contradiction
        · split at read
          · contradiction
          · rename_i allowed
            split at read
            · obtain rfl := Except.ok.inj read
              refine ⟨rfl, ?_, ?_⟩
              · exact List.cons_prefix_cons.mpr ⟨rfl, List.take_prefix ..⟩
              · simpa [mayExecute, length] using allowed
            · contradiction
  · rintro ⟨rfl, ⟨behind, rfl⟩, allowed⟩
    obtain ⟨start, stop, each⟩ := AddressSpace.allExecutable_eq_true_iff.mp allowed
    have first := each 0 insn.length_pos
    rw [Int.natCast_zero, Int.add_zero] at first
    have bounds := AddressSpace.bounds_of_executable first
    have may := mayStart_of_executable first
    have top : ¬insn.address + insn.opcode.length > addressCount := by
      unfold addressCount
      unfold length at stop
      omega
    have enough : insn.opcode.mode.operandLength ≤ (insn.operandBytes ++ behind).length := by
      rw [List.length_append, insn.complete]
      omega
    have front : (insn.operandBytes ++ behind).take insn.opcode.mode.operandLength =
        insn.operandBytes := by
      rw [← insn.complete, List.take_left]
    unfold decode bytes
    simp only [List.cons_append, may, top, if_false]
    have all : mayExecute (some space) insn.address insn.opcode.length = true := allowed
    rw [all, dif_pos enough]
    simp only [front]
    rfl

end Instruction

end BankTrace
