import BankTrace.Proofs.Cdl.Sizes
import BankTrace.Proofs.MemoryMap.Filled
import BankTrace.Proofs.Trace.Visit
import BankTrace.Trace.Analysis

/-!
# Contests

In a contest the banks of one name are filled with an instruction that is believed and leads
nowhere, and all others with one that is not believed. Nothing has been read from the log and
everything is permitted, so that what a visit finds depends on the bank alone.
-/

namespace BankTrace

namespace Analyzer

/-- No interrupt is followed, and where an instruction stands does not count. -/
def bareSettings : Settings :=
  { useNmi := false, useReset := false, useIrq := false, checkOperandAccess := false
    checkFallthrough := false }

/-- The analysis of the banks of a set when those of one name are filled with `rts` and all others
with `brk`, which is not believed. -/
def contest (set : BankSet) (name : String) : Analyzer where
  space := .unrestricted
  banks := set.filled fun b => if b.name = name then 0x60 else 0x00
  settings := bareSettings
  order := .fifo

section

variable {set : BankSet} {name : String} {snapshot : Snapshot} {map : MemoryMap} {log : Cdl.Store}
  {l : Location}

/-- In a contest every location of a mapped bank is a candidate. -/
theorem candidate_of_contest (unread : ∀ p, log.loadedAt p = 0)
    (valid : MemoryMap.ofSnapshot (contest set name).banks snapshot = .ok map)
    (member : l.bank ∈ map.active) :
    ((contest set name).scene map log []).candidate? l.address = some l := by
  have filled := BankSet.eq_filled_of_mem (MemoryMap.mem_banks_of_mem_active valid member)
  refine Scene.candidate?_eq_some_iff.mpr ⟨MemoryMap.resolve_address member, ?_, ?_, ?_⟩
  · rw [filled]
    rfl
  · show (AddressSpace.unrestricted.permissionAt l.address).executable = true
    rw [AddressSpace.permissionAt_unrestricted l.address_lt]
  · show Scene.isKnownData (log.loadedAt l.position) = false
    rw [unread]
    decide

/-- In a contest the instruction `rts` is accepted in the bank that is filled with it. -/
theorem accepts_of_contest (unread : ∀ p, log.loadedAt p = 0)
    (valid : MemoryMap.ofSnapshot (contest set name).banks snapshot = .ok map)
    (member : l.bank ∈ map.active) (named : l.bank.name = name) :
    ((contest set name).scene map log []).Accepts l.address l ⟨l.address, 0x60, [], by decide⟩ := by
  have filled := BankSet.eq_filled_of_mem (MemoryMap.mem_banks_of_mem_active valid member)
  rw [if_pos named] at filled
  have candidate := candidate_of_contest unread valid member
  obtain ⟨resolved, analyzable, executable, notData⟩ := Scene.candidate?_eq_some_iff.mp candidate
  obtain ⟨rest, bytes⟩ := Location.bytes_of_filled filled
  have one : Opcode.length 0x60 = 1 := by decide
  have below := l.address_lt
  refine ⟨resolved, analyzable, executable, notData, ?_, .inr ?_⟩
  · rw [Instruction.decode_eq_ok_iff, bytes]
    refine ⟨rfl, ⟨rest, rfl⟩, AddressSpace.allExecutable_eq_true_iff.mpr ?_⟩
    refine ⟨Int.natCast_nonneg _, ?_, ?_⟩
    · unfold Instruction.length
      rw [one]
      omega
    · intro i small
      unfold Instruction.length at small
      rw [one] at small
      rw [show i = 0 by omega, Int.natCast_zero, Int.add_zero]
      exact executable
  · rfl

/-- In a contest nothing is believed in the other banks. -/
theorem unbelieved_of_contest
    (valid : MemoryMap.ofSnapshot (contest set name).banks snapshot = .ok map)
    (member : l.bank ∈ map.active) (named : l.bank.name ≠ name) (addr : Int) :
    (((contest set name).scene map log []).inspect addr l).accepted? = none := by
  have filled := BankSet.eq_filled_of_mem (MemoryMap.mem_banks_of_mem_active valid member)
  rw [if_neg named] at filled
  obtain ⟨rest, bytes⟩ := Location.bytes_of_filled filled
  rw [Option.eq_none_iff_forall_ne_some]
  intro insn accepted
  obtain ⟨found, _, _, outcome⟩ := Outcome.accepted?_eq_some_iff.mp accepted
  obtain ⟨_, _, decoded, believed⟩ := Scene.inspect_eq_accepted_iff.mp outcome
  have opcode : insn.opcode = 0x00 := by
    have front := (Instruction.decode_eq_ok_iff.mp decoded).2.1
    rw [bytes] at front
    exact (List.cons_prefix_cons.mp front).1
  have brk : insn.mnemonic = .brk := by
    unfold Instruction.mnemonic
    rw [opcode]
    decide
  rcases Scene.refusal?_eq_none_iff.mp believed with trusted | unopposed
  · unfold scene at trusted
    rw [Registry.contains_ofList] at trusted
    contradiction
  · unfold Policy.check Policy.refusedAlone at unopposed
    rw [if_pos ⟨brk, rfl⟩] at unopposed
    contradiction

end

/-! ## A single bank -/

/-- A fixed bank of two bytes. -/
def soleBank : Bank where
  name := "P"
  start := 0x8000
  size := 2
  file := ⟨.relative, ["image"]⟩
  cdl := ⟨.relative, ["log"]⟩
  fileOffset := 0
  cdlOffset := 0
  fixed := true
  name_ne := by decide
  size_power := ⟨1, rfl⟩
  size_dvd := by decide
  end_le := by decide

/-- The layout of the bank alone. -/
def soleSet : BankSet := ⟨[⟨soleBank, none⟩], rfl⟩

/-- The map of the bank, filled with the instruction that is believed. -/
def soleMap : MemoryMap := ⟨[.filled soleBank 0x60], List.pairwise_singleton _ _⟩

/-- The store that is made for the bank. -/
def soleLog : Cdl.Store := { files := [(soleBank.cdl, Cdl.File.blank 2)] }

/-- The analysis of the bank. -/
def sole : Analyzer := contest soleSet "P"

/-- The bank is mapped without any selection. -/
theorem ofSnapshot_sole : MemoryMap.ofSnapshot sole.banks {} = .ok soleMap := rfl

/-- The store covers the bank. -/
theorem forBanks_sole :
    Cdl.Store.forBanks Platform.standard.memory sole.banks.declared = .ok soleLog := rfl

/-- The store is one that was made for the bank. -/
theorem madeFor_sole : soleLog.MadeFor sole.banks.declared := ⟨_, soleLog, forBanks_sole, rfl⟩

/-- The instruction at the first byte of the bank. -/
def soleInstruction : Instruction := ⟨0x8000, 0x60, [], by decide⟩

/-- The first byte of the bank. -/
def soleStart : Location := ⟨.filled soleBank 0x60, ⟨0, by decide⟩⟩

/-- The instruction is accepted. -/
theorem accepts_sole : (sole.scene soleMap soleLog []).Accepts 0x8000 soleStart soleInstruction :=
  accepts_of_contest (Cdl.Store.loadedAt_of_forBanks forBanks_sole) ofSnapshot_sole
    (l := soleStart) List.mem_cons_self rfl

end Analyzer

end BankTrace
