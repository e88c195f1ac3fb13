import BankTrace.Proofs.Trace.Exactness
import BankTrace.Proofs.Trace.Repetition

/-!
# Known data

A byte of the log that was read as data and not as code is never the first byte of a believed
instruction. It can be an operand byte of one, and then it is marked as code like all bytes of the
encoding; there is no other way for a run to make it code.
-/

namespace BankTrace

/-- The byte of the log at a position belongs to an operand byte of the instruction. -/
def Instruction.HasOperandAt (insn : Instruction) (map : MemoryMap) (p : Cdl.Position) : Prop :=
  ∃ i, 0 < i ∧ i < insn.length ∧ ∃ l, map.resolve (insn.address + i) = some l ∧ l.position = p

/-- The bytes of an instruction are its first byte and its operand bytes. -/
theorem MemoryMap.covers_length_iff {map : MemoryMap} {insn : Instruction} {p : Cdl.Position} :
    map.Covers insn.address insn.length p ↔
      (∃ l, map.resolve insn.address = some l ∧ l.position = p) ∨ insn.HasOperandAt map p := by
  constructor
  · rintro ⟨i, inside, l, found, position⟩
    by_cases first : i = 0
    · subst first
      rw [Int.natCast_zero, Int.add_zero] at found
      exact .inl ⟨l, found, position⟩
    · exact .inr ⟨i, by omega, inside, l, found, position⟩
  · rintro (⟨l, found, rfl⟩ | ⟨i, _, inside, found⟩)
    · exact covers_of_resolve found
    · exact ⟨i, inside, found⟩

namespace Analyzer

/-- No believed instruction starts at a byte that is known to be data. -/
theorem Ran.position_ne_of_isKnownData {a : Analyzer} {before after : Analysis}
    {snapshot : Snapshot} {map : MemoryMap} {entries loaded : List Int} {t : Traversal}
    (ran : a.Ran before snapshot map entries loaded t after) {p : Cdl.Position}
    (known : Scene.isKnownData (before.store.loadedAt p) = true) {insn : Instruction}
    (member : insn ∈ t.believed) {l : Location} (found : map.resolve insn.address = some l) :
    l.position ≠ p := by
  rintro rfl
  obtain ⟨m, accepted⟩ := ran.consistent.exists_accepts member
  have same : m = l := Option.some.inj (accepted.resolved.symm.trans found)
  subst same
  have notData := accepted.notData
  rw [show (a.scene map before.store loaded).log = before.store from rfl, known] at notData
  contradiction

/-- A run does not make a byte code that is known to be data, unless it believes an instruction that
starts in front of the byte and has it as an operand byte. -/
theorem run_code_of_isKnownData (a : Analyzer) (before : Analysis) (snapshot : Snapshot)
    (map : MemoryMap) (made : before.store.MadeFor a.banks.declared)
    (valid : MemoryMap.ofSnapshot a.banks snapshot = .ok map) (entries : List Int) (workers : Int)
    (staffed : 1 ≤ workers) (limit : Option Int) (p : Cdl.Position) (present : before.store.Has p)
    (known : Scene.isKnownData (before.store.loadedAt p) = true)
    (unmarked : Cdl.hasAny Cdl.code (before.store.byteAt p) = false) :
    ∃ result, (a.run before snapshot entries workers limit).result = .ok result ∧
      (∀ insn ∈ result.instructions, ∀ l, map.resolve insn.address = some l → l.position ≠ p) ∧
      (Cdl.hasAny Cdl.code
          ((a.run before snapshot entries workers limit).analysis.store.byteAt p) = true ↔
        ∃ insn ∈ result.instructions, insn.HasOperandAt map p) := by
  obtain ⟨loaded, t, result, ran, answer, visits, _⟩ :=
    a.exists_ran made valid entries staffed limit
  have believed := Traversal.instructions_eq_believed visits
  have apart : ∀ insn ∈ t.believed, ∀ l, map.resolve insn.address = some l → l.position ≠ p :=
    fun _ member _ found => ran.position_ne_of_isKnownData known member found
  refine ⟨result, answer, ?_, ?_⟩
  · rw [believed]
    exact apart
  · rw [ran.code_iff present, unmarked, believed]
    simp only [Bool.false_eq_true, false_or]
    constructor
    · rintro ⟨insn, member, covered⟩
      rcases MemoryMap.covers_length_iff.mp covered with ⟨l, found, position⟩ | operand
      · exact absurd position (apart insn member l found)
      · exact ⟨insn, member, operand⟩
    · rintro ⟨insn, member, operand⟩
      exact ⟨insn, member, MemoryMap.covers_length_iff.mpr (.inr operand)⟩

/-- The log of the bank of jumps when its second byte was read as data. -/
def dataLog : Cdl.Store := { files := [(jumpBank.cdl, (Cdl.File.blank 8).load #[0, 2])] }

/-- The log is one that was made for the bank. -/
theorem madeFor_dataLog : dataLog.MadeFor jumps.banks.declared := ⟨_, jumpLog, forBanks_jumps, rfl⟩

/-- A run from the first byte marks the second one as code. -/
theorem code_dataLog :
    Cdl.hasAny Cdl.code ((jumps.run { store := dataLog } {} [0x8000] 1 none).analysis.store.byteAt
      (jumpAt 1).position) = true := by
  have made : ({ store := dataLog } : Analysis).store.MadeFor jumps.banks.declared :=
    madeFor_dataLog
  obtain ⟨loaded, t, _, ran, _, _, complete⟩ :=
    jumps.exists_ran made ofSnapshot_jumps [0x8000] (Int.le_refl 1) none
  have accepted : (jumps.scene jumpMap dataLog loaded).Accepts (jumpAt 0).address (jumpAt 0)
      (repeated 0x4C 0x8000) := accepts_jumps (by decide) (by decide)
  have member : repeated 0x4C 0x8000 ∈ t.believed :=
    ran.believed_of_entry distinctPositions_jumps (complete rfl) List.mem_cons_self accepted
  have present : dataLog.Has (jumpAt 1).position := ⟨8, rfl, by decide, by decide⟩
  have covered : jumpMap.Covers (jumpAt 0).address 3 (jumpAt 1).position :=
    (covers_jump_iff (by decide)).mpr (by decide)
  exact (ran.code_iff present).mpr (.inr ⟨_, member, covered⟩)

/-- The second byte of a believed jump becomes code although it is known to be data. -/
theorem jumps_over_knownData :
    dataLog.MadeFor jumps.banks.declared ∧
      MemoryMap.ofSnapshot jumps.banks {} = .ok jumpMap ∧ jumpMap.DistinctPositions ∧
        Scene.isKnownData (dataLog.loadedAt (jumpAt 1).position) = true ∧
          Cdl.hasAny Cdl.code (dataLog.byteAt (jumpAt 1).position) = false ∧
            Cdl.hasAny Cdl.code ((jumps.run { store := dataLog } {} [0x8000] 1
              none).analysis.store.byteAt (jumpAt 1).position) = true :=
  ⟨madeFor_dataLog, ofSnapshot_jumps, distinctPositions_jumps, by decide, by decide, code_dataLog⟩

/-- The byte is known to be data, and an instruction of the run has it as an operand byte. -/
theorem run_code_of_isKnownData_jumps :
    Scene.isKnownData (dataLog.loadedAt (jumpAt 1).position) = true ∧
      ∃ result, (jumps.run { store := dataLog } {} [0x8000] 1 none).result = .ok result ∧
        ∃ insn ∈ result.instructions, insn.HasOperandAt jumpMap (jumpAt 1).position := by
  have known : Scene.isKnownData (dataLog.loadedAt (jumpAt 1).position) = true := by decide
  obtain ⟨result, answer, _, marked⟩ := run_code_of_isKnownData jumps { store := dataLog } {}
    jumpMap madeFor_dataLog ofSnapshot_jumps [0x8000] 1 (Int.le_refl 1) none (jumpAt 1).position
    ⟨8, rfl, by decide, by decide⟩ known (by decide)
  exact ⟨known, result, answer, marked.mp code_dataLog⟩

end Analyzer

end BankTrace
