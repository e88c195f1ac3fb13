import BankTrace.Proofs.Trace.Belief
import BankTrace.Proofs.Trace.Run

/-!
# What a run marks

A run marks as code the bytes of the instructions that it believed, all of them and nothing else,
and as data the two bytes of every vector whose word can be read. The other bits of the log and the
sizes of its files stay as they are.
-/

namespace BankTrace

/-- A position belongs to one of the addresses of a stretch. -/
def MemoryMap.Covers (map : MemoryMap) (addr : Int) (count : Nat) (p : Cdl.Position) : Prop :=
  ∃ i < count, ∃ l, map.resolve (addr + i) = some l ∧ l.position = p

/-- The positions of a stretch inside a bank are those from its first one on. -/
theorem MemoryMap.covers_iff {map : MemoryMap} {addr : Int} {l : Location} {count : Nat}
    (found : map.resolve addr = some l) (inside : l.offset + count ≤ l.bank.size)
    {p : Cdl.Position} (start : 0 ≤ p.offset) (bits : Cdl.Mask) :
    map.Covers addr count p ↔ (⟨l.position, count, bits⟩ : Cdl.Mark).Reaches p := by
  obtain ⟨file, offset⟩ := p
  unfold Covers Cdl.Mark.Reaches Location.position
  dsimp only at start ⊢
  constructor
  · rintro ⟨i, bound, m, at_i, position⟩
    rw [resolve_add found (by omega), Option.some_inj] at at_i
    subst at_i
    obtain ⟨files, offsets⟩ := Cdl.Position.mk.inj position
    dsimp only at files offsets
    exact ⟨files.symm, by omega, by omega⟩
  · rintro ⟨rfl, lower, upper⟩
    refine ⟨offset.toNat - (l.bank.cdlOffset + l.offset), by omega, _,
      resolve_add found (by omega), ?_⟩
    simp only [Cdl.Position.mk.injEq, true_and]
    omega

/-- A mark of one byte at a location reaches its position alone. -/
theorem Location.reaches_iff (l : Location) {p : Cdl.Position} (start : 0 ≤ p.offset)
    (bits : Cdl.Mask) : (⟨l.position, 1, bits⟩ : Cdl.Mark).Reaches p ↔ l.position = p := by
  obtain ⟨file, offset⟩ := p
  unfold Cdl.Mark.Reaches position
  simp only [Cdl.Position.mk.injEq] at start ⊢
  constructor
  · rintro ⟨rfl, lower, upper⟩
    exact ⟨rfl, by omega⟩
  · rintro ⟨rfl, rfl⟩
    exact ⟨rfl, by omega, by omega⟩

/-- The first byte of an instruction is one of its bytes. -/
theorem MemoryMap.covers_of_resolve {map : MemoryMap} {insn : Instruction} {l : Location}
    (found : map.resolve insn.address = some l) :
    map.Covers insn.address insn.length l.position := by
  refine ⟨0, insn.length_pos, l, ?_, rfl⟩
  rw [Int.natCast_zero, Int.add_zero]
  exact found

/-- The two bytes of a readable vector lie in one bank with an image. -/
theorem MemoryMap.isAnalyzable_of_readWord {map : MemoryMap} {addr : Int} {word : Nat}
    (read : map.readWord addr = some word) {i : Nat} (bound : i < 2) {l : Location}
    (found : map.resolve (addr + i) = some l) : l.bank.isAnalyzable = true := by
  unfold readWord at read
  rw [Option.bind_eq_some_iff] at read
  obtain ⟨low, first, word⟩ := read
  unfold Location.word? at word
  cases image : low.bank.image with
  | none =>
    rw [image] at word
    contradiction
  | some bytes =>
    rw [image] at word
    dsimp only at word
    split at word
    case isFalse => contradiction
    case isTrue inside =>
      have here := resolve_add first (i := i) (by omega)
      have same := here.symm.trans found
      rw [← Option.some.inj same]
      unfold LoadedBank.isAnalyzable
      rw [image]
      rfl

namespace Analyzer

/-- The bytes that a visit marks are those of the instruction that it accepted. -/
theorem codeMark?_eq_some_iff {o : Outcome} {stretch : Cdl.Position × Nat} :
    codeMark? o = some stretch ↔ ∃ location insn warnings successors,
      o = .accepted location insn warnings successors ∧
        stretch = (location.position, insn.length) := by
  constructor
  · intro marked
    cases o with
    | accepted location insn warnings successors =>
      exact ⟨location, insn, warnings, successors, rfl, (Option.some.inj marked).symm⟩
    | discarded => contradiction
    | skipped => contradiction
    | undecodable => contradiction
    | refused => contradiction
  · rintro ⟨location, insn, warnings, successors, rfl, rfl⟩
    rfl

/-- The marks as code are those on the bytes of believed instructions. -/
theorem mem_codeMarks {scene : Scene} {starts : List Int} {t : Traversal}
    (consistent : Traversal.Consistent scene starts t) {m : Cdl.Mark} :
    m ∈ codeMarks t.outcomes ↔ ∃ insn ∈ t.believed, ∃ location,
      scene.Accepts insn.address location insn ∧
        m = ⟨location.position, insn.length, Cdl.code⟩ := by
  have listed : m ∈ codeMarks t.outcomes ↔ ∃ v ∈ t.visits, ∃ location insn warnings successors,
      v.outcome = .accepted location insn warnings successors ∧
        m = ⟨location.position, insn.length, Cdl.code⟩ := by
    unfold codeMarks Traversal.outcomes
    simp only [List.mem_map, List.mem_filterMap, List.mem_reverse, codeMark?_eq_some_iff]
    constructor
    · rintro ⟨_, ⟨_, ⟨v, visited, rfl⟩, location, insn, warnings, successors, outcome, rfl⟩, rfl⟩
      exact ⟨v, visited, location, insn, warnings, successors, outcome, rfl⟩
    · rintro ⟨v, visited, location, insn, warnings, successors, outcome, rfl⟩
      exact ⟨_, ⟨_, ⟨v, visited, rfl⟩, location, insn, warnings, successors, outcome, rfl⟩, rfl⟩
  rw [listed]
  constructor
  · rintro ⟨v, visited, location, insn, _, _, outcome, rfl⟩
    refine ⟨insn, Traversal.mem_believed.mpr ⟨v, visited, _, _, _, outcome⟩, location, ?_, rfl⟩
    exact (consistent.accepts visited outcome).2
  · rintro ⟨insn, member, location, accepted, rfl⟩
    obtain ⟨v, visited, place, warnings, successors, outcome⟩ := Traversal.mem_believed.mp member
    have here := (consistent.accepts visited outcome).2
    obtain ⟨rfl, _⟩ := here.unique accepted
    exact ⟨v, visited, _, _, _, _, outcome, rfl⟩

/-- The marks as data are those on the vectors of handlers. -/
theorem mem_vectorMarks {map : MemoryMap} {handlers : List (Interrupt × Nat)} {m : Cdl.Mark} :
    m ∈ vectorMarks map handlers ↔ ∃ interrupt handler, (interrupt, handler) ∈ handlers ∧
      ∃ l ∈ map.vectorLocations interrupt, m = ⟨l.position, 1, Cdl.data⟩ := by
  unfold vectorMarks
  simp only [List.mem_flatMap, List.mem_map, Prod.exists]
  constructor
  · rintro ⟨interrupt, handler, member, l, place, rfl⟩
    exact ⟨interrupt, handler, member, l, place, rfl⟩
  · rintro ⟨interrupt, handler, member, l, place, rfl⟩
    exact ⟨interrupt, handler, member, l, place, rfl⟩

section

variable {a : Analyzer} {before after : Analysis} {snapshot : Snapshot} {map : MemoryMap}
  {entries loaded : List Int} {t : Traversal} {p : Cdl.Position}

/-- Behind a run the code bits are those before and those of the bytes of believed instructions. -/
theorem Ran.code_iff (ran : a.Ran before snapshot map entries loaded t after)
    (present : before.store.Has p) :
    Cdl.hasAny Cdl.code (after.store.byteAt p) = true ↔
      Cdl.hasAny Cdl.code (before.store.byteAt p) = true ∨
        ∃ insn ∈ t.believed, map.Covers insn.address insn.length p := by
  have start := present.offset_nonneg
  rw [ran.byteAt_eq present, Cdl.hasAny_or, Bool.or_eq_true, Cdl.Mark.hasAny_bitsAt]
  refine or_congr_right ?_
  simp only [List.mem_append, mem_codeMarks ran.consistent, mem_vectorMarks]
  constructor
  · rintro ⟨m, vector | instruction, reaches, coded⟩
    · obtain ⟨_, _, _, l, _, rfl⟩ := vector
      have apart : Cdl.hasAny Cdl.code Cdl.data = false := by decide
      exact absurd (apart.symm.trans coded) Bool.false_ne_true
    · obtain ⟨insn, member, location, accepted, rfl⟩ := instruction
      have covers := MemoryMap.covers_iff accepted.resolved accepted.fits start Cdl.code
      exact ⟨insn, member, covers.mpr reaches⟩
  · rintro ⟨insn, member, covered⟩
    obtain ⟨location, accepted⟩ := ran.consistent.exists_accepts member
    have covers := MemoryMap.covers_iff accepted.resolved accepted.fits start Cdl.code
    have self : Cdl.hasAny Cdl.code Cdl.code = true := by decide
    exact ⟨_, .inr ⟨insn, member, location, accepted, rfl⟩, covers.mp covered, self⟩

/-- Behind a run the data bits are those before and those of the bytes of readable vectors. -/
theorem Ran.data_iff (ran : a.Ran before snapshot map entries loaded t after)
    (present : before.store.Has p) :
    Cdl.hasAny Cdl.data (after.store.byteAt p) = true ↔
      Cdl.hasAny Cdl.data (before.store.byteAt p) = true ∨
        ∃ interrupt ∈ Interrupt.enabled a.settings,
          (map.readWord interrupt.vector).isSome = true ∧ map.Covers interrupt.vector 2 p := by
  have start := present.offset_nonneg
  rw [ran.byteAt_eq present, Cdl.hasAny_or, Bool.or_eq_true, Cdl.Mark.hasAny_bitsAt]
  refine or_congr_right ?_
  simp only [List.mem_append, mem_codeMarks ran.consistent, mem_vectorMarks]
  constructor
  · rintro ⟨m, vector | instruction, reaches, marked⟩
    · obtain ⟨interrupt, handler, member, l, place, rfl⟩ := vector
      obtain ⟨enabled, read⟩ := MemoryMap.mem_handlers.mp member
      obtain ⟨⟨i, bound, found⟩, _⟩ := MemoryMap.mem_vectorLocations.mp place
      refine ⟨interrupt, enabled, ?_, i, bound, l, found, (l.reaches_iff start Cdl.data).mp reaches⟩
      rw [read]
      rfl
    · obtain ⟨_, _, _, _, rfl⟩ := instruction
      have apart : Cdl.hasAny Cdl.data Cdl.code = false := by decide
      exact absurd (apart.symm.trans marked) Bool.false_ne_true
  · rintro ⟨interrupt, enabled, readable, i, bound, l, found, position⟩
    obtain ⟨handler, read⟩ := Option.isSome_iff_exists.mp readable
    have place : l ∈ map.vectorLocations interrupt := MemoryMap.mem_vectorLocations.mpr
      ⟨⟨i, bound, found⟩, MemoryMap.isAnalyzable_of_readWord read bound found⟩
    have member := MemoryMap.mem_handlers.mpr ⟨enabled, read⟩
    have self : Cdl.hasAny Cdl.data Cdl.data = true := by decide
    have reaches := (l.reaches_iff start Cdl.data).mpr position
    exact ⟨_, .inl ⟨interrupt, handler, member, l, place, rfl⟩, reaches, self⟩

/-- A run leaves the bits alone that mean neither code nor data. -/
theorem Ran.other_bits (ran : a.Ran before snapshot map entries loaded t after)
    (present : before.store.Has p) :
    after.store.byteAt p &&& 0xFC = before.store.byteAt p &&& 0xFC := by
  have zero : Cdl.Mark.bitsAt
      (vectorMarks map (a.handlersIn map) ++ codeMarks t.outcomes) p &&& 0xFC = 0 := by
    apply Cdl.Mark.bitsAt_and_eq_zero
    intro m member
    rcases List.mem_append.mp member with vector | instruction
    · obtain ⟨_, _, _, l, _, rfl⟩ := mem_vectorMarks.mp vector
      have apart : Cdl.data &&& 0xFC = 0 := by decide
      exact apart
    · obtain ⟨_, _, _, _, rfl⟩ := (mem_codeMarks ran.consistent).mp instruction
      have apart : Cdl.code &&& 0xFC = 0 := by decide
      exact apart
  rw [ran.byteAt_eq present, Cdl.and_of_or, zero, UInt8.or_zero]

/-- A run leaves the sizes of the log files alone. -/
theorem Ran.sizes_eq (ran : a.Ran before snapshot map entries loaded t after) :
    after.store.sizes = before.store.sizes :=
  Cdl.Store.sizes_congr ran.reading_eq

end

end Analyzer

end BankTrace
