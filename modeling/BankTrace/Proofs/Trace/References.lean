import BankTrace.Proofs.Trace.Additions
import BankTrace.Proofs.Trace.Legality
import BankTrace.Proofs.Trace.Recording
import BankTrace.Proofs.Trace.Repetition

/-!
# Data references

An instruction refers to the byte that it reads by an address in its own encoding, and an indirect
jump to the two bytes of its pointer, unless this is at the end of a page. When the journal of an
analysis is gone through, exactly the bytes that its instructions refer to are marked as data, each
resolved under the snapshot that its instruction was recorded with. Nothing else is marked, and a
byte counts once for every instruction and every address that lands there.
-/

namespace BankTrace

/-- An instruction refers to an address. -/
inductive Instruction.Refers (insn : Instruction) : Int → Prop
  /-- It reads its operand at an address that depends neither on a register nor on memory. -/
  | operand (mode : insn.mode = .zeroPage ∨ insn.mode = .absolute)
      (reads : insn.opcode.reads = true) : insn.Refers insn.operand
  /-- It jumps to the address that is stored at its pointer, which is not at the end of a page. -/
  | pointer (jump : insn.mnemonic = .jmp) (mode : insn.mode = .indirect)
      (inner : insn.operand % 0x100 ≠ 0xFF) {i : Nat} (byte : i < 2) :
      insn.Refers (insn.operand + i : Nat)

namespace Instruction

variable {insn : Instruction}

/-- A jump is indirect when its mode is, and then its operand is the pointer. -/
theorem flow_eq_indirectJump_iff {p : Int} :
    insn.flow = .indirectJump p ↔
      (insn.mnemonic = .jmp ∧ insn.mode = .indirect) ∧ (insn.operand : Int) = p := by
  constructor
  · intro indirect
    unfold flow at indirect
    split at indirect
    · contradiction
    · split at indirect
      case h_3 jump =>
        split at indirect
        case isTrue mode => exact ⟨⟨jump, mode⟩, Flow.indirectJump.inj indirect⟩
        case isFalse => contradiction
      all_goals contradiction
  · rintro ⟨⟨jump, mode⟩, rfl⟩
    have straight : insn.opcode.isBranch = false := by
      unfold Opcode.isBranch
      rw [show insn.opcode.mode = .indirect from mode]
      rfl
    unfold flow
    rw [straight, jump, mode]
    rfl

/-- A mode has no operand address unless it is direct. -/
theorem effectiveAddress?_eq_none (direct : ¬(insn.mode = .zeroPage ∨ insn.mode = .absolute)) :
    insn.effectiveAddress? = none := by
  unfold effectiveAddress?
  split
  case h_1 mode => exact absurd (.inl mode) direct
  case h_2 mode => exact absurd (.inr mode) direct
  case h_3 => rfl

end Instruction

namespace Analyzer

section

variable {insn : Instruction}

/-- A direct mode has the operand for its only reference, when that is read. -/
theorem references_of_direct (direct : insn.mode = .zeroPage ∨ insn.mode = .absolute) :
    references insn = if insn.opcode.reads then [(insn.operand : Int)] else [] := by
  have effective : insn.effectiveAddress? = some insn.operand := by
    unfold Instruction.effectiveAddress?
    rcases direct with mode | mode <;> rw [mode]
  unfold references
  rw [effective]

/-- An indirect jump has the bytes of its pointer for references, except at the end of a page. -/
theorem references_of_indirect (jump : insn.mnemonic = .jmp ∧ insn.mode = .indirect) :
    references insn =
      if insn.operand % 0x100 = 0xFF then [] else [(insn.operand : Int), insn.operand + 1] := by
  have other : ¬(insn.mode = .zeroPage ∨ insn.mode = .absolute) := by
    rw [jump.2]
    decide
  have flow : insn.flow = .indirectJump insn.operand :=
    Instruction.flow_eq_indirectJump_iff.mpr ⟨jump, rfl⟩
  unfold references Instruction.pointerWraps
  rw [Instruction.effectiveAddress?_eq_none other, flow, jump.2]
  simp only [decide_eq_true_eq]

/-- Any other instruction has no references. -/
theorem references_of_other (direct : ¬(insn.mode = .zeroPage ∨ insn.mode = .absolute))
    (jump : ¬(insn.mnemonic = .jmp ∧ insn.mode = .indirect)) : references insn = [] := by
  unfold references
  rw [Instruction.effectiveAddress?_eq_none direct]
  split
  case h_1 absurdity => contradiction
  case h_2 pointer _ flow => exact absurd (Instruction.flow_eq_indirectJump_iff.mp flow).1 jump
  case h_3 => rfl

/-- The references of an instruction are the addresses that it refers to. -/
theorem mem_references_iff {addr : Int} : addr ∈ references insn ↔ insn.Refers addr := by
  constructor
  · intro member
    by_cases direct : insn.mode = .zeroPage ∨ insn.mode = .absolute
    · rw [references_of_direct direct] at member
      split at member
      case isTrue reads =>
        rw [List.mem_singleton.mp member]
        exact .operand direct reads
      case isFalse => contradiction
    · by_cases jump : insn.mnemonic = .jmp ∧ insn.mode = .indirect
      · rw [references_of_indirect jump] at member
        split at member
        case isTrue => contradiction
        case isFalse inner =>
          rcases List.mem_pair.mp member with rfl | rfl
          · exact .pointer jump.1 jump.2 inner Nat.zero_lt_two
          · exact .pointer jump.1 jump.2 inner Nat.one_lt_two
      · rw [references_of_other direct jump] at member
        contradiction
  · intro refers
    cases refers with
    | operand mode reads =>
      rw [references_of_direct mode, if_pos reads]
      exact List.mem_singleton_self _
    | @pointer jump mode inner i byte =>
      rw [references_of_indirect ⟨jump, mode⟩, if_neg inner, List.mem_pair]
      omega

/-- An instruction has no reference twice. -/
theorem nodup_references (insn : Instruction) : (references insn).Nodup := by
  by_cases direct : insn.mode = .zeroPage ∨ insn.mode = .absolute
  · rw [references_of_direct direct]
    split
    · exact List.nodup_singleton _
    · exact List.nodup_nil
  · by_cases jump : insn.mnemonic = .jmp ∧ insn.mode = .indirect
    · have apart : (insn.operand : Int) ≠ insn.operand + 1 := by omega
      rw [references_of_indirect jump]
      split
      · exact List.nodup_nil
      · exact List.nodup_cons.mpr ⟨mt List.mem_singleton.mp apart, List.nodup_singleton _⟩
    · rw [references_of_other direct jump]
      exact List.nodup_nil

end

/-! ## Where references land -/

/-- An instruction of the journal refers to an address that lies in a bank with an image. -/
structure Lands (a : Analyzer) (j : Journal) (s : Snapshot) (insn : Instruction) (target : Int)
    (l : Location) : Prop where
  /-- The instruction is recorded under the snapshot. -/
  recorded : (s, insn) ∈ j.entries
  /-- The address is one that it refers to. -/
  refers : insn.Refers target
  /-- The address resolves under the snapshot. -/
  resolved : ∃ map, MemoryMap.ofSnapshot a.banks s = .ok map ∧ map.resolve target = some l
  /-- The bank has an image. -/
  analyzable : l.bank.isAnalyzable = true

/-- The location of an address under a snapshot, in a bank with an image. -/
def landing? (a : Analyzer) (s : Snapshot) (target : Int) : Option Location :=
  match MemoryMap.ofSnapshot a.banks s with
  | .ok map => (map.resolve target).filter fun l => l.bank.isAnalyzable
  | .error _ => none

/-- The instructions of a journal with the addresses that they refer to, where these land. -/
def landed (a : Analyzer) (j : Journal) : List ((Snapshot × Instruction) × Int) :=
  j.entries.flatMap fun e =>
    ((references e.2).filter fun target => (a.landing? e.1 target).isSome).map (e, ·)

section

variable {a : Analyzer} {j : Journal} {s : Snapshot} {insn : Instruction} {target : Int}
  {l : Location}

/-- An address lands where it resolves to, in a bank with an image. -/
theorem landing?_eq_some_iff : a.landing? s target = some l ↔
    (∃ map, MemoryMap.ofSnapshot a.banks s = .ok map ∧ map.resolve target = some l) ∧
      l.bank.isAnalyzable = true := by
  unfold landing?
  cases mapped : MemoryMap.ofSnapshot a.banks s with
  | error e => simp
  | ok map => simp [Option.filter_eq_some_iff]

/-- A reference lands when its instruction is recorded and its address lands. -/
theorem lands_iff : a.Lands j s insn target l ↔
    (s, insn) ∈ j.entries ∧ target ∈ references insn ∧ a.landing? s target = some l := by
  rw [mem_references_iff, landing?_eq_some_iff]
  constructor
  · rintro ⟨recorded, refers, resolved, analyzable⟩
    exact ⟨recorded, refers, resolved, analyzable⟩
  · rintro ⟨recorded, refers, resolved, analyzable⟩
    exact ⟨recorded, refers, resolved, analyzable⟩

/-- The instructions of a journal are gone through entry by entry. -/
theorem journalReferences_eq (a : Analyzer) (j : Journal) :
    a.journalReferences j = j.entries.flatMap fun e =>
      (references e.2).filterMap (a.landing? e.1) := by
  unfold journalReferences Journal.entries
  rw [List.flatMap_assoc]
  apply List.flatMap_congr
  rintro ⟨s, insns⟩ _
  dsimp only
  rw [List.flatMap_map]
  cases mapped : MemoryMap.ofSnapshot a.banks s with
  | error e =>
    have nowhere : a.landing? s = fun _ => none := by
      funext target
      unfold landing?
      rw [mapped]
    dsimp only
    rw [nowhere]
    simp
  | ok map =>
    have within : a.landing? s = fun target =>
        (map.resolve target).filter fun l => l.bank.isAnalyzable := by
      funext target
      unfold landing?
      rw [mapped]
    dsimp only
    rw [within]
    apply List.flatMap_congr
    intro insn _
    exact List.filter_filterMap

/-- The locations that a journal refers to are those where its references land. -/
theorem mem_journalReferences_iff :
    l ∈ a.journalReferences j ↔ ∃ s insn target, a.Lands j s insn target l := by
  simp only [journalReferences_eq, List.mem_flatMap, List.mem_filterMap, lands_iff, Prod.exists,
    ← exists_and_left]

/-- There are as many locations as references that land. -/
theorem length_journalReferences (a : Analyzer) (j : Journal) :
    (a.journalReferences j).length = (a.landed j).length := by
  rw [journalReferences_eq]
  unfold landed
  rw [List.length_flatMap, List.length_flatMap]
  congr 1
  apply List.map_congr_left
  intro e _
  rw [List.length_filterMap_eq_countP, List.length_map, List.countP_eq_length_filter]

/-- The references that land are listed. -/
theorem mem_landed_iff : ((s, insn), target) ∈ a.landed j ↔ ∃ l, a.Lands j s insn target l := by
  unfold landed
  constructor
  · intro member
    obtain ⟨e, recorded, among⟩ := List.mem_flatMap.mp member
    obtain ⟨_, found, same⟩ := List.mem_map.mp among
    obtain ⟨rfl, rfl⟩ := Prod.mk.inj same
    obtain ⟨refers, lands⟩ := List.mem_filter.mp found
    obtain ⟨l, landing⟩ := Option.isSome_iff_exists.mp lands
    exact ⟨l, lands_iff.mpr ⟨recorded, refers, landing⟩⟩
  · rintro ⟨l, lands⟩
    obtain ⟨recorded, refers, landing⟩ := lands_iff.mp lands
    refine List.mem_flatMap.mpr ⟨_, recorded, List.mem_map.mpr ⟨target, ?_, rfl⟩⟩
    exact List.mem_filter.mpr ⟨refers, Option.isSome_iff_exists.mpr ⟨l, landing⟩⟩

/-- No reference is listed twice when no entry is in the journal twice. -/
theorem nodup_landed (once : j.entries.Nodup) : (a.landed j).Nodup := by
  unfold landed
  rw [List.nodup_flatMap]
  constructor
  · intro e _
    have references := (nodup_references e.2).filter fun target => (a.landing? e.1 target).isSome
    exact references.map fun _ _ same => (Prod.mk.inj same).2
  · refine once.imp ?_
    intro e f differ pair member member'
    obtain ⟨_, _, rfl⟩ := List.mem_map.mp member
    obtain ⟨_, _, same⟩ := List.mem_map.mp member'
    exact differ (Prod.mk.inj same).1.symm

/-- Journals with the same entries have the same references, which land at the same locations. -/
theorem lands_congr {k : Journal} (same : ∀ s insn, (s, insn) ∈ j.entries ↔ (s, insn) ∈ k.entries) :
    a.Lands j s insn target l ↔ a.Lands k s insn target l := by
  rw [lands_iff, lands_iff, same]

end

/-! ## Marking -/

/-- The marks on the bytes where references land. -/
def referenceMarks (a : Analyzer) (j : Journal) : List Cdl.Mark :=
  (a.journalReferences j).map fun l => ⟨l.position, 1, Cdl.data⟩

/-- A byte of the log is where some reference lands. -/
def IsReferenced (a : Analyzer) (j : Journal) (p : Cdl.Position) : Prop :=
  ∃ s insn target l, a.Lands j s insn target l ∧ l.position = p

section

variable {a : Analyzer} {before : Analysis} {p : Cdl.Position}

/-- Marking the references leaves the reading of the store alone. -/
theorem reading_markReferences (a : Analyzer) (before : Analysis) :
    (a.markReferences before).analysis.store.reading = before.store.reading := by
  rw [store_markReferences]
  exact Cdl.Store.reading_markAll ..

/-- References are marked where they land. -/
theorem exists_referenceMarks_iff {j : Journal} (start : 0 ≤ p.offset) :
    (∃ m ∈ a.referenceMarks j, m.Reaches p) ↔ a.IsReferenced j p := by
  constructor
  · rintro ⟨m, member, reaches⟩
    obtain ⟨l, listed, rfl⟩ := List.mem_map.mp member
    obtain ⟨s, insn, target, lands⟩ := mem_journalReferences_iff.mp listed
    exact ⟨s, insn, target, l, lands, (l.reaches_iff start Cdl.data).mp reaches⟩
  · rintro ⟨s, insn, target, l, lands, position⟩
    have listed := mem_journalReferences_iff.mpr ⟨s, insn, target, lands⟩
    exact ⟨_, List.mem_map_of_mem listed, (l.reaches_iff start Cdl.data).mpr position⟩

/-- Marking the references sets the data bit of the bytes that are marked. -/
theorem byteAt_markReferences (present : before.store.Has p) :
    (a.markReferences before).analysis.store.byteAt p = before.store.byteAt p |||
      if ∃ m ∈ a.referenceMarks before.journal, m.Reaches p then Cdl.data else 0 := by
  rw [store_markReferences, Cdl.Store.byteAt_markAll present]
  apply congrArg
  apply Cdl.Mark.bitsAt_of_uniform
  intro m member
  obtain ⟨l, _, rfl⟩ := List.mem_map.mp member
  rfl

/-- Marking the references another time changes nothing. -/
theorem markReferences_again (a : Analyzer) (before : Analysis) :
    (a.markReferences (a.markReferences before).analysis).analysis =
      (a.markReferences before).analysis := by
  have marked := Cdl.Store.markAll_markAll before.store (a.referenceMarks before.journal)
  unfold referenceMarks at marked
  rw [← store_markReferences] at marked
  have store : (a.markReferences (a.markReferences before).analysis).analysis.store =
      (a.markReferences before).analysis.store := by
    rw [store_markReferences]
    exact marked
  exact congrArg (fun store => ({ before with store } : Analysis)) store

end

/-- An answer has made data of the bytes where the references of an analysis land, and of nothing
else, and it has counted the references. -/
structure MarksReferences (a : Analyzer) (before : Analysis) (answer : Answer Nat) : Prop where
  /-- The answer is the number of references that land. -/
  counted : ∃ landed : List ((Snapshot × Instruction) × Int), landed.Nodup ∧
    (∀ s insn target, ((s, insn), target) ∈ landed ↔
      ∃ l, a.Lands before.journal s insn target l) ∧
    answer.result = .ok landed.length
  /-- The log has the bytes where references land. -/
  present : ∀ p, a.IsReferenced before.journal p → before.store.Has p
  /-- Where a reference lands, the data bit is set, and no other bit changes. -/
  marked : ∀ p, a.IsReferenced before.journal p →
    answer.analysis.store.byteAt p = before.store.byteAt p ||| Cdl.data
  /-- Where no reference lands, nothing changes. -/
  kept : ∀ p, before.store.Has p → ¬a.IsReferenced before.journal p →
    answer.analysis.store.byteAt p = before.store.byteAt p
  /-- The log has the same files, of the same sizes. -/
  sizes : answer.analysis.store.sizes = before.store.sizes
  /-- Nothing is recorded. -/
  journal : answer.analysis.journal = before.journal

section

variable {a : Analyzer} {log : Cdl.Store} {before : Analysis} {requests : List Request}

/-- The references of a journal without repetitions are marked and counted. -/
theorem marksReferences (made : before.store.MadeFor a.banks.declared)
    (once : before.journal.entries.Nodup) : a.MarksReferences before (a.markReferences before) := by
  have present : ∀ p, a.IsReferenced before.journal p → before.store.Has p := by
    rintro _ ⟨s, insn, target, l, lands, rfl⟩
    obtain ⟨map, valid, found⟩ := lands.resolved
    have mapped := (MemoryMap.resolve_eq_some_iff.mp found).1
    exact made.has_position (MemoryMap.mem_banks_of_mem_active valid mapped)
  constructor
  case counted =>
    refine ⟨a.landed before.journal, nodup_landed once, fun _ _ _ => mem_landed_iff, ?_⟩
    rw [← length_journalReferences]
    rfl
  case present => exact present
  case marked =>
    intro p referenced
    have there := present p referenced
    have reached := (exists_referenceMarks_iff there.offset_nonneg).mpr referenced
    rw [byteAt_markReferences there, if_pos reached]
  case kept =>
    intro p there unreferenced
    have unreached := mt (exists_referenceMarks_iff there.offset_nonneg).mp unreferenced
    rw [byteAt_markReferences there, if_neg unreached]
    exact UInt8.or_zero
  case sizes => exact Cdl.Store.sizes_congr (reading_markReferences a before)
  case journal => rfl

/-- The references behind requests are marked and counted. -/
theorem marksReferences_serveAll (made : log.MadeFor a.banks.declared) (requests : List Request) :
    a.MarksReferences (a.serveAll { store := log } requests)
      (a.markReferences (a.serveAll { store := log } requests)) := by
  have tracks := (a.tracks_start log).serveAll made requests
  exact marksReferences (made.of_reading tracks.reading) (nodup_entries_serveAll made requests)

/-- The references behind requests do not depend on the order of these. -/
theorem lands_of_perm (made : log.MadeFor a.banks.declared) {others : List Request}
    (same : requests.Perm others) {s : Snapshot} {insn : Instruction} {target : Int}
    {l : Location} :
    a.Lands (a.serveAll { store := log } requests).journal s insn target l ↔
      a.Lands (a.serveAll { store := log } others).journal s insn target l :=
  lands_congr fun _ _ => mem_entries_of_perm made same

/-- The log is marked alike when the requests are served in another order. -/
theorem buffers_of_perm (made : log.MadeFor a.banks.declared) {others : List Request}
    (same : requests.Perm others) :
    (a.markReferences (a.serveAll { store := log } requests)).analysis.store.buffers =
      (a.markReferences (a.serveAll { store := log } others)).analysis.store.buffers := by
  have behind : ∀ served : List Request,
      (a.serveAll { store := log } served).store.reading = log.reading :=
    fun served => ((a.tracks_start log).serveAll made served).reading
  have marked : ∀ served : List Request,
      (a.markReferences (a.serveAll { store := log } served)).analysis.store.reading =
        log.reading :=
    fun served => (reading_markReferences a _).trans (behind served)
  have sizes := Cdl.Store.sizes_congr ((marked requests).trans (marked others).symm)
  apply Cdl.Store.buffers_eq sizes (made.of_reading (marked requests)).nodup_paths
  intro p found
  have present := (Cdl.Store.has_congr (marked requests) p).mp found
  have had := (Cdl.Store.has_congr (behind requests) p).mpr present
  have had' := (Cdl.Store.has_congr (behind others) p).mpr present
  have marks := marksReferences_serveAll made requests
  have marks' := marksReferences_serveAll made others
  have alike : a.IsReferenced (a.serveAll { store := log } requests).journal p ↔
      a.IsReferenced (a.serveAll { store := log } others).journal p := by
    unfold IsReferenced
    simp only [lands_of_perm made same]
  by_cases referenced : a.IsReferenced (a.serveAll { store := log } requests).journal p
  · rw [marks.marked p referenced, marks'.marked p (alike.mp referenced),
      byteAt_of_perm made same present]
  · rw [marks.kept p had referenced, marks'.kept p had' (mt alike.mpr referenced),
      byteAt_of_perm made same present]

/-- The same number of references is counted when the requests are served in another order. -/
theorem result_of_perm (made : log.MadeFor a.banks.declared) {others : List Request}
    (same : requests.Perm others) :
    (a.markReferences (a.serveAll { store := log } requests)).result =
      (a.markReferences (a.serveAll { store := log } others)).result := by
  obtain ⟨landed, once, members, counted⟩ := (marksReferences_serveAll made requests).counted
  obtain ⟨landed', once', members', counted'⟩ := (marksReferences_serveAll made others).counted
  have listed : landed.Perm landed' := by
    rw [List.perm_ext_iff_of_nodup once once']
    rintro ⟨⟨s, insn⟩, target⟩
    rw [members, members']
    simp only [lands_of_perm made same]
  rw [counted, counted', listed.length_eq]

end

/-! ## A bank of indirect jumps -/

/-- A fixed bank of four bytes. Both bytes of its address are the opcode of an indirect jump. -/
def pointerBank : Bank :=
  { Policy.shortBank with start := 0x6C6C, size_dvd := by decide, end_le := by decide }

/-- The analysis of the bank when it is filled with that opcode, so that all jumps have their
pointer in it. -/
def pointers : Analyzer := repetition ⟨[⟨pointerBank, none⟩], rfl⟩ 0x6C

/-- The map of the bank. -/
def pointerMap : MemoryMap := ⟨[.filled pointerBank 0x6C], List.pairwise_singleton _ _⟩

/-- The store that is made for the bank. -/
def pointerLog : Cdl.Store := { files := [(pointerBank.cdl, Cdl.File.blank 4)] }

/-- Requests for runs from the first two bytes of the bank. -/
def pointerRequests : List Request :=
  [⟨.fifo, {}, [0x6C6C], 1, none, .inOrder⟩, ⟨.fifo, {}, [0x6C6D], 1, none, .inOrder⟩]

/-- The location of the first byte of the bank. -/
def pointerStart : Location := ⟨.filled pointerBank 0x6C, ⟨0, by decide⟩⟩

/-- The bank is mapped without any selection. -/
theorem ofSnapshot_pointers : MemoryMap.ofSnapshot pointers.banks {} = .ok pointerMap := rfl

/-- The store covers the bank. -/
theorem forBanks_pointers :
    Cdl.Store.forBanks Platform.standard.memory pointers.banks.declared = .ok pointerLog := rfl

/-- The store is one that was made for the bank. -/
theorem madeFor_pointers : pointerLog.MadeFor pointers.banks.declared :=
  ⟨_, pointerLog, forBanks_pointers, rfl⟩

/-- The jump at the first byte refers to this byte. -/
theorem lands_pointers :
    pointers.Lands (pointers.serveAll { store := pointerLog } pointerRequests).journal {}
      (repeated 0x6C 0x6C6C) 0x6C6C pointerStart where
  recorded := by
    have distinct : pointerMap.DistinctPositions :=
      MemoryMap.SlicesApart.distinctPositions (by decide)
    have accepted : (pointers.scene pointerMap pointerLog []).Accepts pointerStart.address
        pointerStart (repeated 0x6C 0x6C6C) :=
      accepts_of_repetition (l := pointerStart) (by decide) ofSnapshot_pointers List.mem_cons_self
        (by decide) (by decide)
    refine (mem_entries_serveAll_iff madeFor_pointers).mpr ⟨_, List.mem_cons_self, ?_⟩
    exact mem_serve_of_entry (l := pointerStart) forBanks_pointers ofSnapshot_pointers distinct
      .fifo .inOrder List.mem_cons_self (Int.le_refl 1) accepted
  refers := .pointer rfl rfl (by decide) Nat.zero_lt_two
  resolved := ⟨pointerMap, rfl, MemoryMap.resolve_address (l := pointerStart) List.mem_cons_self⟩
  analyzable := rfl

/-- Whatever requests have been served, marking makes data of the bytes where references land, and
of nothing else, it counts the references, it changes nothing the next time, and it comes to the
same log and the same number when the requests are served in another order. -/
theorem references_marked (a : Analyzer) (log : Cdl.Store) (made : log.MadeFor a.banks.declared)
    (requests : List Request) :
    let marking := fun requests => a.markReferences (a.serveAll { store := log } requests)
    let again := a.markReferences (marking requests).analysis
    a.MarksReferences (a.serveAll { store := log } requests) (marking requests) ∧
      (again.result = (marking requests).result ∧ again.analysis = (marking requests).analysis) ∧
      ∀ others, requests.Perm others →
        (marking requests).analysis.store.buffers = (marking others).analysis.store.buffers ∧
          (marking requests).result = (marking others).result := by
  intro marking again
  refine ⟨marksReferences_serveAll made requests, ⟨rfl, markReferences_again a _⟩, ?_⟩
  intro others same
  exact ⟨buffers_of_perm made same, result_of_perm made same⟩

/-- The first byte of the bank is marked as data, in whichever order the two runs are made. -/
theorem references_marked_pointers :
    let marking := fun requests =>
      pointers.markReferences (pointers.serveAll { store := pointerLog } requests)
    Cdl.hasAny Cdl.data
        ((marking pointerRequests).analysis.store.byteAt pointerStart.position) = true ∧
      (marking pointerRequests).analysis.store.buffers =
        (marking pointerRequests.reverse).analysis.store.buffers := by
  intro marking
  obtain ⟨marks, _, order⟩ :=
    references_marked pointers pointerLog madeFor_pointers pointerRequests
  have referenced := marks.marked pointerStart.position ⟨_, _, _, _, lands_pointers, rfl⟩
  constructor
  · have self : Cdl.hasAny Cdl.data Cdl.data = true := by decide
    rw [referenced, Cdl.hasAny_or, self, Bool.or_true]
  · exact (order _ (List.reverse_perm pointerRequests).symm).1

end Analyzer

end BankTrace
