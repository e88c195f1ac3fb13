import BankTrace.Proofs.Trace.Cycle
import BankTrace.Proofs.Trace.OrderFreedom
import BankTrace.Proofs.Trace.Repetition

/-!
# Recovered starts

A log that is written keeps the bytes of code and not where instructions start. When the encodings
of a run do not overlap they tile the code, so that a sweep of the log finds where they start again.
-/

namespace BankTrace

/-- The encodings of two instructions have no address in common. -/
def Instruction.Apart (insn other : Instruction) : Prop :=
  insn.endAddress ≤ other.address ∨ other.endAddress ≤ insn.address

/-- The encodings of a result do not overlap. -/
def Result.EncodingsApart (r : Result) : Prop :=
  ∀ insn ∈ r.instructions, ∀ other ∈ r.instructions, insn ≠ other → insn.Apart other

/-- The first byte that is read at a location is the one of its bank. -/
theorem Location.head?_bytes {l : Location} (analyzable : l.bank.isAnalyzable = true) :
    (l.bytes 3).head? = some (l.bank.byte l.offset) := by
  have inside := l.offset.isLt
  unfold bytes LoadedBank.byte
  cases image : l.bank.image with
  | none =>
    unfold LoadedBank.isAnalyzable at analyzable
    rw [image] at analyzable
    contradiction
  | some bytes =>
    dsimp only
    have size : bytes.toArray.size = l.bank.size := bytes.size_toArray
    rw [List.head?_eq_getElem?, Array.getElem?_toList, Array.getElem?_extract, size,
      if_pos (by omega), Nat.add_zero, Array.getD_eq_getD_getElem?]
    rw [Array.getElem?_eq_getElem (by omega)]
    rfl

namespace Scene.Accepts

variable {scene : Scene} {addr : Int} {location : Location} {insn : Instruction}

/-- An accepted instruction has the address of its location. -/
theorem location_address (accepted : scene.Accepts addr location insn) :
    (location.address : Int) = addr := by
  have bounds := AddressSpace.bounds_of_executable accepted.executable
  rw [← wrapAddress_of_bounds bounds.1 bounds.2]
  exact (MemoryMap.resolve_eq_some_iff.mp accepted.resolved).2

/-- The opcode of an accepted instruction is the byte of the bank. -/
theorem opcode_eq (accepted : scene.Accepts addr location insn) :
    insn.opcode = location.bank.byte location.offset := by
  have front := (Instruction.decode_eq_ok_iff.mp accepted.decoded).2.1
  have first := Location.head?_bytes accepted.analyzable
  obtain ⟨rest, split⟩ := front
  rw [← split] at first
  exact Option.some.inj first

end Scene.Accepts

namespace Analyzer

/-- An instruction is believed at an offset of a bank. -/
def BelievedAt (scene : Scene) (t : Traversal) (b : LoadedBank) (offset : Nat) : Prop :=
  ∃ insn ∈ t.believed, ∃ l, scene.Accepts insn.address l insn ∧ l.bank = b ∧ l.offset.val = offset

section

variable {a : Analyzer} {before after : Analysis} {snapshot : Snapshot} {map : MemoryMap}
  {entries loaded : List Int} {t : Traversal}

/-- Where the run began without code, the code that it left at the locations of a bank consists of
the instructions that it believed there. -/
theorem Ran.code_location_iff (ran : a.Ran before snapshot map entries loaded t after)
    (distinct : map.DistinctPositions) {l : Location} (present : before.store.Has l.position)
    (unmarked : Cdl.hasAny Cdl.code (before.store.byteAt l.position) = false)
    (member : l.bank ∈ map.active) (analyzable : l.bank.isAnalyzable = true) :
    Cdl.hasAny Cdl.code (after.store.byteAt l.position) = true ↔
      ∃ offset, BelievedAt (a.scene map before.store loaded) t l.bank offset ∧
        offset ≤ l.offset ∧ l.offset < offset + Opcode.length (l.bank.byte offset) := by
  rw [ran.code_iff present, unmarked]
  simp only [Bool.false_eq_true, false_or]
  constructor
  · rintro ⟨insn, believed, i, small, place, found, position⟩
    obtain ⟨m, accepted⟩ := ran.consistent.exists_accepts believed
    have fits := accepted.fits
    have there := MemoryMap.resolve_add accepted.resolved (i := i) (by omega)
    obtain rfl := Option.some.inj (there.symm.trans found)
    have here := MemoryMap.resolve_address member
    have wrapped := distinct _ _ _ _ found here accepted.analyzable analyzable position
    rw [← map.resolve_wrapAddress, ← wrapped, map.resolve_wrapAddress, found] at here
    obtain rfl := Option.some.inj here
    refine ⟨m.offset, ⟨insn, believed, m, accepted, rfl, rfl⟩, Nat.le_add_right _ _, ?_⟩
    rw [← accepted.opcode_eq]
    exact Nat.add_lt_add_left small _
  · rintro ⟨offset, ⟨insn, believed, m, accepted, bank, rfl⟩, lower, upper⟩
    obtain ⟨b, o⟩ := l
    dsimp only at bank
    subst bank
    rw [← accepted.opcode_eq] at upper
    have inside := o.isLt
    have stop : m.offset.val + (o.val - m.offset.val) = o.val := Nat.add_sub_cancel' lower
    have there := MemoryMap.resolve_add accepted.resolved (i := o - m.offset) (by omega)
    refine ⟨insn, believed, o - m.offset, ?_, _, there, ?_⟩
    · unfold Instruction.length
      dsimp only at upper
      omega
    · unfold Location.position
      dsimp only
      rw [stop]

/-- Instructions that a run believes in a bank, and whose encodings have no address in common, tile
the code of the bank that the run left. -/
theorem Ran.tiles (ran : a.Ran before snapshot map entries loaded t after)
    (distinct : map.DistinctPositions) {b : LoadedBank} (member : b ∈ map.active)
    (analyzable : b.isAnalyzable = true)
    (present : ∀ l : Location, l.bank = b → before.store.Has l.position)
    (unmarked : ∀ l : Location, l.bank = b →
      Cdl.hasAny Cdl.code (before.store.byteAt l.position) = false) {code : Nat → Bool}
    (marked : ∀ l : Location, l.bank = b →
      code l.offset = Cdl.hasAny Cdl.code (after.store.byteAt l.position))
    (apart : ∀ insn ∈ t.believed, ∀ other ∈ t.believed, insn ≠ other → insn.Apart other) :
    b.Tiles code (BelievedAt (a.scene map before.store loaded) t b) := by
  constructor
  case fits =>
    rintro offset ⟨insn, believed, m, accepted, rfl, rfl⟩
    rw [← accepted.opcode_eq]
    exact accepted.fits
  case code_iff =>
    intro i inside
    have here := marked ⟨b, ⟨i, inside⟩⟩ rfl
    dsimp only at here
    rw [here]
    exact ran.code_location_iff distinct (l := ⟨b, ⟨i, inside⟩⟩) (present _ rfl) (unmarked _ rfl)
      member analyzable
  case apart =>
    rintro offset later ⟨insn, believed, m, accepted, rfl, rfl⟩ ⟨other, believed', n, accepted',
      bank, rfl⟩ order
    have address := accepted.location_address
    have address' := accepted'.location_address
    have starts : n.bank.start = m.bank.start := by rw [bank]
    have nonempty := other.length_pos
    unfold Location.address at address address'
    have differ : insn ≠ other := by
      rintro rfl
      omega
    rw [← accepted.opcode_eq]
    rcases apart insn believed other believed' differ with before | behind
    · unfold Instruction.endAddress Instruction.length at before
      omega
    · unfold Instruction.endAddress at behind
      omega

/-- The second store of a cycle has code exactly where the run left some, given that there was none
on disk at first. -/
theorem Cycle.code_eq {fs written : FileSystem} {before again : Cdl.Store}
    (cycle : a.Cycle snapshot entries fs written before again)
    (apart : (before.paths.map fs.placeOf).Nodup)
    (ran : a.Ran { store := before } snapshot map entries loaded t
      (a.run { store := before } snapshot entries 1 none).analysis)
    {p : Cdl.Position} (present : before.Has p)
    (uncoded : Cdl.hasAny Cdl.code (fs.byteAt p) = false) :
    Cdl.hasAny Cdl.code (again.loadedAt p) = Cdl.hasAny Cdl.code
      ((a.run { store := before } snapshot entries 1 none).analysis.store.byteAt p) := by
  have nothing : ∀ byte : UInt8, byte = 0 ∨ byte = fs.byteAt p →
      Cdl.hasAny Cdl.code byte = false := by
    rintro byte (rfl | rfl)
    · exact Cdl.hasAny_zero Cdl.code
    · exact uncoded
  rcases cycle.loadedAt_cases apart ran present with same | ⟨left, right⟩
  · rw [same]
  · rw [nothing _ left, nothing _ right]

section

variable {fs written : FileSystem} {before again : Cdl.Store}
  (cycle : a.Cycle snapshot entries fs written before again)
  (valid : MemoryMap.ofSnapshot a.banks snapshot = .ok map) (distinct : map.DistinctPositions)
  (places : (before.paths.map fs.placeOf).Nodup)
  (uncoded : ∀ p, before.Has p → Cdl.hasAny Cdl.code (fs.byteAt p) = false)
  (ran : a.Ran { store := before } snapshot map entries loaded t
    (a.run { store := before } snapshot entries 1 none).analysis)
  (apart : ∀ insn ∈ t.believed, ∀ other ∈ t.believed, insn ≠ other → insn.Apart other)

include cycle valid distinct places uncoded ran apart

/-- Instructions of the run whose encodings do not overlap tile the code of the second store, in
every mapped bank. -/
theorem Cycle.tiles {b : LoadedBank} (member : b ∈ map.active)
    (analyzable : b.isAnalyzable = true) :
    b.Tiles (b.loadedCode again) (BelievedAt (a.scene map before loaded) t b) := by
  have present : ∀ l : Location, l.bank = b → before.Has l.position := by
    rintro l rfl
    exact cycle.madeFor.has_position (MemoryMap.mem_banks_of_mem_active valid member)
  refine ran.tiles distinct member analyzable present ?_ ?_ apart
  · intro l bank
    rcases cycle.byteAt_cases (present l bank) with nothing | found
    · exact nothing ▸ Cdl.hasAny_zero Cdl.code
    · exact found ▸ uncoded _ (present l bank)
  · rintro l rfl
    exact cycle.code_eq places ran (present l rfl) (uncoded _ (present l rfl))

/-- The starts in the code of the second store are the addresses of the instructions of the run when
their encodings do not overlap. -/
theorem Cycle.mem_loadedStarts_iff {starts : List Int} (swept : map.loadedStarts again = .ok starts)
    {addr : Int} : addr ∈ starts ↔ ∃ insn ∈ t.believed, insn.address = addr := by
  have tiles : ∀ b ∈ map.active, b.isAnalyzable = true →
      b.Tiles (b.loadedCode again) (BelievedAt (a.scene map before loaded) t b) :=
    fun _ => cycle.tiles valid distinct places uncoded ran apart
  rw [MemoryMap.mem_loadedStarts_iff swept]
  constructor
  · rintro ⟨l, member, analyzable, rfl, start⟩
    obtain ⟨insn, believed, m, accepted, bank, offset⟩ :=
      (tiles _ member analyzable).isStart_iff.mp start
    have begins : m.bank.start = l.bank.start := by rw [bank]
    refine ⟨insn, believed, ?_⟩
    rw [← accepted.location_address]
    unfold Location.address
    omega
  · rintro ⟨insn, believed, rfl⟩
    obtain ⟨m, accepted⟩ := ran.consistent.exists_accepts believed
    have member := (MemoryMap.resolve_eq_some_iff.mp accepted.resolved).1
    refine ⟨m, member, accepted.analyzable, accepted.location_address, ?_⟩
    exact (tiles _ member accepted.analyzable).isStart_iff.mpr
      ⟨insn, believed, m, accepted, rfl, rfl⟩

end

end

/-- The encodings of a run on banks that repeat a single byte do not overlap. -/
theorem encodingsApart_of_repetition {set : BankSet} {opcode : Opcode} {snapshot : Snapshot}
    {map : MemoryMap} {before after : Analysis} {entries loaded : List Int} {t : Traversal}
    (ran : (repetition set opcode).Ran before snapshot map entries loaded t after)
    (valid : MemoryMap.ofSnapshot (repetition set opcode).banks snapshot = .ok map)
    (short : opcode.length = 1) {result : Result} (visits : result.visits = t.visits.reverse) :
    result.EncodingsApart := by
  unfold Result.EncodingsApart
  rw [Traversal.instructions_eq_believed visits]
  intro insn believed other believed' differ
  obtain ⟨l, accepted⟩ := ran.consistent.exists_accepts believed
  obtain ⟨m, accepted'⟩ := ran.consistent.exists_accepts believed'
  exact endAddress_of_accepts valid short accepted accepted' differ

/-- When the log paths lead to different places and there is no code on disk, the starts that are
recovered from the log that a run has written are the addresses of the instructions of the run, each
once and in ascending order, as long as the encodings of the run do not overlap. -/
theorem loadedStarts_of_apart (a : Analyzer) (snapshot : Snapshot) (map : MemoryMap)
    (valid : MemoryMap.ofSnapshot a.banks snapshot = .ok map) (distinct : map.DistinctPositions)
    (entries : List Int) (fs written : FileSystem) (before again : Cdl.Store)
    (cycle : a.Cycle snapshot entries fs written before again)
    (places : (before.paths.map fs.placeOf).Nodup)
    (uncoded : ∀ p, before.Has p → Cdl.hasAny Cdl.code (fs.byteAt p) = false) :
    ∃ result, (a.run { store := before } snapshot entries 1 none).result = .ok result ∧
      (result.EncodingsApart →
        ∃ starts, a.loadedStarts again snapshot = .ok starts ∧ starts.Pairwise (· < ·) ∧
          ∀ addr, addr ∈ starts ↔ ∃ insn ∈ result.instructions, insn.address = addr) := by
  have made : ({ store := before } : Analysis).store.MadeFor a.banks.declared := cycle.madeFor
  obtain ⟨loaded, t, result, ran, answer, visits, _⟩ :=
    a.exists_ran made valid entries (Int.le_refl 1) none
  obtain ⟨starts, swept, found⟩ := cycle.exists_loadedStarts valid
  refine ⟨result, answer, ?_⟩
  intro apart
  refine ⟨starts, found, MemoryMap.pairwise_loadedStarts swept, ?_⟩
  intro addr
  have believed := Traversal.instructions_eq_believed visits
  unfold Result.EncodingsApart at apart
  rw [believed] at apart ⊢
  exact cycle.mem_loadedStarts_iff valid distinct places uncoded ran apart swept

/-- A run from the first byte of a bank that is filled with `rts` believes the instruction there,
and the start is recovered from the log that the run has written. -/
theorem loadedStarts_of_apart_returns : ∃ written before again starts,
    returns.Cycle {} [0x8000] .bare written before again ∧
      returns.loadedStarts again {} = .ok starts ∧ (0x8000 : Int) ∈ starts := by
  have uncoded : Cdl.hasAny Cdl.code 0 = false := by decide
  obtain ⟨written, before, again, cycle, places⟩ :=
    returns.exists_cycle_bare ofSnapshot_returns forBanks_returns rfl [0x8000]
  have made : ({ store := before } : Analysis).store.MadeFor returns.banks.declared := cycle.madeFor
  obtain ⟨result, answer, recovered⟩ := loadedStarts_of_apart returns {} soleMap
    ofSnapshot_returns distinctPositions_returns [0x8000] .bare written before again cycle places
    (fun p _ => (FileSystem.byteAt_bare p).symm ▸ uncoded)
  obtain ⟨loaded, t, result', ran, answer', visits, complete⟩ :=
    returns.exists_ran made ofSnapshot_returns [0x8000] (Int.le_refl 1) none
  obtain rfl : result = result' := Except.ok.inj (answer.symm.trans answer')
  obtain ⟨starts, swept, _, members⟩ :=
    recovered (encodingsApart_of_repetition ran ofSnapshot_returns (by decide) visits)
  have unread : before.loadedAt soleStart.position = 0 := by
    obtain ⟨_, blank, _, read⟩ := cycle.first
    exact read.loadedAt_of_bare
      (made.has_position (MemoryMap.mem_banks_of_mem_active ofSnapshot_returns List.mem_cons_self))
  have accepted : (returns.scene soleMap before loaded).Accepts soleStart.address soleStart
      (repeated 0x60 soleStart.address) := by
    refine accepts_of_repetition (by decide) ofSnapshot_returns List.mem_cons_self (by decide) ?_
    rw [unread]
    decide
  have believed := ran.believed_of_entry distinctPositions_returns (complete rfl)
    List.mem_cons_self accepted
  rw [← Traversal.instructions_eq_believed visits] at believed
  exact ⟨written, before, again, starts, cycle, swept, (members _).mpr ⟨_, believed, rfl⟩⟩

/-! ## A detour through a directory that does not exist -/

/-- A second bank behind the first one in its log file. It names the file by way of a directory that
does not exist. -/
def detourBank : Bank :=
  { rivalBank with cdl := ⟨.relative, ["a", "..", "log"]⟩, cdlOffset := 2 }

/-- The layout of both banks. -/
def detourSet : BankSet := ⟨[⟨soleBank, none⟩, ⟨detourBank, none⟩], rfl⟩

/-- The map of both banks when they are filled with `rts`. -/
def detourMap : MemoryMap := ⟨[.filled soleBank 0x60, .filled detourBank 0x60], by decide⟩

/-- The analysis of both banks. -/
def detour : Analyzer := repetition detourSet 0x60

/-- The store that is made for both banks. -/
def detourLog : Cdl.Store :=
  { files := [(soleBank.cdl, Cdl.File.blank 2), (detourBank.cdl, Cdl.File.blank 4)] }

/-- The first byte of the second bank. -/
def farStart : Location := ⟨.filled detourBank 0x60, ⟨0, by decide⟩⟩

/-- Both banks are mapped without any selection. -/
theorem ofSnapshot_detour : MemoryMap.ofSnapshot detour.banks {} = .ok detourMap := rfl

/-- The store covers both banks. -/
theorem forBanks_detour :
    Cdl.Store.forBanks Platform.standard.memory detour.banks.declared = .ok detourLog := rfl

/-- The addresses of both banks have log bytes of their own. -/
theorem distinctPositions_detour : detourMap.DistinctPositions :=
  MemoryMap.SlicesApart.distinctPositions (by decide)

end Analyzer

namespace FileSystem

/-- The log is not found behind the missing directory, which is made before it is written. -/
theorem writeFile_detour (bytes : Array UInt8) (f : Cdl.File) :
    Cdl.Store.writeFile (withLog bytes) Analyzer.detourBank.cdl f =
      (withDetour (f.overlay #[]), .ok ()) := by
  unfold Cdl.Store.writeFile
  rw [show (withLog bytes).readOrEmpty Analyzer.detourBank.cdl = .ok #[] from rfl]
  exact replaceDeep_detour bytes (f.overlay #[])

end FileSystem

/-- A store of both banks is read from disk when both paths can be read. -/
theorem Cdl.Store.exists_readFrom_detour {fs : FileSystem}
    (first : ∃ bytes, fs.readOrEmpty Analyzer.soleBank.cdl = .ok bytes)
    (second : ∃ bytes, fs.readOrEmpty Analyzer.detourBank.cdl = .ok bytes) :
    ∃ s, ReadFrom fs Analyzer.detourLog s := by
  apply exists_readFrom
  intro path member
  simp only [paths, Analyzer.detourLog, List.map_cons, List.map_nil, List.mem_cons,
    List.not_mem_nil, or_false] at member
  rcases member with rfl | rfl
  · exact first
  · exact second

/-- A store of both banks in which their first bytes are dirty is written to the disk without files:
what was written for the first bank is lost. -/
theorem Cdl.Store.flush_detour {s : Store} (sizes : s.sizes = Analyzer.detourLog.sizes)
    (first : s.dirtyAt Analyzer.soleStart.position = true)
    (second : s.dirtyAt Analyzer.farStart.position = true) :
    ∃ g : File, g.size = 4 ∧ (∀ i : Nat, g.byte i = s.byteAt ⟨Analyzer.detourBank.cdl, i⟩) ∧
      ∃ saved events paths,
        s.flush .bare = (saved, .withDetour (g.overlay #[]), events, .ok paths) := by
  obtain ⟨f, g, files, size⟩ : ∃ f g,
      s.files = [(Analyzer.soleBank.cdl, f), (Analyzer.detourBank.cdl, g)] ∧ g.size = 4 := by
    have listed : s.files.map (fun entry => (entry.1, entry.2.size)) =
        [(Analyzer.soleBank.cdl, 2), (Analyzer.detourBank.cdl, 4)] := by
      rw [← show s.sizes = _ from s.sizes_eq_map, sizes]
      rfl
    simp only [List.map_eq_cons_iff, List.map_eq_nil_iff, Prod.mk.injEq] at listed
    obtain ⟨⟨p, f⟩, _, split, ⟨rfl, _⟩, ⟨q, g⟩, _, rfl, ⟨rfl, size⟩, rfl⟩ := listed
    exact ⟨f, g, split, size⟩
  have here : s.file? Analyzer.soleBank.cdl = some f := by
    unfold file?
    rw [files]
    rfl
  have there : s.file? Analyzer.detourBank.cdl = some g := by
    unfold file?
    rw [files]
    rfl
  unfold dirtyAt at first second
  rw [show s.file? Analyzer.soleStart.position.file = some f from here] at first
  rw [show s.file? Analyzer.farStart.position.file = some g from there] at second
  have dirty : f.isDirty = true := File.isDirty_eq_true_iff.mpr ⟨_, first⟩
  have dirty' : g.isDirty = true := File.isDirty_eq_true_iff.mpr ⟨_, second⟩
  have written : writeFile .bare Analyzer.soleBank.cdl f = (.withLog (f.overlay #[]), .ok ()) :=
    FileSystem.replaceDeep_bare _
  have behind := FileSystem.writeFile_detour (f.overlay #[]) g
  refine ⟨g, size, ?_, ?_⟩
  · intro i
    unfold byteAt
    dsimp only
    rw [there]
    rfl
  · unfold flush
    rw [files]
    unfold writeFiles
    rw [if_pos dirty, written]
    dsimp only
    unfold writeFiles
    rw [if_pos dirty', behind]
    exact ⟨_, _, _, rfl⟩

namespace Analyzer

section

variable {before : Cdl.Store} {after : Analysis} {loaded : List Int} {t : Traversal}
  (read : Cdl.Store.ReadFrom .bare detourLog before)
  (ran : detour.Ran { store := before } {} detourMap [0x8000, 0xC000] loaded t after)

include read

/-- The store was made for both banks. -/
theorem madeFor_detour : before.MadeFor detour.banks.declared :=
  ⟨_, detourLog, forBanks_detour, read.sizes_eq⟩

/-- The store has the bytes of both banks. -/
theorem present_detour {l : Location} (member : l.bank ∈ detourMap.active) :
    before.Has l.position :=
  (madeFor_detour read).has_position (MemoryMap.mem_banks_of_mem_active ofSnapshot_detour member)

include ran

/-- A run on both banks from their first bytes believes the instructions there and makes the bytes
code, so that they are dirty. -/
theorem believed_detour (complete : t.IsComplete) {l : Location}
    (member : l.bank ∈ detourMap.active) (entry : (l.address : Int) ∈ [0x8000, 0xC000]) :
    repeated 0x60 l.address ∈ t.believed ∧ after.store.dirtyAt l.position = true := by
  have present := present_detour read member
  have notData : Scene.isKnownData (before.loadedAt l.position) = false := by
    rw [read.loadedAt_of_bare present]
    decide
  have unmarked : Cdl.hasAny Cdl.code (before.byteAt l.position) = false := by
    rw [read.byteAt_of_bare present]
    exact Cdl.hasAny_zero Cdl.code
  have accepted : (detour.scene detourMap before loaded).Accepts l.address l
      (repeated 0x60 l.address) :=
    accepts_of_repetition (by decide) ofSnapshot_detour member l.offset.isLt notData
  have believed := ran.believed_of_entry distinctPositions_detour complete entry accepted
  have covered : detourMap.Covers (repeated 0x60 l.address).address
      (repeated 0x60 l.address).length l.position :=
    MemoryMap.covers_of_resolve accepted.resolved
  exact ⟨believed, ran.dirtyAt_of_code unmarked
    ((ran.code_iff present).mpr (.inr ⟨_, believed, covered⟩))⟩

/-- A run on both banks leaves the byte alone that the log of the second bank has for the first byte
of the first bank. -/
theorem uncoded_detour : Cdl.hasAny Cdl.code (after.store.byteAt ⟨detourBank.cdl, 0⟩) = false := by
  have present : before.Has ⟨detourBank.cdl, 0⟩ := by
    refine ⟨4, ?_, by decide, by decide⟩
    rw [read.sizes_eq]
    rfl
  rw [Bool.eq_false_iff]
  intro coded
  rcases (ran.code_iff present).mp coded with marked | ⟨insn, _, i, _, l, found, position⟩
  · rw [read.byteAt_of_bare present] at marked
    contradiction
  · have member := (MemoryMap.resolve_eq_some_iff.mp found).1
    obtain ⟨b, offset⟩ := l
    simp only [Location.position, Cdl.Position.mk.injEq] at position
    simp only [detourMap, List.mem_cons, List.not_mem_nil, or_false] at member
    rcases member with rfl | rfl
    · exact absurd position.1 (by decide)
    · have behind : (LoadedBank.filled detourBank 0x60).cdlOffset = 2 := rfl
      omega

/-- Behind the run the log is written, and when it is read again the first byte of the first bank is
not code. -/
theorem exists_flush_detour (complete : t.IsComplete) :
    ∃ saved written events paths, after.store.flush .bare = (saved, written, events, .ok paths) ∧
      ∃ again, Cdl.Store.ReadFrom written detourLog again ∧
        Cdl.hasAny Cdl.code (again.loadedAt soleStart.position) = false := by
  have near := believed_detour read ran complete (l := soleStart) List.mem_cons_self (by decide)
  have far := believed_detour read ran complete (l := farStart)
    (List.mem_cons_of_mem _ List.mem_cons_self) (by decide)
  obtain ⟨g, size, bytes, saved, events, paths, flushed⟩ :=
    Cdl.Store.flush_detour (ran.sizes_eq.trans read.sizes_eq) near.2 far.2
  obtain ⟨again, reread⟩ : ∃ again,
      Cdl.Store.ReadFrom (.withDetour (g.overlay #[])) detourLog again :=
    Cdl.Store.exists_readFrom_detour ⟨g.overlay #[], rfl⟩ ⟨g.overlay #[], rfl⟩
  refine ⟨saved, _, events, paths, flushed, again, reread, ?_⟩
  have present : again.Has soleStart.position := by
    unfold Cdl.Store.Has
    rw [reread.sizes_eq, ← read.sizes_eq]
    exact present_detour read List.mem_cons_self
  have byte : again.loadedAt soleStart.position = (g.overlay #[]).getD 0 0 :=
    reread.loadedAt_eq present
  rw [byte, Cdl.File.getD_overlay _ _ (by omega)]
  split
  · rw [show g.byte 0 = _ from bytes 0]
    exact uncoded_detour read ran
  · rfl

end

/-- Two banks share a log file that is not there yet, at different bytes, and the second one names
it by way of a directory that is not there either. A run believes an instruction in each of them.
When the log has been written and is read again, the start in the first bank is not recovered. -/
theorem detour_loses_start :
    MemoryMap.ofSnapshot detour.banks {} = .ok detourMap ∧ detourMap.DistinctPositions ∧
      ∃ written before again result starts,
        detour.Cycle {} [0x8000, 0xC000] .bare written before again ∧
        (∀ p, before.Has p → Cdl.hasAny Cdl.code (before.loadedAt p) = false) ∧
        (detour.run { store := before } {} [0x8000, 0xC000] 1 none).result = .ok result ∧
        result.EncodingsApart ∧ (∃ insn ∈ result.instructions, insn.address = 0x8000) ∧
        detour.loadedStarts again {} = .ok starts ∧ (0x8000 : Int) ∉ starts := by
  obtain ⟨before, read⟩ : ∃ before, Cdl.Store.ReadFrom .bare detourLog before :=
    Cdl.Store.exists_readFrom_detour ⟨#[], rfl⟩ ⟨#[], rfl⟩
  have made : ({ store := before } : Analysis).store.MadeFor detour.banks.declared :=
    madeFor_detour read
  obtain ⟨loaded, t, result, ran, answer, visits, complete⟩ :=
    detour.exists_ran made ofSnapshot_detour [0x8000, 0xC000] (Int.le_refl 1) none
  obtain ⟨saved, written, events, paths, flushed, again, reread, lost⟩ :=
    exists_flush_detour read ran (complete rfl)
  have cycle : detour.Cycle {} [0x8000, 0xC000] .bare written before again :=
    ⟨⟨_, detourLog, forBanks_detour, read⟩, ⟨saved, events, paths, flushed⟩, _, detourLog,
      forBanks_detour, reread⟩
  obtain ⟨starts, swept, recovered⟩ := cycle.exists_loadedStarts ofSnapshot_detour
  refine ⟨ofSnapshot_detour, distinctPositions_detour, written, before, again, result, starts,
    cycle, ?_, answer, encodingsApart_of_repetition ran ofSnapshot_detour (by decide) visits, ?_,
    recovered, ?_⟩
  · intro p present
    rw [read.loadedAt_of_bare present]
    exact Cdl.hasAny_zero Cdl.code
  · have near := believed_detour read ran (complete rfl) (l := soleStart) List.mem_cons_self
      (by decide)
    rw [Traversal.instructions_eq_believed visits]
    exact ⟨_, near.1, rfl⟩
  · intro member
    obtain ⟨l, found, _, code⟩ := MemoryMap.mem_loadedStarts swept member
    have same : l = soleStart := Option.some.inj
      (found.symm.trans (MemoryMap.resolve_address (l := soleStart) List.mem_cons_self))
    rw [same, lost] at code
    contradiction

end Analyzer

end BankTrace
