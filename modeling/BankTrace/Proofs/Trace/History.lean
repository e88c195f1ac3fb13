import BankTrace.Proofs.Trace.Exactness

/-!
# Histories of runs

Requests for runs are served one after the other, some of them in vain. Behind every history the
journal holds nothing but instructions that the banks have at their addresses, and the log differs
from the one at the beginning by the bytes of these instructions, which are marked as code, and by
those of the vectors that could be read, which are marked as data. One request keeps both; the log
as it was last read is the same for all of them.
-/

namespace BankTrace

/-- A request for a run. -/
structure Request where
  /-- The order in which addresses are taken. -/
  order : Order
  /-- What is mapped. -/
  snapshot : Snapshot
  /-- The further addresses to start from. -/
  entries : List Int
  /-- The number of workers. -/
  workers : Int
  /-- The limit of steps, if there is one. -/
  limit : Option Int
  /-- The order of the visits of several workers. -/
  schedule : Schedule := .inOrder

namespace Analyzer

/-- What a request leaves, whether it succeeds or not. -/
def serve (a : Analyzer) (before : Analysis) (r : Request) : Analysis :=
  (({ a with order := r.order, schedule := r.schedule } : Analyzer).run before r.snapshot r.entries
    r.workers r.limit).analysis

/-- What requests leave that are served one after the other. -/
def serveAll (a : Analyzer) (before : Analysis) (requests : List Request) : Analysis :=
  requests.foldl a.serve before

/-- A request without a worker leaves everything as it is, one whose snapshot the banks do not admit
gives up the claims, and every other one leaves what a run leaves. -/
theorem serve_cases (a : Analyzer) {before : Analysis}
    (made : before.store.MadeFor a.banks.declared) (r : Request) :
    r.workers < 1 ∧ a.serve before r = before ∨
      (∃ error, MemoryMap.ofSnapshot a.banks r.snapshot = .error error) ∧
        a.serve before r = { before with store := before.store.resetClaims } ∨
      1 ≤ r.workers ∧ ∃ map loaded t, MemoryMap.ofSnapshot a.banks r.snapshot = .ok map ∧
        a.Ran before r.snapshot map r.entries loaded t (a.serve before r) := by
  by_cases idle : r.workers < 1
  · left
    refine ⟨idle, ?_⟩
    exact congrArg Answer.analysis (run_of_idle _ before idle ..)
  · right
    cases valid : MemoryMap.ofSnapshot a.banks r.snapshot with
    | error error =>
      left
      refine ⟨⟨error, rfl⟩, ?_⟩
      have staffed : 1 ≤ r.workers := by omega
      exact congrArg Answer.analysis
        (({ a with order := r.order, schedule := r.schedule } : Analyzer).run_of_refused before
          staffed valid ..)
    | ok map =>
      right
      have staffed : 1 ≤ r.workers := by omega
      obtain ⟨loaded, ran⟩ := a.ran_of_run made valid r.order r.schedule r.entries staffed
        r.limit
      exact ⟨staffed, map, loaded, _, rfl, ran⟩

/-- An instruction is what the banks have at its address under a snapshot, and there was reason to
believe it. -/
structure Justifies (a : Analyzer) (log : Cdl.Store) (s : Snapshot) (insn : Instruction)
    (map : MemoryMap) (l : Location) : Prop where
  /-- The number of the snapshot is left out. -/
  unversioned : s.version = 0
  /-- The banks admit the snapshot. -/
  mapped : MemoryMap.ofSnapshot a.banks s = .ok map
  /-- The address is one. -/
  inside : 0 ≤ insn.address ∧ insn.address ≤ 0xFFFF
  /-- The bank of the location has an image. -/
  analyzable : l.bank.isAnalyzable = true
  /-- The addresses of the instruction resolve to consecutive offsets of the bank. -/
  consecutive : ∀ i < insn.length, ∃ m, map.resolve (insn.address + i) = some m ∧
    m.bank = l.bank ∧ (m.offset : Nat) = l.offset + i
  /-- The addresses of the instruction may be executed. -/
  executable : ∀ i < insn.length, (a.space.permissionAt (insn.address + i)).executable = true
  /-- The bytes of the bank are read as the instruction. -/
  decoded : Instruction.decode (l.bytes 3) insn.address (some a.space) = .ok insn
  /-- The log did not say data alone when it was read. -/
  notData : Scene.isKnownData (log.loadedAt l.position) = false
  /-- The policy has nothing against the instruction, or the log said code when it was read. -/
  believed : Policy.checkUnder a.settings a.space a.banks s insn l.bank.name = .ok none ∨
    Cdl.hasAny Cdl.code (log.loadedAt l.position) = true

section

variable {a : Analyzer} {log : Cdl.Store} {s : Snapshot} {insn : Instruction} {map : MemoryMap}
  {l : Location}

/-- The location of a justified instruction is where its address resolves to. -/
theorem Justifies.resolved (justifies : a.Justifies log s insn map l) :
    map.resolve insn.address = some l := by
  obtain ⟨m, found, bank, offset⟩ := justifies.consecutive 0 insn.length_pos
  rw [Int.natCast_zero, Int.add_zero] at found
  rw [found, Option.some_inj]
  apply Location.eq_of_bank_eq bank
  unfold Location.address
  rw [offset, bank, Nat.add_zero]

/-- At one address under one snapshot one instruction is justified. -/
theorem Justifies.unique (justifies : a.Justifies log s insn map l) {other : Instruction}
    {map' : MemoryMap} {l' : Location} (justifies' : a.Justifies log s other map' l')
    (same : other.address = insn.address) : other = insn ∧ map' = map := by
  have maps := Except.ok.inj (justifies'.mapped.symm.trans justifies.mapped)
  subst maps
  have places := justifies'.resolved
  rw [same, justifies.resolved, Option.some_inj] at places
  subst places
  have reads := justifies'.decoded
  rw [same, justifies.decoded] at reads
  exact ⟨(Except.ok.inj reads).symm, rfl⟩

/-- What a run accepts is justified. -/
theorem Ran.justifies {before after : Analysis} {snapshot : Snapshot} {entries loaded : List Int}
    {t : Traversal} (ran : a.Ran before snapshot map entries loaded t after)
    (valid : MemoryMap.ofSnapshot a.banks snapshot = .ok map)
    (reading : before.store.reading = log.reading)
    (accepted : (a.scene map before.store loaded).Accepts insn.address l insn) :
    a.Justifies log snapshot.unversioned insn map l := by
  have mapped : MemoryMap.ofSnapshot a.banks snapshot.unversioned = .ok map := by
    rw [MemoryMap.ofSnapshot_unversioned]
    exact valid
  have decoded := (Instruction.decode_eq_ok_iff.mp accepted.decoded).2.2
  obtain ⟨start, stop, executable⟩ := AddressSpace.allExecutable_eq_true_iff.mp decoded
  have fits := accepted.fits
  have bounds := AddressSpace.bounds_of_executable accepted.executable
  have loadedAt := Cdl.Store.loadedAt_congr reading l.position
  constructor
  case unversioned => rfl
  case mapped => exact mapped
  case inside => exact ⟨bounds.1, Int.le_of_lt_add_one bounds.2⟩
  case analyzable => exact accepted.analyzable
  case consecutive =>
    intro i small
    exact ⟨_, MemoryMap.resolve_add accepted.resolved (by omega), rfl, rfl⟩
  case executable => exact executable
  case decoded => exact accepted.decoded
  case notData =>
    rw [← loadedAt]
    exact accepted.notData
  case believed =>
    rcases accepted.believed with trusted | unopposed
    · right
      have member : insn.address ∈ loaded := by
        unfold scene at trusted
        rw [Registry.contains_ofList] at trusted
        exact of_decide_eq_true trusted
      obtain ⟨m, found, _, code⟩ := MemoryMap.mem_loadedStarts ran.loaded_eq member
      have here := found.symm.trans accepted.resolved
      rw [← loadedAt, ← Option.some.inj here]
      exact code
    · left
      rw [Policy.checkUnder_of_valid mapped]
      exact congrArg Except.ok unopposed

/-- A justified instruction that is recorded is an entry, as long as all entries are justified: an
older entry at its address is the same instruction. -/
theorem mem_record_of_justified {j : Journal} {snapshot : Snapshot} {insns : List Instruction}
    (behind : ∀ s insn, (s, insn) ∈ (j.record snapshot insns).entries →
      ∃ map l, a.Justifies log s insn map l)
    (justified : ∃ map l, a.Justifies log snapshot.unversioned insn map l) (new : insn ∈ insns) :
    (snapshot.unversioned, insn) ∈ (j.record snapshot insns).entries := by
  have has : (j.record snapshot insns).Has snapshot.unversioned insn.address :=
    Journal.has_record_iff.mpr (.inr ⟨rfl, insn, new, rfl⟩)
  obtain ⟨known, member, address⟩ := has
  obtain ⟨_, _, justifies⟩ := justified
  obtain ⟨_, _, justifies'⟩ := behind _ known member
  obtain ⟨rfl, _⟩ := justifies.unique justifies' address
  exact member

end

/-- An entry of the journal covers a log byte with its instruction. -/
def Encodes (a : Analyzer) (j : Journal) (p : Cdl.Position) : Prop :=
  ∃ s insn map, (s, insn) ∈ j.entries ∧ MemoryMap.ofSnapshot a.banks s = .ok map ∧
    map.Covers insn.address insn.length p

/-- A request read a vector that covers a log byte. -/
def ReadsVectorAt (a : Analyzer) (r : Request) (p : Cdl.Position) : Prop :=
  1 ≤ r.workers ∧ ∃ map, MemoryMap.ofSnapshot a.banks r.snapshot = .ok map ∧
    ∃ interrupt ∈ Interrupt.enabled a.settings,
      (map.readWord interrupt.vector).isSome = true ∧ map.Covers interrupt.vector 2 p

/-- What holds behind requests that began with a log and an empty journal. -/
structure Tracks (a : Analyzer) (log : Cdl.Store) (served : List Request) (now : Analysis) :
    Prop where
  /-- Nothing has been read since. -/
  reading : now.store.reading = log.reading
  /-- All entries of the journal are justified. -/
  justified : ∀ s insn, (s, insn) ∈ now.journal.entries → ∃ map l, a.Justifies log s insn map l
  /-- The code bits are those of the beginning and those of the entries. -/
  code : ∀ p, log.Has p → (Cdl.hasAny Cdl.code (now.store.byteAt p) = true ↔
    Cdl.hasAny Cdl.code (log.byteAt p) = true ∨ a.Encodes now.journal p)
  /-- The data bits are those of the beginning and those of the readable vectors. -/
  data : ∀ p, log.Has p → (Cdl.hasAny Cdl.data (now.store.byteAt p) = true ↔
    Cdl.hasAny Cdl.data (log.byteAt p) = true ∨ ∃ r ∈ served, a.ReadsVectorAt r p)
  /-- The other bits are those of the beginning. -/
  rest : ∀ p, log.Has p → now.store.byteAt p &&& 0xFC = log.byteAt p &&& 0xFC

section

variable {a : Analyzer} {log : Cdl.Store} {served : List Request} {now : Analysis}

/-- A new store and an empty journal track nothing. -/
theorem tracks_start (a : Analyzer) (log : Cdl.Store) : a.Tracks log [] { store := log } where
  reading := rfl
  justified := by
    intro s insn member
    contradiction
  code := by
    intro p _
    refine ⟨.inl, ?_⟩
    rintro (marked | ⟨_, _, _, member, _⟩)
    · exact marked
    · contradiction
  data := by
    intro p _
    refine ⟨.inl, ?_⟩
    rintro (marked | ⟨_, member, _⟩)
    · exact marked
    · contradiction
  rest := fun _ _ => rfl

/-- A request that changes neither log bytes nor the journal and reads no vector is tracked. -/
theorem Tracks.idle (tracks : a.Tracks log served now) {r : Request}
    (vain : ∀ p, ¬a.ReadsVectorAt r p) {after : Analysis} (journal : after.journal = now.journal)
    (reading : after.store.reading = now.store.reading)
    (bytes : ∀ p, after.store.byteAt p = now.store.byteAt p) :
    a.Tracks log (served ++ [r]) after where
  reading := reading.trans tracks.reading
  justified := by
    rw [journal]
    exact tracks.justified
  code := by
    intro p present
    rw [bytes, journal]
    exact tracks.code p present
  data := by
    intro p present
    rw [bytes, tracks.data p present]
    refine or_congr_right ?_
    simp only [List.mem_append, List.mem_singleton]
    constructor
    · rintro ⟨other, member, reads⟩
      exact ⟨other, .inl member, reads⟩
    · rintro ⟨other, member | rfl, reads⟩
      · exact ⟨other, member, reads⟩
      · exact absurd reads (vain p)
  rest := by
    intro p present
    rw [bytes]
    exact tracks.rest p present

/-- A run that is tracked records justified instructions. -/
theorem Tracks.justified_ran (tracks : a.Tracks log served now) {r : Request} {map : MemoryMap}
    {loaded : List Int} {t : Traversal} {after : Analysis}
    (valid : MemoryMap.ofSnapshot a.banks r.snapshot = .ok map)
    (ran : a.Ran now r.snapshot map r.entries loaded t after) :
    ∀ s insn, (s, insn) ∈ after.journal.entries → ∃ map l, a.Justifies log s insn map l := by
  intro s insn member
  rw [ran.journal_eq] at member
  rcases Journal.mem_or_of_mem_record member with old | ⟨same, new⟩
  · exact tracks.justified s insn old
  · obtain ⟨location, accepted⟩ := ran.consistent.exists_accepts new
    rw [same]
    exact ⟨map, location, ran.justifies valid tracks.reading accepted⟩

/-- Behind a run that is tracked the journal covers the bytes that it covered before and those of
the believed instructions. -/
theorem Tracks.encodes_ran (tracks : a.Tracks log served now) {r : Request} {map : MemoryMap}
    {loaded : List Int} {t : Traversal} {after : Analysis}
    (valid : MemoryMap.ofSnapshot a.banks r.snapshot = .ok map)
    (ran : a.Ran now r.snapshot map r.entries loaded t after) (p : Cdl.Position) :
    a.Encodes after.journal p ↔
      a.Encodes now.journal p ∨ ∃ insn ∈ t.believed, map.Covers insn.address insn.length p := by
  have recorded : after.journal = now.journal.record r.snapshot t.believed := ran.journal_eq
  constructor
  · rintro ⟨s, insn, map', member, mapped, covers⟩
    rw [recorded] at member
    rcases Journal.mem_or_of_mem_record member with old | ⟨same, new⟩
    · exact .inl ⟨s, insn, map', old, mapped, covers⟩
    · rw [same] at mapped
      have maps := Except.ok.inj (mapped.symm.trans valid)
      rw [maps] at covers
      exact .inr ⟨insn, new, covers⟩
  · rintro (⟨s, insn, map', old, mapped, covers⟩ | ⟨insn, new, covers⟩)
    · have kept := Journal.mem_record_of_mem r.snapshot t.believed old
      rw [← recorded] at kept
      exact ⟨s, insn, map', kept, mapped, covers⟩
    · have behind := tracks.justified_ran valid ran
      rw [recorded] at behind
      obtain ⟨location, accepted⟩ := ran.consistent.exists_accepts new
      have member := mem_record_of_justified behind
        ⟨map, location, ran.justifies valid tracks.reading accepted⟩ new
      rw [← recorded] at member
      exact ⟨r.snapshot.unversioned, insn, map, member, valid, covers⟩

/-- A run is tracked. -/
theorem Tracks.ran (tracks : a.Tracks log served now) {r : Request} {map : MemoryMap}
    {loaded : List Int} {t : Traversal} {after : Analysis} (staffed : 1 ≤ r.workers)
    (valid : MemoryMap.ofSnapshot a.banks r.snapshot = .ok map)
    (ran : a.Ran now r.snapshot map r.entries loaded t after) :
    a.Tracks log (served ++ [r]) after where
  reading := ran.reading_eq.trans tracks.reading
  justified := tracks.justified_ran valid ran
  code := by
    intro p present
    have present' := (Cdl.Store.has_congr tracks.reading p).mpr present
    rw [ran.code_iff present', tracks.code p present, tracks.encodes_ran valid ran, or_assoc]
  data := by
    intro p present
    have present' := (Cdl.Store.has_congr tracks.reading p).mpr present
    have reads : a.ReadsVectorAt r p ↔ ∃ interrupt ∈ Interrupt.enabled a.settings,
        (map.readWord interrupt.vector).isSome = true ∧ map.Covers interrupt.vector 2 p := by
      constructor
      · rintro ⟨_, map', mapped, vector⟩
        have maps := Except.ok.inj (mapped.symm.trans valid)
        rw [maps] at vector
        exact vector
      · intro vector
        exact ⟨staffed, map, valid, vector⟩
    rw [ran.data_iff present', tracks.data p present, ← reads, or_assoc]
    refine or_congr_right ?_
    simp only [List.mem_append, List.mem_singleton]
    constructor
    · rintro (⟨other, member, vector⟩ | vector)
      · exact ⟨other, .inl member, vector⟩
      · exact ⟨r, .inr rfl, vector⟩
    · rintro ⟨other, member | rfl, vector⟩
      · exact .inl ⟨other, member, vector⟩
      · exact .inr vector
  rest := by
    intro p present
    have present' := (Cdl.Store.has_congr tracks.reading p).mpr present
    rw [ran.other_bits present']
    exact tracks.rest p present

/-- Every request is tracked, whether it succeeds or not. -/
theorem Tracks.serve (tracks : a.Tracks log served now) (made : log.MadeFor a.banks.declared)
    (r : Request) : a.Tracks log (served ++ [r]) (a.serve now r) := by
  rcases a.serve_cases (made.of_reading tracks.reading) r with
    ⟨unstaffed, left⟩ | ⟨⟨error, invalid⟩, left⟩ | ⟨staffed, map, loaded, t, valid, ran⟩
  · have vain : ∀ p, ¬a.ReadsVectorAt r p := by
      rintro p ⟨staffed, _⟩
      omega
    rw [left]
    exact tracks.idle vain rfl rfl fun _ => rfl
  · have vain : ∀ p, ¬a.ReadsVectorAt r p := by
      rintro p ⟨_, map, valid, _⟩
      rw [invalid] at valid
      contradiction
    rw [left]
    exact tracks.idle vain rfl rfl fun _ => rfl
  · exact tracks.ran staffed valid ran

/-- Every history of requests is tracked. -/
theorem Tracks.serveAll (tracks : a.Tracks log served now) (made : log.MadeFor a.banks.declared)
    (requests : List Request) : a.Tracks log (served ++ requests) (a.serveAll now requests) := by
  induction requests generalizing served now with
  | nil =>
    rw [List.append_nil]
    exact tracks
  | cons r rest ih =>
    have later := ih (tracks.serve made r)
    rw [List.append_assoc, List.singleton_append] at later
    exact later

end

/-- Over an empty log a run without a limit records what is accepted where it starts from. -/
theorem mem_serve_of_entry {a : Analyzer} {memory : Memory} {log : Cdl.Store}
    {snapshot : Snapshot} {map : MemoryMap} {l : Location} {insn : Instruction}
    {entries : List Int} {workers : Int}
    (made : Cdl.Store.forBanks memory a.banks.declared = .ok log)
    (valid : MemoryMap.ofSnapshot a.banks snapshot = .ok map) (distinct : map.DistinctPositions)
    (order : Order) (schedule : Schedule) (entry : (l.address : Int) ∈ entries)
    (staffed : 1 ≤ workers)
    (accepted : (a.scene map log []).Accepts l.address l insn) :
    (snapshot.unversioned, insn) ∈
      (a.serve { store := log }
        ⟨order, snapshot, entries, workers, none, schedule⟩).journal.entries := by
  have madeFor : ({ store := log } : Analysis).store.MadeFor a.banks.declared :=
    ⟨memory, log, made, rfl⟩
  obtain ⟨loaded, ran⟩ := a.ran_of_run madeFor valid order schedule entries staffed none
  have unread := Cdl.Store.loadedAt_of_forBanks made
  obtain rfl := MemoryMap.loadedStarts_eq_nil (fun m _ => unread m.position) ran.loaded_eq
  have complete := Traversal.isComplete_run (a.scene map log []) order
    (schedule.ofWorkers workers) (a.seeds map entries ++ [])
  have believed := ran.believed_of_entry distinct complete entry accepted
  have recorded :
      (a.serve { store := log } ⟨order, snapshot, entries, workers, none, schedule⟩).journal = _ :=
    ran.journal_eq
  rw [recorded]
  exact Journal.mem_record_empty.mpr ⟨rfl, believed⟩

/-- A request for a run from the first byte of a single bank. -/
def soleRequest : Request := ⟨.fifo, {}, [0x8000], 1, none, .inOrder⟩

/-- The request records the instruction at the first byte. -/
theorem has_sole : (sole.serveAll { store := soleLog } [soleRequest]).journal.Has {} 0x8000 := by
  have distinct : soleMap.DistinctPositions := MemoryMap.SlicesApart.distinctPositions (by decide)
  refine ⟨soleInstruction, ?_, rfl⟩
  exact mem_serve_of_entry (l := soleStart) forBanks_sole
    ofSnapshot_sole distinct .fifo .inOrder List.mem_cons_self (Int.le_refl 1) accepts_sole

/-- Whatever requests have been served, every entry of the journal is the instruction that the banks
have at its address, and there was reason to believe it. -/
theorem recorded_justified (a : Analyzer) (log : Cdl.Store) (made : log.MadeFor a.banks.declared)
    (requests : List Request) :
    ∀ s insn, (s, insn) ∈ (a.serveAll { store := log } requests).journal.entries →
      ∃ map l, a.Justifies log s insn map l := by
  have tracks := (a.tracks_start log).serveAll made requests
  exact tracks.justified

/-- Behind the request the instruction at the first byte is justified. -/
theorem recorded_justified_sole : ∃ insn map l, insn.address = 0x8000 ∧
    sole.Justifies soleLog {} insn map l := by
  obtain ⟨insn, member, address⟩ := has_sole
  obtain ⟨map, l, justifies⟩ :=
    recorded_justified sole soleLog madeFor_sole [soleRequest] {} insn member
  exact ⟨insn, map, l, address, justifies⟩

/-- Whatever requests have been served, the log differs from the one at the beginning by the code
bits of the instructions in the journal and by the data bits of the vectors that could be read. -/
theorem log_effect (a : Analyzer) (log : Cdl.Store) (made : log.MadeFor a.banks.declared)
    (requests : List Request) :
    (a.serveAll { store := log } requests).store.sizes = log.sizes ∧
      ∀ p, log.Has p →
        (Cdl.hasAny Cdl.code ((a.serveAll { store := log } requests).store.byteAt p) = true ↔
          Cdl.hasAny Cdl.code (log.byteAt p) = true ∨
            a.Encodes (a.serveAll { store := log } requests).journal p) ∧
        (Cdl.hasAny Cdl.data ((a.serveAll { store := log } requests).store.byteAt p) = true ↔
          Cdl.hasAny Cdl.data (log.byteAt p) = true ∨ ∃ r ∈ requests, a.ReadsVectorAt r p) ∧
        (a.serveAll { store := log } requests).store.byteAt p &&& 0xFC =
          log.byteAt p &&& 0xFC := by
  have tracks := (a.tracks_start log).serveAll made requests
  rw [List.nil_append] at tracks
  refine ⟨?_, ?_⟩
  · unfold Cdl.Store.sizes
    rw [tracks.reading]
  · intro p present
    exact ⟨tracks.code p present, tracks.data p present, tracks.rest p present⟩

/-- Behind the request the first byte of the bank is marked as code. -/
theorem log_effect_sole : Cdl.hasAny Cdl.code
    ((sole.serveAll { store := soleLog } [soleRequest]).store.byteAt ⟨soleBank.cdl, 0⟩) = true := by
  obtain ⟨insn, member, address⟩ := has_sole
  have present : soleLog.Has ⟨soleBank.cdl, 0⟩ := ⟨2, rfl, by decide, by decide⟩
  have effect := (log_effect sole soleLog madeFor_sole [soleRequest]).2 _ present
  refine effect.1.mpr (.inr ⟨{}, insn, soleMap, member, ofSnapshot_sole, 0, insn.length_pos,
    soleStart, ?_, rfl⟩)
  rw [address]
  exact accepts_sole.resolved

end Analyzer

end BankTrace
