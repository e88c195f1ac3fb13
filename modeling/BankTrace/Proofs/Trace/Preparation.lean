import BankTrace.Proofs.MemoryMap.Positions
import BankTrace.Proofs.Trace.LoadedCode
import BankTrace.Trace.Analysis

/-!
# Preparing a run

In a store that was made for the banks a run can be prepared under every snapshot that the banks
admit: the two bytes of every vector whose handler can be read are marked as data, and the start
consists of the handlers, the entries and the loaded code. Under any other snapshot only the claims
of earlier runs are given up.
-/

namespace BankTrace

/-- A mark can be made where the store has the byte. -/
theorem Cdl.Store.markRange_eq {s : Cdl.Store} {p : Cdl.Position} (present : s.Has p)
    (mask : Cdl.Mask) : s.markRange p.file p.offset 1 mask = .ok (s.mark p 1 mask) := by
  obtain ⟨size, sized, start, stop⟩ := present
  exact markRange_of_room ⟨size, sized, Nat.le_refl size⟩ start stop mask

/-- A store that was made for the declared banks has the byte of every location in them. -/
theorem Cdl.Store.MadeFor.has_position {set : BankSet} {s : Cdl.Store}
    (made : s.MadeFor set.declared) {l : Location} (member : l.bank ∈ set.banks) :
    s.Has l.position :=
  made.has (BankSet.mem_declared member) l.offset.isLt

namespace MemoryMap

/-- A vector has its bytes at locations that its addresses resolve to, in banks with an image. -/
theorem mem_vectorLocations {map : MemoryMap} {interrupt : Interrupt} {l : Location} :
    l ∈ map.vectorLocations interrupt ↔
      (∃ i : Nat, i < 2 ∧ map.resolve (interrupt.vector + i) = some l) ∧
        l.bank.isAnalyzable = true := by
  unfold vectorLocations
  simp only [List.mem_filter, List.mem_filterMap, List.mem_cons, List.not_mem_nil, or_false,
    exists_eq_or_imp, exists_eq_left]
  refine and_congr_left fun _ => ?_
  constructor
  · rintro (low | high)
    · exact ⟨0, Nat.zero_lt_two, by simpa using low⟩
    · exact ⟨1, Nat.one_lt_two, high⟩
  · rintro ⟨i, bound, found⟩
    obtain rfl | rfl : i = 0 ∨ i = 1 := by omega
    · exact .inl (by simpa using found)
    · exact .inr found

/-- A vector is read exactly as the word at its address. -/
theorem readVector_snd (map : MemoryMap) (vector : Int) :
    (map.readVector vector).2 = map.readWord vector := by
  unfold readVector readWord
  cases found : map.resolve vector with
  | none => rfl
  | some l =>
    cases word : l.word? with
    | none => simp [word]
    | some handler => simp [word]

/-- The handler of each interrupt is the word at its vector, if that can be read. -/
theorem handlers_snd (map : MemoryMap) (interrupts : List Interrupt) :
    (map.handlers interrupts).2 = interrupts.flatMap fun interrupt =>
      (map.readWord interrupt.vector).toList.map fun handler => (interrupt, handler) := by
  induction interrupts with
  | nil => rfl
  | cons first rest ih =>
    have word := readVector_snd map first.vector
    rw [List.flatMap_cons, ← ih, ← word, handlers]
    generalize map.readVector first.vector = reading
    obtain ⟨events, read⟩ := reading
    cases read with
    | none => rfl
    | some handler => rfl

/-- The handlers are the words that can be read at the vectors. -/
theorem mem_handlers {map : MemoryMap} {interrupts : List Interrupt} {interrupt : Interrupt}
    {handler : Nat} :
    (interrupt, handler) ∈ (map.handlers interrupts).2 ↔
      interrupt ∈ interrupts ∧ map.readWord interrupt.vector = some handler := by
  rw [handlers_snd, List.mem_flatMap]
  simp only [List.mem_map, Option.mem_toList, Prod.mk.injEq]
  constructor
  · rintro ⟨first, enabled, value, read, rfl, rfl⟩
    exact ⟨enabled, read⟩
  · rintro ⟨enabled, read⟩
    exact ⟨interrupt, enabled, handler, read, rfl, rfl⟩

end MemoryMap

namespace Analyzer

/-- The handlers that a run starts from. -/
def handlersIn (a : Analyzer) (map : MemoryMap) : List (Interrupt × Nat) :=
  (map.handlers (Interrupt.enabled a.settings)).2

/-- The handlers and the further addresses that a run starts from. -/
def seeds (a : Analyzer) (map : MemoryMap) (entries : List Int) : List Int :=
  (a.handlersIn map).map (fun (_, handler) => (handler : Int)) ++ entries.map wrapAddress

/-- The marks on the vectors of handlers. -/
def vectorMarks (map : MemoryMap) (handlers : List (Interrupt × Nat)) : List Cdl.Mark :=
  handlers.flatMap fun (interrupt, _) =>
    (map.vectorLocations interrupt).map fun l => ⟨l.position, 1, Cdl.data⟩

/-- The locations are marked one by one when the store has all their bytes. -/
theorem markEach_eq {store : Cdl.Store} {mask : Cdl.Mask} {locations : List Location}
    (present : ∀ l ∈ locations, store.Has l.position) :
    markEach store mask locations =
      (store.markAll (locations.map fun l => ⟨l.position, 1, mask⟩), .ok ()) := by
  induction locations generalizing store with
  | nil => rfl
  | cons l rest ih =>
    have first := Cdl.Store.markRange_eq (present l List.mem_cons_self) mask
    have behind : ∀ other ∈ rest, (store.mark l.position 1 mask).Has other.position := by
      intro other later
      rw [Cdl.Store.has_congr (Cdl.Store.reading_mark ..)]
      exact present other (List.mem_cons_of_mem l later)
    rw [markEach, first]
    exact ih behind

/-- A store that was made for banks stays so when bytes are marked. -/
theorem madeFor_markAll {banks : List Bank} {store : Cdl.Store} (made : store.MadeFor banks)
    (marks : List Cdl.Mark) : (store.markAll marks).MadeFor banks :=
  made.of_reading (Cdl.Store.reading_markAll store marks)

/-- The vectors of handlers are marked as data in a store that was made for the banks. -/
theorem markHandlers_eq (a : Analyzer) {map : MemoryMap} {store : Cdl.Store}
    (made : store.MadeFor a.banks.declared) (mapped : ∀ b ∈ map.active, b ∈ a.banks.banks)
    (handlers : List (Interrupt × Nat)) :
    ∃ events, a.markHandlers map store handlers =
      (store.markAll (vectorMarks map handlers), events, .ok ()) := by
  induction handlers generalizing store with
  | nil => exact ⟨[], rfl⟩
  | cons pair rest ih =>
    obtain ⟨interrupt, handler⟩ := pair
    have present : ∀ l ∈ map.vectorLocations interrupt, store.Has l.position := by
      intro l member
      obtain ⟨⟨i, _, found⟩, _⟩ := MemoryMap.mem_vectorLocations.mp member
      exact made.has_position (mapped l.bank (MemoryMap.resolve_eq_some_iff.mp found).1)
    obtain ⟨events, later⟩ := ih (madeFor_markAll made
      ((map.vectorLocations interrupt).map fun l => ⟨l.position, 1, Cdl.data⟩))
    have joined : vectorMarks map ((interrupt, handler) :: rest) =
        (map.vectorLocations interrupt).map (fun l => ⟨l.position, 1, Cdl.data⟩) ++
          vectorMarks map rest :=
      List.flatMap_cons
    rw [markHandlers, markEach_eq present, joined, Cdl.Store.markAll_append]
    dsimp only
    rw [later]
    exact ⟨_, rfl⟩

/-- The addresses to start from are found, and the vectors of the handlers are marked. -/
theorem seedIn_eq (a : Analyzer) {map : MemoryMap} {store : Cdl.Store}
    (made : store.MadeFor a.banks.declared) (mapped : ∀ b ∈ map.active, b ∈ a.banks.banks)
    (entries : List Int) :
    ∃ events, a.seedIn map store entries =
      (store.markAll (vectorMarks map (a.handlersIn map)), events, .ok (a.seeds map entries)) := by
  obtain ⟨events, marked⟩ := a.markHandlers_eq made mapped (a.handlersIn map)
  unfold handlersIn at marked
  unfold seedIn
  dsimp only
  rw [marked]
  exact ⟨_, rfl⟩

/-- Under a snapshot that the banks admit the seeds are found. -/
theorem result_seed_eq (a : Analyzer) {analysis : Analysis} {snapshot : Snapshot} {map : MemoryMap}
    (made : analysis.store.MadeFor a.banks.declared)
    (valid : MemoryMap.ofSnapshot a.banks snapshot = .ok map) (entries : List Int) :
    (a.seed analysis snapshot entries).result = .ok (a.seeds map entries) := by
  unfold seed
  split
  case h_1 none =>
    unfold seeds handlersIn
    rw [none]
    rfl
  case h_2 =>
    obtain ⟨events, seeded⟩ :=
      a.seedIn_eq made (fun _ => MemoryMap.mem_banks_of_mem_active valid) entries
    rw [valid]
    dsimp only
    rw [seeded]

/-- Under a snapshot that the banks do not admit nothing is marked. -/
theorem prepare_of_invalid (a : Analyzer) (analysis : Analysis) {snapshot : Snapshot}
    {error : ConfigError} (invalid : MemoryMap.ofSnapshot a.banks snapshot = .error error)
    (entries : List Int) :
    a.prepare analysis snapshot entries =
      ⟨{ analysis with store := analysis.store.resetClaims }, [], .error error⟩ := by
  unfold prepare
  rw [invalid]

/-- Under a snapshot that the banks admit a run is prepared: the vectors of the handlers are marked
and all starts are found. -/
theorem prepare_of_valid (a : Analyzer) {analysis : Analysis} {snapshot : Snapshot}
    {map : MemoryMap} (made : analysis.store.MadeFor a.banks.declared)
    (valid : MemoryMap.ofSnapshot a.banks snapshot = .ok map) (entries : List Int) :
    ∃ events loaded, map.loadedStarts analysis.store = .ok loaded ∧
      a.prepare analysis snapshot entries =
        ⟨{ analysis with
            store := analysis.store.resetClaims.markAll (vectorMarks map (a.handlersIn map)) },
          events, .ok ⟨map, a.seeds map entries, loaded⟩⟩ := by
  have mapped : ∀ b ∈ map.active, b ∈ a.banks.banks :=
    fun _ => MemoryMap.mem_banks_of_mem_active valid
  obtain ⟨loaded, found⟩ := MemoryMap.exists_loadedStarts made
    fun b member => BankSet.mem_declared (mapped b member)
  have reset : analysis.store.resetClaims.MadeFor a.banks.declared := made.of_sizes rfl
  obtain ⟨events, seeded⟩ := a.seedIn_eq reset mapped entries
  have swept : map.loadedStarts
      (analysis.store.resetClaims.markAll (vectorMarks map (a.handlersIn map))) = .ok loaded := by
    rw [← found]
    exact MemoryMap.loadedStarts_congr (.of_reading (Cdl.Store.reading_markAll ..)) map
  refine ⟨events, loaded, found, ?_⟩
  unfold prepare
  dsimp only
  rw [valid]
  dsimp only
  rw [seeded]
  dsimp only
  rw [swept]
  rfl

/-- What is prepared is mapped under the snapshot. -/
theorem ofSnapshot_of_prepare (a : Analyzer) {before : Analysis} {snapshot : Snapshot}
    {entries : List Int} {start : Start}
    (begun : (a.prepare before snapshot entries).result = .ok start) :
    MemoryMap.ofSnapshot a.banks snapshot = .ok start.map := by
  unfold prepare at begun
  cases valid : MemoryMap.ofSnapshot a.banks snapshot with
  | error e => simp [valid] at begun
  | ok map =>
    rw [valid] at begun
    dsimp only at begun
    generalize (a.seedIn map before.store.resetClaims entries).2.2 = seeds at begun
    generalize map.loadedStarts (a.seedIn map before.store.resetClaims entries).1 = loaded at begun
    cases seeds with
    | error e => contradiction
    | ok seeds =>
      cases loaded with
      | error e => contradiction
      | ok loaded => rw [← Except.ok.inj begun]

section

variable (a : Analyzer) (before : Analysis) {snapshot : Snapshot} {entries : List Int}
  {workers : Int}

/-- Without a worker nothing is done. -/
theorem run_of_idle (idle : workers < 1) (snapshot : Snapshot) (entries : List Int)
    (limit : Option Int) :
    a.run before snapshot entries workers limit = ⟨before, [], .error (.workers workers)⟩ := by
  unfold run checkWorkers
  rw [if_pos idle]
  rfl

/-- With a worker a run is prepared and then goes on to its traversal. -/
theorem run_of_staffed (staffed : 1 ≤ workers) (snapshot : Snapshot) (entries : List Int)
    (limit : Option Int) :
    a.run before snapshot entries workers limit =
      (a.prepare before snapshot entries).bind fun analysis start =>
        a.traverse analysis snapshot start workers limit := by
  have hired : checkWorkers workers = .ok () := if_neg (by omega)
  unfold run
  rw [hired, Answer.ofExcept_ok_bind]

/-- Under a snapshot that is refused the claims are given up, and nothing else is done. -/
theorem run_of_refused (staffed : 1 ≤ workers) {error : ConfigError}
    (refused : MemoryMap.ofSnapshot a.banks snapshot = .error error) (entries : List Int)
    (limit : Option Int) :
    a.run before snapshot entries workers limit =
      ⟨{ before with store := before.store.resetClaims }, [], .error error⟩ := by
  rw [a.run_of_staffed before staffed, a.prepare_of_invalid before refused]
  rfl

/-- A run that has been prepared is the traversal from what it starts from. -/
theorem run_of_prepared {before} (staffed : 1 ≤ workers) {start : Start}
    (begun : (a.prepare before snapshot entries).result = .ok start) (limit : Option Int) :
    a.run before snapshot entries workers limit =
      { a.traverse (a.prepare before snapshot entries).analysis snapshot start workers limit with
        events := (a.prepare before snapshot entries).events ++
          (a.traverse (a.prepare before snapshot entries).analysis snapshot start workers
            limit).events } := by
  rw [a.run_of_staffed before staffed, Answer.bind_of_ok _ begun]

end

/-- Seeding leaves the journal alone. -/
theorem journal_seed (a : Analyzer) (before : Analysis) (snapshot : Snapshot)
    (entries : List Int) : (a.seed before snapshot entries).analysis.journal = before.journal := by
  unfold seed
  split
  · rfl
  · cases MemoryMap.ofSnapshot a.banks snapshot with
    | error e => rfl
    | ok map => rfl

/-- A preparation leaves the journal alone. -/
theorem journal_prepare (a : Analyzer) (before : Analysis) (snapshot : Snapshot)
    (entries : List Int) :
    (a.prepare before snapshot entries).analysis.journal = before.journal := by
  unfold prepare
  cases MemoryMap.ofSnapshot a.banks snapshot with
  | error e => rfl
  | ok map => rfl

end Analyzer

end BankTrace
