import BankTrace.Proofs.MemoryMap.Cache
import BankTrace.Proofs.Trace.Preparation
import BankTrace.Proofs.Trace.Schedule

/-!
# Runs under memory maps that are kept

The banks of a snapshot are looked up where an address is resolved for the first time: at a vector,
if an interrupt is enabled, and otherwise where the loaded code is looked for. A memory map that is
found there may have been built for the banks in another order. A run cannot tell, because it
resolves addresses and goes through the mapped banks in ascending order, and nothing else. So it
answers as with a memory map of its own, and a run that is refused leaves no memory map.
-/

namespace BankTrace

section

variable {map other : MemoryMap} (same : other.active.Perm map.active)

include same

namespace MemoryMap

/-- Words are read alike. -/
theorem readWord_of_perm (addr : Int) : other.readWord addr = map.readWord addr := by
  unfold readWord
  rw [resolve_of_perm same]

/-- Vectors are read alike. -/
theorem readVector_of_perm (vector : Int) : other.readVector vector = map.readVector vector := by
  unfold readVector
  rw [resolve_of_perm same]

/-- The same handlers are found. -/
theorem handlers_of_perm (interrupts : List Interrupt) :
    other.handlers interrupts = map.handlers interrupts := by
  induction interrupts with
  | nil => rfl
  | cons interrupt rest ih => rw [handlers, handlers, ih, readVector_of_perm same]

/-- Vectors are at the same locations. -/
theorem vectorLocations_of_perm (interrupt : Interrupt) :
    other.vectorLocations interrupt = map.vectorLocations interrupt := by
  unfold vectorLocations
  rw [funext (resolve_of_perm same)]

/-- The same starts are in the loaded code. -/
theorem loadedStarts_of_perm (store : Cdl.Store) :
    other.loadedStarts store = map.loadedStarts store := by
  unfold loadedStarts
  rw [activeBanks_of_perm same]

end MemoryMap

/-- Instructions are refused alike. -/
theorem Policy.check_of_perm (settings : Settings) (space : AddressSpace) (insn : Instruction)
    (bank : String) :
    check settings space other insn bank = check settings space map insn bank := by
  have lies : ∀ addr, liesIn other bank addr = liesIn map bank addr := by
    intro addr
    unfold liesIn
    rw [MemoryMap.resolve_of_perm same]
  unfold check staysInBank
  rw [funext lies]

/-- Execution goes on alike. -/
theorem Instruction.successors_of_perm (insn : Instruction) :
    insn.successors other = insn.successors map := by
  unfold successors loadedSuccessors
  rw [MemoryMap.readVector_of_perm same, funext (MemoryMap.readWord_of_perm same)]

/-- A visit finds the same. -/
theorem Scene.visit_of_perm {scene : Scene} (here : scene.map = map)
    (claims : Registry Cdl.Position) (addr : Int) :
    Scene.visit { scene with map := other } claims addr = scene.visit claims addr := by
  subst here
  unfold visit candidate? inspect refusal?
  dsimp only
  rw [MemoryMap.resolve_of_perm same]
  simp only [Policy.check_of_perm same, Instruction.successors_of_perm same]

namespace Analyzer

/-- The vectors of handlers are marked alike. -/
theorem markHandlers_of_perm (a : Analyzer) (store : Cdl.Store)
    (handlers : List (Interrupt × Nat)) :
    a.markHandlers other store handlers = a.markHandlers map store handlers := by
  induction handlers generalizing store with
  | nil => rfl
  | cons pair rest ih =>
    rw [markHandlers, markHandlers, MemoryMap.vectorLocations_of_perm same]
    simp only [ih]

/-- The same seeds are found, and the same is marked. -/
theorem seedIn_of_perm (a : Analyzer) (store : Cdl.Store) (entries : List Int) :
    a.seedIn other store entries = a.seedIn map store entries := by
  unfold seedIn
  rw [MemoryMap.handlers_of_perm same]
  dsimp only
  rw [markHandlers_of_perm same]

/-- A traversal leaves the same. -/
theorem traverse_of_perm (a : Analyzer) (analysis : Analysis) (snapshot : Snapshot)
    (seeds loaded : List Int) (workers : Int) (limit : Option Int) :
    a.traverse analysis snapshot ⟨other, seeds, loaded⟩ workers limit =
      a.traverse analysis snapshot ⟨map, seeds, loaded⟩ workers limit := by
  have visits : ∀ claims addr,
      (a.scene other analysis.store loaded).visit claims addr =
        (a.scene map analysis.store loaded).visit claims addr :=
    @Scene.visit_of_perm map other same (a.scene map analysis.store loaded) rfl
  unfold traverse Start.addresses
  dsimp only
  rw [Traversal.run_congr visits]
  rfl

end Analyzer

end

namespace Analyzer

/-- The seeds of a run. A memory map is looked up where some interrupt is enabled. -/
def seedKeeping (a : Analyzer) (maps : MapCache) (before : Analysis) (snapshot : Snapshot)
    (entries : List Int) : MapCache × Answer (List Int) :=
  match Interrupt.enabled a.settings with
  | [] => (maps, ⟨before, [], .ok (entries.map wrapAddress)⟩)
  | _ =>
    match maps.lookup a.banks snapshot with
    | (maps, .error e) => (maps, ⟨before, [], .error e⟩)
    | (maps, .ok map) =>
      let (store, events, result) := a.seedIn map before.store entries
      (maps, ⟨{ before with store }, events, result⟩)

/-- What a run starts from. A memory map is looked up again for the loaded code. -/
def prepareKeeping (a : Analyzer) (maps : MapCache) (before : Analysis) (snapshot : Snapshot)
    (entries : List Int) : MapCache × Answer Start :=
  match a.seedKeeping maps { before with store := before.store.resetClaims } snapshot entries with
  | (maps, ⟨analysis, events, .error e⟩) => (maps, ⟨analysis, events, .error e⟩)
  | (maps, ⟨analysis, events, .ok seeds⟩) =>
    match maps.lookup a.banks snapshot with
    | (maps, .error e) => (maps, ⟨analysis, events, .error e⟩)
    | (maps, .ok map) =>
      (maps, ⟨analysis, events, do
        let loaded ← map.loadedStarts analysis.store
        return { map, seeds, loaded }⟩)

/-- A run whose memory maps are looked up among those that are kept. -/
def runKeeping (a : Analyzer) (maps : MapCache) (before : Analysis) (snapshot : Snapshot)
    (entries : List Int) (workers : Int) (limit : Option Int) : MapCache × Answer Result :=
  match checkWorkers workers with
  | .error e => (maps, ⟨before, [], .error e⟩)
  | .ok () =>
    let (maps, prepared) := a.prepareKeeping maps before snapshot entries
    (maps, prepared.bind fun analysis start => a.traverse analysis snapshot start workers limit)

section

variable (a : Analyzer) {maps : MapCache} (sound : maps.Sound a.banks) (before : Analysis)
  {snapshot : Snapshot} (entries : List Int)

include sound

/-- A snapshot that is refused is refused wherever a memory map is looked up first, nothing is
marked before, and no memory map is kept. -/
theorem prepareKeeping_of_error {e : ConfigError}
    (refused : MemoryMap.ofSnapshot a.banks snapshot = .error e) :
    a.prepareKeeping maps before snapshot entries =
      (maps, a.prepare before snapshot entries) := by
  have found := sound.lookup_of_error refused
  rw [a.prepare_of_invalid before refused]
  unfold prepareKeeping seedKeeping
  -- Either lookup may be the first one, and either comes before the first mark.
  cases Interrupt.enabled a.settings with
  | nil =>
    dsimp only
    rw [found]
  | cons interrupt rest =>
    dsimp only
    rw [found]

/-- Under a snapshot that is admitted a run is prepared as without memory maps that are kept, but
for the order of the banks in the map. -/
theorem prepareKeeping_of_ok {map : MemoryMap}
    (valid : MemoryMap.ofSnapshot a.banks snapshot = .ok map) :
    ∃ found kept, found.active.Perm map.active ∧ kept.Sound a.banks ∧
      a.prepareKeeping maps before snapshot entries =
        (kept, { a.prepare before snapshot entries with
          result := (a.prepare before snapshot entries).result.map fun start =>
            { start with map := found } }) := by
  obtain ⟨found, answer, same, keeps⟩ := sound.lookup_of_ok valid
  have lookup : maps.lookup a.banks snapshot = ((maps.lookup a.banks snapshot).1, .ok found) :=
    Prod.ext rfl answer
  have again := MapCache.lookup_of_kept keeps a.banks
  refine ⟨found, (maps.lookup a.banks snapshot).1, same, sound.lookup snapshot, ?_⟩
  unfold prepare prepareKeeping seedKeeping
  rw [valid]
  -- Without an interrupt the seeds need no map, and the first lookup is that for the loaded code.
  cases enabled : Interrupt.enabled a.settings with
  | nil =>
    have silent : a.seedIn map before.store.resetClaims entries =
        (before.store.resetClaims, [], .ok (entries.map wrapAddress)) := by
      unfold seedIn
      rw [enabled]
      rfl
    dsimp only
    rw [lookup, silent]
    dsimp only
    rw [MemoryMap.loadedStarts_of_perm same]
    cases map.loadedStarts before.store.resetClaims with
    | error e => rfl
    | ok loaded => rfl
  | cons interrupt rest =>
    dsimp only
    rw [lookup]
    dsimp only
    rw [seedIn_of_perm same]
    obtain ⟨store, events, result⟩ := a.seedIn map before.store.resetClaims entries
    cases result with
    | error e => rfl
    | ok seeds =>
      dsimp only
      rw [again]
      dsimp only
      rw [MemoryMap.loadedStarts_of_perm same]
      cases map.loadedStarts store with
      | error e => rfl
      | ok loaded => rfl

/-- A run answers and leaves the same whichever memory maps are kept, and where it is refused for
its snapshot no other one is kept. -/
theorem runKeeping_eq (workers : Int) (limit : Option Int) :
    (a.runKeeping maps before snapshot entries workers limit).2 =
        a.run before snapshot entries workers limit ∧
      (a.runKeeping maps before snapshot entries workers limit).1.Sound a.banks ∧
      ((workers < 1 ∨ ∃ e, MemoryMap.ofSnapshot a.banks snapshot = .error e) →
        (a.runKeeping maps before snapshot entries workers limit).1 = maps) := by
  unfold runKeeping
  rcases Int.lt_or_le workers 1 with idle | staffed
  · have unhired : checkWorkers workers = .error (.workers workers) := if_pos idle
    rw [a.run_of_idle before idle, unhired]
    exact ⟨rfl, sound, fun _ => rfl⟩
  · have hired : checkWorkers workers = .ok () := if_neg (by omega)
    rw [a.run_of_staffed before staffed, hired]
    dsimp only
    cases valid : MemoryMap.ofSnapshot a.banks snapshot with
    | error e =>
      rw [a.prepareKeeping_of_error sound before entries valid]
      exact ⟨rfl, sound, fun _ => rfl⟩
    | ok map =>
      obtain ⟨found, kept, same, sound', prepared⟩ :=
        a.prepareKeeping_of_ok sound before entries valid
      rw [prepared]
      refine ⟨?_, sound', ?_⟩
      · cases begun : (a.prepare before snapshot entries).result with
        | error e => rw [Answer.bind_of_error _ begun, Answer.bind_of_error _ rfl]
        | ok start =>
          have here := Except.ok.inj (valid.symm.trans (a.ofSnapshot_of_prepare begun))
          have traversed := traverse_of_perm same a (a.prepare before snapshot entries).analysis
            snapshot start.seeds start.loaded workers limit
          rw [Answer.bind_of_ok _ begun, Answer.bind_of_ok _ rfl]
          dsimp only
          rw [traversed, here]
      · rintro (idle | ⟨e, refused⟩)
        · omega
        · contradiction

end

end Analyzer

end BankTrace
