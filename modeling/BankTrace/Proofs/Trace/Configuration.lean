import BankTrace.Proofs.Failures
import BankTrace.Proofs.MemoryMap.Admission
import BankTrace.Trace.Analysis

/-!
# Runs and configuration errors

A run asks one question about the configuration: whether the banks admit the snapshot. Whatever else
goes wrong in it is no configuration error, also when the log lacks bytes of the banks or there is
no worker. As the snapshots of a bank set are admitted, running under all of them never ends with
one.
-/

namespace BankTrace

/-- An error of the file system, or an access outside a log. -/
def Error.IsStorage : Error → Prop
  | .file _ | .read _ => True
  | _ => False

/-- An error that is no configuration error. -/
def Error.NotConfig (e : Error) : Prop := ∀ c : ConfigError, e ≠ .config c

/-- An answer is not a configuration error. It may be another error. -/
abbrev NoConfigError {α : Type} (answer : Except Error α) : Prop :=
  FailsOnly Error.NotConfig answer

/-- An error of the storage is no configuration error. -/
theorem Error.IsStorage.notConfig {e : Error} (storage : e.IsStorage) : e.NotConfig := by
  rintro c rfl
  exact storage

namespace Cdl.Store

/-- A log file that is not found is an access outside the logs. -/
theorem failsOnly_file (s : Store) (spelt : Path.Spelling) :
    FailsOnly Error.IsStorage (s.file spelt) := by
  unfold file
  split
  · exact .ok _
  · exact .error trivial

/-- A range of a log file that is refused is refused for what the store holds. -/
theorem failsOnly_checkRange (s : Store) (spelt : Path.Spelling) (offset count : Int) :
    FailsOnly Error.IsStorage (s.checkRange spelt offset count) := by
  refine (s.failsOnly_file spelt).bind fun f _ => ?_
  split
  · exact .error trivial
  · exact .ok f

/-- A range that is refused is refused for no reason of the configuration. -/
theorem noConfigError_checkRange (s : Store) (spelt : Path.Spelling) (offset count : Int) :
    NoConfigError (s.checkRange spelt offset count) :=
  (s.failsOnly_checkRange spelt offset count).mono fun _ storage => storage.notConfig

/-- A mark that cannot be made is no configuration error. -/
theorem noConfigError_markRange (s : Store) (path : Path) (offset count : Int) (mask : Mask) :
    NoConfigError (s.markRange path offset count mask) :=
  (s.noConfigError_checkRange path offset count).bind fun _ _ => .ok _

end Cdl.Store

/-- Loaded code that cannot be swept is no configuration error. -/
theorem MemoryMap.noConfigError_loadedStarts (map : MemoryMap) (store : Cdl.Store) :
    NoConfigError (map.loadedStarts store) := by
  unfold loadedStarts LoadedBank.loadedStarts Cdl.Store.loadedRuns
  refine FailsOnly.bind (.mapM fun b _ => ?_) fun _ _ => .ok _
  refine FailsOnly.bind ?_ fun _ _ => .ok _
  exact FailsOnly.bind (store.noConfigError_checkRange _ _ _) fun _ _ => .ok _

/-- Requests one after the other end without a configuration error when each of them does. -/
theorem Answer.noConfigError_bind {α β : Type} {answer : Answer α} {next : Analysis → α → Answer β}
    (first : NoConfigError answer.result)
    (second : ∀ analysis a, NoConfigError (next analysis a).result) :
    NoConfigError (answer.bind next).result := by
  cases found : answer.result with
  | error other =>
    rw [found] at first
    rw [bind_of_error _ found]
    exact .of_error first
  | ok a =>
    rw [bind_of_ok _ found]
    exact second answer.analysis a

namespace Analyzer

/-- Marking locations meets no configuration error. -/
theorem noConfigError_markEach (store : Cdl.Store) (mask : Cdl.Mask) (locations : List Location) :
    NoConfigError (markEach store mask locations).2 := by
  induction locations generalizing store with
  | nil => exact .ok ()
  | cons l rest ih =>
    have first := store.noConfigError_markRange l.position.file l.position.offset 1 mask
    unfold markEach
    cases marked : store.markRange l.position.file l.position.offset 1 mask with
    | error other =>
      rw [marked] at first
      exact .of_error first
    | ok behind => exact ih behind

/-- A run has a worker or is refused for that. -/
theorem noConfigError_checkWorkers (workers : Int) : NoConfigError (checkWorkers workers) := by
  unfold checkWorkers
  split
  · exact .error fun _ => nofun
  · exact .ok ()

section

variable (a : Analyzer)

/-- Marking vectors meets no configuration error. -/
theorem noConfigError_markHandlers {map : MemoryMap} {store after : Cdl.Store}
    {handlers : List (Interrupt × Nat)} {events : List Event} {answer : Except Error Unit}
    (done : a.markHandlers map store handlers = (after, events, answer)) :
    NoConfigError answer := by
  induction handlers generalizing store events with
  | nil =>
    obtain ⟨_, _, rfl⟩ := done
    exact .ok ()
  | cons pair rest ih =>
    obtain ⟨interrupt, handler⟩ := pair
    have first := noConfigError_markEach store Cdl.data (map.vectorLocations interrupt)
    rw [markHandlers] at done
    cases marked : markEach store Cdl.data (map.vectorLocations interrupt) with
    | mk behind result =>
    rw [marked] at done first
    cases result with
    | error other =>
      obtain ⟨_, _, rfl⟩ := done
      exact .of_error first
    | ok _ =>
      cases others : a.markHandlers map behind rest with
      | mk last answers =>
      obtain ⟨said, result⟩ := answers
      dsimp only at done
      rw [others] at done
      simp only [Prod.mk.injEq] at done
      obtain ⟨rfl, _, rfl⟩ := done
      exact ih others

/-- Seeding under a map meets no configuration error. -/
theorem noConfigError_seedIn (map : MemoryMap) (store : Cdl.Store) (entries : List Int) :
    NoConfigError (a.seedIn map store entries).2.2 := by
  unfold seedIn
  dsimp only
  cases marked : a.markHandlers map store (map.handlers (Interrupt.enabled a.settings)).2 with
  | mk after answers =>
  exact FailsOnly.map (a.noConfigError_markHandlers marked) _

variable {a} {analysis : Analysis} {snapshot : Snapshot} {map : MemoryMap}

/-- Under a snapshot that the banks admit seeding meets no configuration error. -/
theorem noConfigError_seed (valid : MemoryMap.ofSnapshot a.banks snapshot = .ok map)
    (analysis : Analysis) (entries : List Int) :
    NoConfigError (a.seed analysis snapshot entries).result := by
  unfold seed
  split
  · exact .ok _
  · rw [valid]
    exact a.noConfigError_seedIn map analysis.store entries

/-- Under a snapshot that the banks admit a preparation meets no configuration error. -/
theorem noConfigError_prepare (valid : MemoryMap.ofSnapshot a.banks snapshot = .ok map)
    (analysis : Analysis) (entries : List Int) :
    NoConfigError (a.prepare analysis snapshot entries).result := by
  unfold prepare
  rw [valid]
  refine FailsOnly.bind (a.noConfigError_seedIn map _ entries) fun _ _ => ?_
  exact FailsOnly.bind (map.noConfigError_loadedStarts _) fun _ _ => .ok _

/-- Under a snapshot that the banks admit a run meets no configuration error. -/
theorem noConfigError_run (valid : MemoryMap.ofSnapshot a.banks snapshot = .ok map)
    (analysis : Analysis) (entries : List Int) (workers : Int) (limit : Option Int) :
    NoConfigError (a.run analysis snapshot entries workers limit).result :=
  Answer.noConfigError_bind (noConfigError_checkWorkers workers) fun analysis _ =>
    Answer.noConfigError_bind (noConfigError_prepare valid analysis entries) fun _ _ => .ok _

/-- Under snapshots that the banks admit runs meet no configuration error. -/
theorem noConfigError_runAll {snapshots : List Snapshot}
    (valid : ∀ s ∈ snapshots, ∃ map, MemoryMap.ofSnapshot a.banks s = .ok map)
    (analysis : Analysis) (entries : List Int) (workers : Int) (limit : Option Int) :
    NoConfigError (a.runAll analysis entries workers limit snapshots).result := by
  induction snapshots generalizing analysis with
  | nil => exact .ok []
  | cons s rest ih =>
    obtain ⟨map, admitted⟩ := valid s List.mem_cons_self
    have later := ih fun t member => valid t (List.mem_cons_of_mem s member)
    exact Answer.noConfigError_bind (noConfigError_run admitted analysis entries workers limit)
      fun analysis _ => Answer.noConfigError_bind (later analysis) fun _ _ => .ok _

end

end Analyzer

/-- The snapshots of a set are admitted and leave nothing out. Banks that form a layout become a
bank set whatever their images are. Every snapshot of the set is admitted: it maps the fixed banks
and the one that it selects, and each of them with all its bytes. Every switchable bank is selected
by one snapshot alone, and every byte of every bank is mapped by one. So to run under all of them
never ends with a configuration error, whatever the settings, the log and the entries are. -/
theorem BankSet.snapshots_cover {banks : List Bank} (layout : Layout.check banks = .ok ())
    (image : String → Option (Array UInt8)) :
    ∃ set events, BankSet.ofImages banks image = .ok (set, events) ∧ set.declared = banks ∧
      (∀ s ∈ set.snapshots, ∃ map, MemoryMap.ofSnapshot set s = .ok map ∧
        (∀ b, b ∈ map.active ↔ b ∈ set.banks ∧ (b.fixed = true ∨ s.Selects b.name)) ∧
        ∀ b ∈ map.active, ∀ offset : Fin b.size,
          map.resolve (b.start + offset) = some ⟨b, offset⟩) ∧
      (∀ b ∈ set.banks, b.fixed = false →
        set.snapshots.countP (fun s => s.Selects b.name) = 1) ∧
      (∀ b ∈ set.banks, ∃ s ∈ set.snapshots, ∃ map, MemoryMap.ofSnapshot set s = .ok map ∧
        ∀ offset : Fin b.size, map.resolve (b.start + offset) = some ⟨b, offset⟩) ∧
      ∀ a : Analyzer, a.banks = set → ∀ analysis entries workers limit, ∀ e : ConfigError,
        (a.runAll analysis entries workers limit set.snapshots).result ≠ .error (.config e) := by
  obtain ⟨set, events, made, declared⟩ := exists_ofImages layout image
  refine ⟨set, events, made, declared, ?admitted, ?selected, ?mapped, ?run⟩
  case admitted =>
    intro s member
    obtain ⟨map, valid, active⟩ := MemoryMap.ofSnapshot_of_mem_snapshots member
    exact ⟨map, valid, active, fun b mapped => map.resolve_in_full mapped⟩
  case selected =>
    intro b member unfixed
    exact countP_snapshots (mem_switchable.mpr ⟨member, unfixed⟩)
  case mapped =>
    intro b member
    obtain ⟨s, listed, selects⟩ := exists_snapshot member
    obtain ⟨map, valid, active⟩ := MemoryMap.ofSnapshot_of_mem_snapshots listed
    exact ⟨s, listed, map, valid, map.resolve_in_full ((active b).mpr ⟨member, selects⟩)⟩
  case run =>
    rintro a rfl analysis entries workers limit e failed
    have admitted : ∀ s ∈ a.banks.snapshots, ∃ map, MemoryMap.ofSnapshot a.banks s = .ok map := by
      intro s member
      obtain ⟨map, valid, _⟩ := MemoryMap.ofSnapshot_of_mem_snapshots member
      exact ⟨map, valid⟩
    have none := Analyzer.noConfigError_runAll admitted analysis entries workers limit
    exact none (.config e) failed e rfl

/-- A fixed bank behind two switchable ones, of which one lies inside the window of the other. -/
def nestedBanks : List Bank :=
  [ { name := "top", start := 0xC000, size := 0x4000, file := ⟨.relative, ["image"]⟩
      cdl := ⟨.relative, ["log"]⟩, fileOffset := 0x6000, cdlOffset := 0x6000, fixed := true
      name_ne := by decide, size_power := ⟨14, rfl⟩, size_dvd := by decide, end_le := by decide },
    { name := "wide", start := 0x8000, size := 0x4000, file := ⟨.relative, ["image"]⟩
      cdl := ⟨.relative, ["log"]⟩, fileOffset := 0, cdlOffset := 0, fixed := false
      name_ne := by decide, size_power := ⟨14, rfl⟩, size_dvd := by decide, end_le := by decide },
    { name := "narrow", start := 0xA000, size := 0x2000, file := ⟨.relative, ["image"]⟩
      cdl := ⟨.relative, ["log"]⟩, fileOffset := 0x4000, cdlOffset := 0x4000, fixed := false
      name_ne := by decide, size_power := ⟨13, rfl⟩, size_dvd := by decide, end_le := by decide }]

/-- The nested banks form a layout with one snapshot for each switchable bank, and both snapshots
are admitted. -/
theorem BankSet.snapshots_cover_nested : Layout.check nestedBanks = .ok () ∧
    ∃ set events, ofImages nestedBanks (fun _ => none) = .ok (set, events) ∧
      set.snapshots = [⟨[(0x8000, "wide")], 0⟩, ⟨[(0xA000, "narrow")], 0⟩] ∧
      ∀ s ∈ set.snapshots, ∃ map, MemoryMap.ofSnapshot set s = .ok map := by
  have layout : Layout.check nestedBanks = .ok () := by decide
  obtain ⟨set, events, made, _, admitted, _⟩ :=
    snapshots_cover layout fun _ => none
  refine ⟨layout, set, events, made, ?_, ?_⟩
  · obtain ⟨rfl, _⟩ := Prod.mk.inj (Except.ok.inj made)
    rfl
  · intro s member
    obtain ⟨map, valid, _⟩ := admitted s member
    exact ⟨map, valid⟩

end BankTrace
