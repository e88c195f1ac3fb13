import BankTrace.Proofs.Cdl.Disk
import BankTrace.Proofs.Trace.Exactness

/-!
# Logs that are written and read again

In a cycle a log is read from disk, a run without limit is made on it, the log is written, and
another store is read from what is on disk then. As long as the log paths lead to different places,
the second store has at every byte what the run left there, apart from bytes that the run left
alone: these can differ where the way to a log file did not exist at first.
-/

namespace BankTrace

namespace Analyzer

/-- A log is read from disk, run on without limit, written and read again. -/
structure Cycle (a : Analyzer) (snapshot : Snapshot) (entries : List Int)
    (fs written : FileSystem) (before again : Cdl.Store) : Prop where
  /-- The log was read into a store that was made for the banks. -/
  first : ∃ memory blank, Cdl.Store.forBanks memory a.banks.declared = .ok blank ∧
    Cdl.Store.ReadFrom fs blank before
  /-- What the run left has been written. -/
  flushed : ∃ saved events paths,
    (a.run { store := before } snapshot entries 1 none).analysis.store.flush fs =
      (saved, written, events, .ok paths)
  /-- It was read into another store that was made for the banks. -/
  second : ∃ memory blank, Cdl.Store.forBanks memory a.banks.declared = .ok blank ∧
    Cdl.Store.ReadFrom written blank again

section

variable {a : Analyzer} {snapshot : Snapshot} {map : MemoryMap} {entries loaded : List Int}
  {fs written : FileSystem} {before again : Cdl.Store} {t : Traversal} {p : Cdl.Position}

/-- The store in front of the run was made for the banks. -/
theorem Cycle.madeFor (cycle : a.Cycle snapshot entries fs written before again) :
    before.MadeFor a.banks.declared := by
  obtain ⟨memory, blank, made, read⟩ := cycle.first
  exact ⟨memory, blank, made, read.sizes_eq⟩

/-- The second store was made for the banks. -/
theorem Cycle.madeFor_again (cycle : a.Cycle snapshot entries fs written before again) :
    again.MadeFor a.banks.declared := by
  obtain ⟨memory, blank, made, read⟩ := cycle.second
  exact ⟨memory, blank, made, read.sizes_eq⟩

/-- Both stores have the same bytes. -/
theorem Cycle.sizes_eq (cycle : a.Cycle snapshot entries fs written before again) :
    again.sizes = before.sizes := by
  rw [cycle.madeFor_again.sizes_eq, cycle.madeFor.sizes_eq]

/-- Both stores have the bytes at the same positions. -/
theorem Cycle.has_iff (cycle : a.Cycle snapshot entries fs written before again) :
    again.Has p ↔ before.Has p := by
  unfold Cdl.Store.Has
  rw [cycle.sizes_eq]

/-- Starts are recovered from the second store, whether there are any or not. -/
theorem Cycle.exists_loadedStarts (cycle : a.Cycle snapshot entries fs written before again)
    (valid : MemoryMap.ofSnapshot a.banks snapshot = .ok map) :
    ∃ starts, map.loadedStarts again = .ok starts ∧ a.loadedStarts again snapshot = .ok starts := by
  obtain ⟨starts, swept⟩ := MemoryMap.exists_loadedStarts cycle.madeFor_again fun b member =>
    BankSet.mem_declared (MemoryMap.mem_banks_of_mem_active valid member)
  refine ⟨starts, swept, ?_⟩
  unfold Analyzer.loadedStarts
  rw [valid]
  exact swept

/-- The bytes in front of the run are those on disk, or zeros. -/
theorem Cycle.byteAt_cases (cycle : a.Cycle snapshot entries fs written before again)
    (present : before.Has p) : before.byteAt p = 0 ∨ before.byteAt p = fs.byteAt p := by
  obtain ⟨_, blank, _, read⟩ := cycle.first
  rw [(read.byteAt_eq p).1]
  exact read.loadedAt_cases present

/-- A byte that a run leaves clean is as it was in front of the run. -/
theorem Ran.byteAt_of_clean {before after : Analysis}
    (ran : a.Ran before snapshot map entries loaded t after)
    (clean : after.store.dirtyAt p = false) : after.store.byteAt p = before.store.byteAt p := by
  rw [ran.store_eq] at clean ⊢
  exact (Cdl.Store.byteAt_of_clean_markAll clean).2

/-- A byte that a run makes code is dirty. -/
theorem Ran.dirtyAt_of_code {before after : Analysis}
    (ran : a.Ran before snapshot map entries loaded t after)
    (unmarked : Cdl.hasAny Cdl.code (before.store.byteAt p) = false)
    (marked : Cdl.hasAny Cdl.code (after.store.byteAt p) = true) :
    after.store.dirtyAt p = true := by
  cases clean : after.store.dirtyAt p with
  | true => rfl
  | false =>
    rw [ran.byteAt_of_clean clean, unmarked] at marked
    contradiction

/-- The second store has what the run left, at least where the run changed something. Everywhere
else both have bytes from the first disk, or zeros. -/
theorem Cycle.loadedAt_cases (cycle : a.Cycle snapshot entries fs written before again)
    (apart : (before.paths.map fs.placeOf).Nodup)
    (ran : a.Ran { store := before } snapshot map entries loaded t
      (a.run { store := before } snapshot entries 1 none).analysis)
    (present : before.Has p) :
    again.loadedAt p =
        (a.run { store := before } snapshot entries 1 none).analysis.store.byteAt p ∨
      (again.loadedAt p = 0 ∨ again.loadedAt p = fs.byteAt p) ∧
        ((a.run { store := before } snapshot entries 1 none).analysis.store.byteAt p = 0 ∨
          (a.run { store := before } snapshot entries 1 none).analysis.store.byteAt p =
            fs.byteAt p) := by
  obtain ⟨_, blank, made, read⟩ := cycle.first
  obtain ⟨_, blank', made', reread⟩ := cycle.second
  obtain ⟨saved, events, paths, flushed⟩ := cycle.flushed
  have reading : (a.run { store := before } snapshot entries 1 none).analysis.store.reading =
      before.reading := ran.reading_eq
  have paths_eq : (a.run { store := before } snapshot entries 1 none).analysis.store.paths =
      before.paths := Cdl.Store.paths_congr reading
  have present_after :=
    (Cdl.Store.has_congr reading p).mpr present
  rw [← paths_eq] at apart
  have present_again := cycle.has_iff.mpr present
  have blanks : blank'.paths = blank.paths := by
    unfold Cdl.Store.paths
    rw [Cdl.Store.files_of_forBanks made', Cdl.Store.files_of_forBanks made]
  have member : p.file ∈ blank'.paths := by
    rw [blanks, ← read.paths_eq]
    exact present.file_mem_paths
  obtain ⟨changed, kept⟩ := Cdl.Store.getD_contents_of_flush flushed apart present_after
    (reread.readOrEmpty_eq member)
  rw [← reread.loadedAt_eq present_again] at changed kept
  cases dirty : (a.run { store := before } snapshot entries 1 none).analysis.store.dirtyAt p with
  | true => exact .inl (changed dirty)
  | false =>
    right
    refine ⟨kept dirty, ?_⟩
    rw [ran.byteAt_of_clean dirty]
    exact cycle.byteAt_cases present

end

end Analyzer

/-! ## A single log on an empty disk -/

namespace FileSystem

/-- A disk without files. -/
def bare : FileSystem := ⟨[], []⟩

/-- A disk without files has no bytes. -/
theorem byteAt_bare (p : Cdl.Position) : bare.byteAt p = 0 := by
  have nothing : ∀ place, bare.bytesAt place = #[] := by
    intro place
    unfold bytesAt node?
    by_cases above : place.isPrefixOf bare.home = true
    · rw [if_pos above]
    · rw [if_neg above]
      rfl
  unfold byteAt
  rw [nothing]
  rfl

/-- The log can be written to the disk without files. -/
theorem replaceDeep_bare (bytes : Array UInt8) :
    bare.replaceDeep Analyzer.soleBank.cdl bytes = (withLog bytes, .ok ()) := by
  have home : bare.makeDirectories Analyzer.soleBank.cdl.parent = (bare, .ok ()) := by
    rw [makeDirectories]
    rfl
  exact below_eq_ok_iff.mpr ⟨bare, home, rfl⟩

end FileSystem

/-- What is read from a disk without files is zero. -/
theorem Cdl.Store.ReadFrom.loadedAt_of_bare {blank s : Store} (read : ReadFrom .bare blank s)
    {p : Position} (present : s.Has p) : s.loadedAt p = 0 := by
  rcases read.loadedAt_cases present with nothing | found
  · exact nothing
  · rw [found, FileSystem.byteAt_bare]

/-- The bytes of a store that is read from a disk without files are zero. -/
theorem Cdl.Store.ReadFrom.byteAt_of_bare {blank s : Store} (read : ReadFrom .bare blank s)
    {p : Position} (present : s.Has p) : s.byteAt p = 0 :=
  (read.byteAt_eq p).1.trans (read.loadedAt_of_bare present)

/-- A store with the log alone can be written to the disk without files, and be read again. -/
theorem Cdl.Store.exists_flush_bare {s : Store} (only : s.paths = [Analyzer.soleBank.cdl]) :
    ∃ saved written events paths, s.flush .bare = (saved, written, events, .ok paths) ∧
      ∃ bytes, written.readOrEmpty Analyzer.soleBank.cdl = .ok bytes := by
  obtain ⟨files, claims⟩ := s
  obtain ⟨⟨path, f⟩, rfl, rfl⟩ := List.map_eq_singleton_iff.mp only
  have written : writeFile .bare Analyzer.soleBank.cdl f =
      (.withLog (f.overlay #[]), .ok ()) := FileSystem.replaceDeep_bare _
  unfold flush writeFiles
  cases f.isDirty with
  | true =>
    rw [if_pos rfl, written]
    exact ⟨_, _, _, _, rfl, f.overlay #[], rfl⟩
  | false => exact ⟨_, _, _, _, rfl, #[], rfl⟩

namespace Analyzer

/-- On a disk without files every run on the log alone is part of a cycle. -/
theorem exists_cycle_bare (a : Analyzer) {snapshot : Snapshot} {map : MemoryMap}
    (valid : MemoryMap.ofSnapshot a.banks snapshot = .ok map) {memory : Memory}
    {blank : Cdl.Store} (made : Cdl.Store.forBanks memory a.banks.declared = .ok blank)
    (only : blank.paths = [soleBank.cdl])
    (entries : List Int) :
    ∃ written before again, a.Cycle snapshot entries .bare written before again ∧
      (before.paths.map FileSystem.bare.placeOf).Nodup := by
  have readable : ∀ (fs : FileSystem) (bytes : Array UInt8),
      fs.readOrEmpty soleBank.cdl = .ok bytes →
        ∀ path ∈ blank.paths, ∃ bytes, fs.readOrEmpty path = .ok bytes := by
    intro fs bytes answer path member
    rw [only, List.mem_singleton] at member
    exact ⟨bytes, member ▸ answer⟩
  obtain ⟨before, read⟩ := Cdl.Store.exists_readFrom (readable .bare #[] rfl)
  have first : ({ store := before } : Analysis).store.MadeFor a.banks.declared :=
    ⟨memory, blank, made, read.sizes_eq⟩
  obtain ⟨_, _, _, ran, _⟩ := a.exists_ran first valid entries (Int.le_refl 1) none
  have paths := (Cdl.Store.paths_congr ran.reading_eq).trans (read.paths_eq.trans only)
  obtain ⟨saved, written, events, list, flushed, bytes, answer⟩ :=
    Cdl.Store.exists_flush_bare paths
  obtain ⟨again, reread⟩ := Cdl.Store.exists_readFrom (readable _ _ answer)
  refine ⟨written, before, again,
    ⟨⟨memory, blank, made, read⟩, ⟨saved, events, list, flushed⟩, memory, blank, made, reread⟩, ?_⟩
  rw [read.paths_eq, only]
  exact List.nodup_singleton _

end Analyzer

end BankTrace
