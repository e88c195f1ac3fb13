import BankTrace.Proofs.Cdl.Account
import BankTrace.Proofs.Cdl.Stretches

/-!
# The runs of loaded bytes

The bytes that a file had when it was read are also known by runs: where each longest stretch with
one of the bits begins, and how long it is. The runs of a window tell of every byte of it whether
it had one of the bits, and marks and writing that come behind the reading have no say in them.
-/

namespace BankTrace.Cdl

/-- An offset lies in a run that is given by its start and its length. -/
def Covers (run : Nat × Nat) (i : Nat) : Prop := run.1 ≤ i ∧ i < run.1 + run.2

/-- The runs of a window say where a test holds: the pairs of starts and lengths are in order with
gaps between them, and they cover the offsets where it holds and no others. -/
structure RunLengths (test : Nat → Bool) (start count : Nat) (runs : List (Nat × Nat)) : Prop where
  /-- No run is empty. -/
  length_pos : ∀ run ∈ runs, 0 < run.2
  /-- Every run lies in the window. -/
  inside : ∀ run ∈ runs, start ≤ run.1 ∧ run.1 + run.2 ≤ start + count
  /-- The runs ascend, and the offset behind each of them is not yet in the next one. -/
  gap : runs.Pairwise fun run later => run.1 + run.2 < later.1
  /-- An offset of the window is covered where the test holds. -/
  covered_iff : ∀ i, start ≤ i → i < start + count → ((∃ run ∈ runs, Covers run i) ↔ test i = true)

/-- Runs say the same of a test that agrees in the window. -/
theorem RunLengths.congr {test other : Nat → Bool} {start count : Nat} {runs : List (Nat × Nat)}
    (view : RunLengths test start count runs)
    (agree : ∀ i, start ≤ i → i < start + count → test i = other i) :
    RunLengths other start count runs := by
  refine { view with covered_iff := ?_ }
  intro i lower upper
  rw [← agree i lower upper]
  exact view.covered_iff i lower upper

/-- The scan of a window finds its runs. -/
theorem File.runLengths_stretches (test : Nat → Bool) (start count : Nat) :
    RunLengths test start count (stretches test start none count) := by
  have held := underway_none test start
  have member : ∀ run, run ∈ stretches test start none count ↔
      IsStretch test start (start + count) run.1 run.2 :=
    fun run => mem_stretches_iff held
  constructor
  case length_pos =>
    intro run found
    exact ((member run).mp found).length_pos
  case inside =>
    intro run found
    have stretch := (member run).mp found
    exact ⟨stretch.lower_le, stretch.le_upper⟩
  case gap => exact pairwise_stretches held count
  case covered_iff =>
    intro i lower upper
    constructor
    · intro ⟨run, found, above, below⟩
      exact ((member run).mp found).holds i above below
    · intro here
      have around := exists_isStretch_around lower upper here
      obtain ⟨first, length, stretch, above, below⟩ := around
      exact ⟨(first, length), (member (first, length)).mpr stretch, above, below⟩

namespace Store

/-- The bytes that reading a disk puts into a file are those on disk, and zeros behind them. -/
theorem loadedAt_load {s : Store} {disk : FileSystem} {path : Path} {f : File}
    (found : s.file? path = some f) (read : path ∈ s.readPaths disk) {i : Nat}
    (inside : i < f.size) :
    (s.load disk).1.loadedAt ⟨path, i⟩ = (disk.contents path).getD i 0 := by
  have left : (s.load disk).1.file? path = some (f.load (disk.contents path)) := by
    rw [file?_load, found, Option.map_some, if_pos read]
  simp only [loadedAt, left, Int.toNat_natCast]
  rw [File.loadedByte_load, File.byte_load, if_pos inside]

/-- Reading that succeeds reads every file. -/
theorem mem_readPaths_of_load {s : Store} {disk : FileSystem}
    (done : (s.load disk).2.2 = .ok ()) {path : Path} (member : path ∈ s.paths) :
    path ∈ s.readPaths disk := by
  have all : ∀ files : List (Path × File), (readFiles disk files).result = .ok () →
      (files.map Prod.fst).takeWhile (isReadable disk) = files.map Prod.fst := by
    intro files
    induction files with
    | nil => simp
    | cons entry rest ih =>
      obtain ⟨p, f⟩ := entry
      unfold readFiles
      cases answer : disk.readOrEmpty p with
      | error e => simp
      | ok bytes =>
        have reads : isReadable disk p = true := by
          simp [isReadable, answer, Except.isOk, Except.toBool]
        intro others
        rw [List.map_cons, List.takeWhile_cons, if_pos reads, ih others]
  simp only [readPaths, paths, all s.files done]
  exact member

/-- Behind the reading of a file, whatever is marked or written: a window of the file is given by
the runs of the bytes that were on disk. The file is one that this reading came to; when it succeeds
these are all. -/
theorem loadedRuns_exact (s : Store) (disk : FileSystem) {later : List Request}
    (quiet : ∀ request ∈ later, request.isLoad = false) (spelt : Path.Spelling) {f : File}
    (found : s.file? spelt.path = some f) (read : spelt.path ∈ s.readPaths disk) (mask : Mask)
    (start size : Int) (begins : 0 ≤ start) (ends : start + size ≤ f.size) :
    ∃ runs, (Request.afterAll (s.load disk).1 later).loadedRuns spelt mask start size = .ok runs ∧
      RunLengths (fun i => hasAny mask ((disk.contents spelt.path).getD i 0)) start.toNat
        size.toNat runs := by
  have same := Request.reading_afterAll (s.load disk).1 quiet
  have left : (s.load disk).1.file? spelt.path = some (f.load (disk.contents spelt.path)) := by
    rw [file?_load, found, Option.map_some, if_pos read]
  have granted : ¬(start < 0 ∨ start + size > (f.load (disk.contents spelt.path)).size) := by
    have kept : (f.load (disk.contents spelt.path)).size = f.size := rfl
    omega
  have answer : (Request.afterAll (s.load disk).1 later).loadedRuns spelt mask start size =
      .ok (File.stretches (fun i => hasAny mask ((s.load disk).1.loadedAt ⟨spelt.path, i⟩))
        start.toNat none size.toNat) := by
    rw [loadedRuns_congr (.of_reading same), loadedRuns_eq, left]
    simp only [granted, if_false]
  have view := File.runLengths_stretches
    (fun i => hasAny mask ((s.load disk).1.loadedAt ⟨spelt.path, i⟩)) start.toNat size.toNat
  refine ⟨_, answer, view.congr ?_⟩
  intro i lower upper
  rw [loadedAt_load found read (by omega)]

/-- A log of six bytes that has not been read. -/
def unreadLog : Store := { files := [(⟨.relative, ["log"]⟩, .blank 6)] }

/-- A disk with a longer log: code in front, then a gap of two bytes, then code up to the end. -/
def gappedDisk : FileSystem := .withLog #[1, 3, 0, 2, 1, 1, 1]

/-- The first byte of the gap is marked, and the log is written. -/
def marksInGap : List Request := [.mark ⟨.relative, ["log"]⟩ 2 1 .code, .flush gappedDisk]

/-- A window that begins and ends inside the code still shows the gap as it was on disk. -/
theorem loadedRuns_exact_gapped :
    (∀ request ∈ marksInGap, request.isLoad = false) ∧
      unreadLog.file? ⟨.relative, ["log"]⟩ = some (.blank 6) ∧
      (⟨.relative, ["log"]⟩ : Path) ∈ unreadLog.readPaths gappedDisk ∧
      ∃ runs, (Request.afterAll (unreadLog.load gappedDisk).1 marksInGap).loadedRuns
          (Path.mk .relative ["log"]) code 1 4 = .ok runs ∧
        (∃ run ∈ runs, Covers run 1) ∧ (¬∃ run ∈ runs, Covers run 2) ∧
        (∃ run ∈ runs, Covers run 4) := by
  have quiet : ∀ request ∈ marksInGap, request.isLoad = false := by
    simp [marksInGap, Request.isLoad]
  have found : unreadLog.file? ⟨.relative, ["log"]⟩ = some (.blank 6) := rfl
  have done : (unreadLog.load gappedDisk).2.2 = .ok () := rfl
  have read : (⟨.relative, ["log"]⟩ : Path) ∈ unreadLog.readPaths gappedDisk :=
    mem_readPaths_of_load done List.mem_cons_self
  have exact := loadedRuns_exact unreadLog gappedDisk quiet (Path.mk .relative ["log"]) found read
    code 1 4 (by decide) (by decide)
  obtain ⟨runs, answer, view⟩ := exact
  refine ⟨quiet, found, read, runs, answer, ?_, ?_, ?_⟩
  · exact (view.covered_iff 1 (by decide) (by decide)).mpr (by decide)
  · rw [view.covered_iff 2 (by decide) (by decide)]
    decide
  · exact (view.covered_iff 4 (by decide) (by decide)).mpr (by decide)

end Store

end BankTrace.Cdl
