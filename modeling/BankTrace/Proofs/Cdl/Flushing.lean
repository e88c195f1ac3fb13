import BankTrace.Proofs.Cdl.Restoration
import BankTrace.Proofs.FileSystem.Replacing

/-!
# What a flush does

A flush that succeeds writes the dirty files and no others, in the order of the store: each of them
is what was on disk by then, filled up with zeros to the size that it has in memory, and with the
dirty bytes in their places. Nothing else changes on disk but that directories are made on the way,
and in memory nothing but that no byte is dirty any more. What was on disk counts only where it
could be read: a path that leads through a directory that does not exist reads as nothing, although
making the directory may show that there is a file at its end.

Step by step the files are replaced by way of new ones beside them. What is left is the same, so
none of these is.
-/

namespace BankTrace

/-- What a path reads is what is at its place when it has been followed: it can be followed now, or
there is nothing at the place. -/
def FileSystem.Shows (fs : FileSystem) (path : Path) : Prop :=
  (∃ place, fs.locate path = .ok place) ∨ fs.node? (fs.placeOf path) = none

namespace Cdl

namespace File

/-- What is written is as long as what is on disk, and at least as long as the file in memory. -/
theorem size_overlay (f : File) (current : Array UInt8) :
    (f.overlay current).size = max current.size f.size := Array.size_ofFn

/-- What is written has the dirty bytes of the file, and behind its end too the others of the
disk. -/
theorem getD_overlay_all (f : File) (current : Array UInt8) (i : Nat) :
    (f.overlay current).getD i 0 = if f.isDirtyAt i then f.byte i else current.getD i 0 := by
  by_cases inside : i < f.size
  · exact getD_overlay f current inside
  · have behind : f.size ≤ i := Nat.le_of_not_lt inside
    have clean : f.isDirtyAt i = false := by
      unfold isDirtyAt
      rw [Array.getD_eq_getD_getElem?, Array.getElem?_eq_none (by simpa using behind)]
      rfl
    rw [clean, Array.getD_eq_getD_getElem?, getElem?_overlay f current behind,
      ← Array.getD_eq_getD_getElem?]
    rfl

/-- A file that has been written is clean. -/
theorem isDirty_clean (f : File) : f.clean.isDirty = false := by
  rw [← Bool.not_eq_true, isDirty_eq_true_iff]
  rintro ⟨i, dirty⟩
  rw [isDirtyAt_clean] at dirty
  contradiction

/-- A clean file has no dirty bytes to count. -/
theorem dirtyCount_of_clean {f : File} (clean : f.isDirty = false) : f.dirtyCount = 0 := by
  unfold isDirty at clean
  unfold dirtyCount
  rw [Vector.countP_eq_zero]
  rw [Vector.any_eq_false'] at clean
  exact clean

end File

namespace Store

/-- The files when all have been written. -/
def cleaned (files : List (Path × File)) : List (Path × File) :=
  files.map fun (path, f) => (path, f.clean)

/-- Files that have been written are clean. -/
theorem clean_cleaned (files : List (Path × File)) :
    ∀ entry ∈ cleaned files, entry.2.isDirty = false := by
  intro entry member
  have ⟨other, _, same⟩ := List.mem_map.mp member
  rw [← same]
  exact File.isDirty_clean _

/-- Files that are all written are clean, and the answer names the dirty ones. -/
theorem cleaned_of_writeFiles {fs : FileSystem} {files : List (Path × File)} {paths : List Path}
    (done : (writeFiles fs files).2.result = .ok paths) :
    (writeFiles fs files).2.files = cleaned files ∧
      paths = (files.filter fun entry => entry.2.isDirty).map Prod.fst := by
  induction files generalizing fs paths with
  | nil => exact ⟨rfl, (Except.ok.inj done).symm⟩
  | cons entry rest ih =>
    have ⟨path, f⟩ := entry
    unfold cleaned
    rw [List.map_cons, List.filter_cons]
    by_cases dirty : f.isDirty = true
    · have ⟨next, first, others, ended⟩ := written_of_writeFiles_ok dirty done
      have ⟨files, others_eq⟩ := ih ended
      rw [writeFiles_of_written dirty first] at done ⊢
      rw [if_pos dirty, List.map_cons, ← others_eq]
      dsimp only at done ⊢
      rw [ended] at done
      rw [files]
      exact ⟨rfl, (Except.ok.inj done).symm⟩
    · rw [writeFiles_of_clean_head dirty] at done ⊢
      rw [if_neg dirty]
      have ⟨files, paths_eq⟩ := ih done
      dsimp only
      rw [files, File.clean_eq_self (Bool.eq_false_iff.mpr dirty)]
      exact ⟨rfl, paths_eq⟩

/-- What is on disk when all files have been written: the dirty ones, new directories on the way to
them, and otherwise what was there. -/
theorem builds_of_writeFiles_ok {fs : FileSystem} {files : List (Path × File)}
    {paths : List Path} (done : (writeFiles fs files).2.result = .ok paths) :
    FileSystem.Builds (fun place => ∃ path ∈ paths, place = fs.placeOf path)
      (fun place => ∃ path ∈ paths, fs.Passes path.parent place) fs (writeFiles fs files).1 := by
  have ⟨_, paths_eq⟩ := cleaned_of_writeFiles done
  have listed : ∀ entry ∈ files, entry.2.isDirty = true → entry.1 ∈ paths := by
    intro entry member dirty
    rw [paths_eq]
    exact List.mem_map_of_mem (List.mem_filter.mpr ⟨member, dirty⟩)
  apply (builds_writeFiles fs files).mono
  · intro place ⟨path, logged, here⟩
    have ⟨entry, member, dirty, same⟩ := exists_dirty_of_mem_writtenIn logged
    rw [← same] at here
    exact ⟨entry.1, listed entry member dirty, here⟩
  · intro place ⟨entry, member, dirty, passes⟩
    exact ⟨entry.1, listed entry member dirty, passes⟩

section

variable {s saved : Store} {fs written : FileSystem} {events : List Event} {paths : List Path}
  (done : s.flush fs = (saved, written, events, .ok paths))

include done

/-- A flush that succeeds names the dirty files and leaves the files clean. -/
theorem cleaned_of_flush : saved = { s with files := cleaned s.files } ∧ paths = s.dirtyPaths := by
  unfold flush at done
  simp only [Prod.mk.injEq] at done
  obtain ⟨rfl, _, _, ended⟩ := done
  obtain ⟨files, rfl⟩ := cleaned_of_writeFiles ended
  rw [files]
  exact ⟨rfl, rfl⟩

/-- What is on disk after a flush that succeeds: the dirty files, new directories on the way to
them, and otherwise what was there. -/
theorem builds_of_flush :
    FileSystem.Builds (fun place => ∃ path ∈ paths, place = fs.placeOf path)
      (fun place => ∃ path ∈ paths, fs.Passes path.parent place) fs written := by
  unfold flush at done
  simp only [Prod.mk.injEq] at done
  have ⟨_, disk, _, ended⟩ := done
  rw [← disk]
  exact builds_of_writeFiles_ok ended

/-- After a flush that succeeds no file is dirty. -/
theorem clean_of_flush : ∀ entry ∈ saved.files, entry.2.isDirty = false := by
  rw [(cleaned_of_flush done).1]
  exact clean_cleaned s.files

/-- After a flush of files at different places that succeeds a dirty file is at its place, written
over what was there, if that is what it reads. -/
theorem node?_of_flush (apart : (s.paths.map fs.placeOf).Nodup) {path : Path} {f : File}
    (member : (path, f) ∈ s.files) (dirty : f.isDirty = true) (shows : fs.Shows path) :
    written.locate path = .ok (fs.placeOf path) ∧
      written.node? (fs.placeOf path) =
        some (.file (f.overlay (fs.bytesAt (fs.placeOf path)))) := by
  unfold Store.paths at apart
  rw [List.map_map] at apart
  unfold flush at done
  simp only [Prod.mk.injEq] at done
  have ⟨_, disk, _, ended⟩ := done
  have ⟨located, current, known, there⟩ := node?_of_writeFiles ended apart member dirty
  rw [disk] at located there
  have same : current = fs.bytesAt (fs.placeOf path) := by
    rcases known with found | ⟨nothing, lost⟩
    · exact found
    · rcases shows with ⟨place, followed⟩ | free
      · exact absurd followed (lost place)
      · unfold FileSystem.bytesAt
        rw [free]
        exact nothing
  rw [same] at there
  exact ⟨located, there⟩

end

/-- Where no file is dirty there are no dirty bytes. -/
theorem dirtyCount_of_clean {s : Store} (clean : ∀ entry ∈ s.files, entry.2.isDirty = false) :
    s.dirtyCount = 0 := by
  have sum : ∀ files : List (Path × File), (∀ entry ∈ files, entry.2.isDirty = false) → ∀ n,
      files.foldl (fun sum (entry : Path × File) => sum + entry.2.dirtyCount) n = n := by
    intro files clean n
    induction files generalizing n with
    | nil => rfl
    | cons entry rest ih =>
      rw [List.foldl_cons, File.dirtyCount_of_clean (clean _ List.mem_cons_self)]
      exact ih (fun other later => clean other (List.mem_cons_of_mem _ later)) n
  exact sum s.files clean 0

/-! ## Step by step -/

/-- Write the dirty bytes of one file over what is on disk, step by step. -/
def writeFileBy (m : FileSystem.Manner) (fs : FileSystem) (path : Path) (f : File) :
    FileSystem × Except FileError Unit :=
  match fs.readOrEmpty path with
  | .error e => (fs, .error e)
  | .ok current => fs.replaceDeepBy m path (f.overlay current)

/-- Write files to disk, one after the other, each step by step. -/
def writeFilesBy (manner : Path → FileSystem.Manner) (fs : FileSystem) :
    List (Path × File) → FileSystem × Transfer (List Path)
  | [] => (fs, ⟨[], [], .ok []⟩)
  | (path, f) :: rest =>
    if f.isDirty then
      match writeFileBy (manner path) fs path f with
      | (fs, .error e) => (fs, ⟨(path, f) :: rest, [], .error e⟩)
      | (fs, .ok ()) =>
        let (fs, others) := writeFilesBy manner fs rest
        (fs, ⟨(path, f.clean) :: others.files, .logWritten path :: others.events,
          others.result.map (path :: ·)⟩)
    else
      let (fs, others) := writeFilesBy manner fs rest
      (fs, ⟨(path, f) :: others.files, others.events, others.result⟩)

/-- Write all dirty bytes to disk, each file step by step. -/
def flushBy (manner : Path → FileSystem.Manner) (s : Store) (fs : FileSystem) :
    Store × FileSystem × List Event × Except FileError (List Path) :=
  let (fs, written) := writeFilesBy manner fs s.files
  ({ s with files := written.files }, fs, written.events, written.result)

section

variable {m : FileSystem.Manner} {fs written : FileSystem} {path : Path} {f : File}

/-- A file that is written step by step is written. -/
theorem writeFile_of_writeFileBy (done : writeFileBy m fs path f = (written, .ok ())) :
    writeFile fs path f = (written, .ok ()) := by
  unfold writeFileBy at done
  unfold writeFile
  cases read : fs.readOrEmpty path with
  | error e => simp [read] at done
  | ok current =>
    rw [read] at done
    exact FileSystem.replaceDeep_of_replaceDeepBy done

/-- A file that is written is written step by step, if no step is refused and nothing has the name
of the new file. -/
theorem writeFileBy_of_free (allows : ∀ stage, m.refuses stage = none)
    (free : written.node? (fs.placeOf (fs.beside path m.letters).path) = none)
    (done : writeFile fs path f = (written, .ok ())) :
    writeFileBy m fs path f = (written, .ok ()) := by
  unfold writeFile at done
  unfold writeFileBy
  cases read : fs.readOrEmpty path with
  | error e => simp [read] at done
  | ok current =>
    rw [read] at done
    exact FileSystem.replaceDeepBy_of_free allows free done

/-- Nothing is taken away when a file is written, and the home directory stays. -/
theorem free_of_writeFile (done : writeFile fs path f = (written, .ok ())) :
    written.home = fs.home ∧ ∀ place, written.node? place = none → fs.node? place = none := by
  unfold writeFile at done
  cases read : fs.readOrEmpty path with
  | error e => simp [read] at done
  | ok current =>
    rw [read] at done
    have effect := (FileSystem.writable_of_replaceDeep done).2
    exact ⟨effect.home_eq, fun place => effect.free_of_free⟩

end

/-- Nothing is taken away when files are written. -/
theorem free_of_writeFiles {fs : FileSystem} {files : List (Path × File)} {paths : List Path}
    (done : (writeFiles fs files).2.result = .ok paths) {place : Place}
    (free : (writeFiles fs files).1.node? place = none) : fs.node? place = none := by
  induction files generalizing fs paths with
  | nil => exact free
  | cons entry rest ih =>
    obtain ⟨path, f⟩ := entry
    by_cases dirty : f.isDirty = true
    · obtain ⟨next, first, others, ended⟩ := written_of_writeFiles_ok dirty done
      rw [writeFiles_of_written dirty first] at free
      exact (free_of_writeFile first).2 place (ih ended free)
    · rw [writeFiles_of_clean_head dirty] at done free
      exact ih done free

/-- Files that are all written step by step are written. -/
theorem writeFiles_of_writeFilesBy {manner : Path → FileSystem.Manner} {fs : FileSystem}
    {files : List (Path × File)} {paths : List Path}
    (done : (writeFilesBy manner fs files).2.result = .ok paths) :
    writeFiles fs files = writeFilesBy manner fs files := by
  induction files generalizing fs paths with
  | nil => rfl
  | cons entry rest ih =>
    obtain ⟨path, f⟩ := entry
    unfold writeFilesBy at done ⊢
    unfold writeFiles
    by_cases dirty : f.isDirty = true
    · rw [if_pos dirty] at done ⊢
      rw [if_pos dirty]
      cases answer : writeFileBy (manner path) fs path f with
      | mk next result =>
      rw [answer] at done
      cases result with
      | error e => contradiction
      | ok _ =>
        cases tail : (writeFilesBy manner next rest).2.result with
        | error e => simp [tail, Except.map] at done
        | ok others =>
          rw [writeFile_of_writeFileBy answer]
          dsimp only
          rw [ih tail]
    · rw [if_neg dirty] at done ⊢
      rw [if_neg dirty, ih done]

/-- Files that are all written are written step by step, if no step is refused and in the end
nothing has the name of one of the new files. -/
theorem writeFilesBy_of_free {manner : Path → FileSystem.Manner} {fs : FileSystem}
    {files : List (Path × File)} {paths : List Path}
    (allows : ∀ path stage, (manner path).refuses stage = none)
    (free : ∀ entry ∈ files, entry.2.isDirty = true →
      (writeFiles fs files).1.node?
        (fs.placeOf (fs.beside entry.1 (manner entry.1).letters).path) = none)
    (done : (writeFiles fs files).2.result = .ok paths) :
    writeFilesBy manner fs files = writeFiles fs files := by
  induction files generalizing fs paths with
  | nil => rfl
  | cons entry rest ih =>
    obtain ⟨path, f⟩ := entry
    by_cases dirty : f.isDirty = true
    · obtain ⟨next, first, others, ended⟩ := written_of_writeFiles_ok dirty done
      rw [writeFiles_of_written dirty first] at free ⊢
      have ⟨home, _⟩ := free_of_writeFile first
      have unused := free_of_writeFiles ended (free _ List.mem_cons_self dirty)
      have behind : writeFilesBy manner next rest = writeFiles next rest := by
        refine ih (fun entry member marked => ?_) ended
        rw [FileSystem.placeOf_congr home, FileSystem.beside_congr home]
        exact free entry (List.mem_cons_of_mem _ member) marked
      rw [writeFilesBy, if_pos dirty, writeFileBy_of_free (allows path) unused first]
      dsimp only
      rw [behind]
    · rw [writeFiles_of_clean_head dirty] at done free ⊢
      rw [writeFilesBy, if_neg dirty,
        ih (fun entry member => free entry (List.mem_cons_of_mem _ member)) done]

/-- A flush that succeeds step by step does what a flush does. -/
theorem flush_of_flushBy {manner : Path → FileSystem.Manner} {s saved : Store}
    {fs written : FileSystem} {events : List Event} {paths : List Path}
    (done : s.flushBy manner fs = (saved, written, events, .ok paths)) :
    s.flush fs = (saved, written, events, .ok paths) := by
  unfold flushBy at done
  simp only [Prod.mk.injEq] at done
  obtain ⟨rfl, rfl, rfl, ended⟩ := done
  unfold flush
  rw [writeFiles_of_writeFilesBy ended]
  dsimp only
  rw [ended]

/-- A flush that succeeds does so step by step, if no step is refused and in the end nothing has the
name of one of the new files. -/
theorem flushBy_of_free {manner : Path → FileSystem.Manner} {s saved : Store}
    {fs written : FileSystem} {events : List Event} {paths : List Path}
    (allows : ∀ path stage, (manner path).refuses stage = none)
    (free : ∀ path ∈ s.dirtyPaths,
      written.node? (fs.placeOf (fs.beside path (manner path).letters).path) = none)
    (done : s.flush fs = (saved, written, events, .ok paths)) :
    s.flushBy manner fs = (saved, written, events, .ok paths) := by
  unfold flush at done
  simp only [Prod.mk.injEq] at done
  obtain ⟨rfl, rfl, rfl, ended⟩ := done
  have unused : ∀ entry ∈ s.files, entry.2.isDirty = true →
      (writeFiles fs s.files).1.node?
        (fs.placeOf (fs.beside entry.1 (manner entry.1).letters).path) = none :=
    fun entry member dirty =>
      free entry.1 (List.mem_map_of_mem (List.mem_filter.mpr ⟨member, dirty⟩))
  unfold flushBy
  rw [writeFilesBy_of_free allows unused ended]
  dsimp only
  rw [ended]

/-! ## The whole flush -/

/-- A flush has written exactly the dirty bytes. -/
structure Flushed (s : Store) (fs : FileSystem) (saved : Store) (written : FileSystem)
    (paths : List Path) : Prop where
  /-- The answer names the dirty files in the order of the store. -/
  paths_eq : paths = s.dirtyPaths
  /-- Each dirty file is at its place as it was on disk, filled up with zeros to its size in memory,
  with the dirty bytes in their places. -/
  dirty : ∀ path f, (path, f) ∈ s.files → f.isDirty = true →
    written.locate path = .ok (fs.placeOf path) ∧
      ∃ bytes, written.node? (fs.placeOf path) = some (.file bytes) ∧
        bytes.size = max (fs.bytesAt (fs.placeOf path)).size f.size ∧
          ∀ i, bytes.getD i 0 =
            if f.isDirtyAt i then f.byte i else (fs.bytesAt (fs.placeOf path)).getD i 0
  /-- Everything else stays, but for new directories on the way to the dirty files. -/
  others : ∀ place, (∀ path ∈ s.dirtyPaths, place ≠ fs.placeOf path) →
    written.node? place = fs.node? place ∨
      fs.node? place = none ∧ written.node? place = some .directory ∧
        ∃ path ∈ s.dirtyPaths, fs.Passes path.parent place
  /-- The bytes in memory stay. -/
  buffers_eq : saved.buffers = s.buffers
  /-- What was read before stays. -/
  reading_eq : saved.reading = s.reading
  /-- The claims stay. -/
  claims_eq : saved.claims = s.claims
  /-- No byte is dirty any more. -/
  dirtyCount_eq : saved.dirtyCount = 0
  /-- Another flush writes nothing. -/
  again : saved.flush written = (saved, written, [], .ok [])

/-- A flush of logs at different places that succeeds has written exactly the dirty bytes, where
what the dirty paths read is what is at their places. Step by step, by way of new files beside them
that are moved over the logs, a flush that succeeds does the same, whatever letters the names of the
new files have; and it succeeds if no step is refused and nothing else has these names. So none of
the new files is left. -/
theorem flushed_of_shows {s saved : Store} {fs written : FileSystem} {events : List Event}
    {paths : List Path} (apart : (s.paths.map fs.placeOf).Nodup)
    (shows : ∀ path ∈ s.dirtyPaths, fs.Shows path)
    (done : s.flush fs = (saved, written, events, .ok paths)) :
    Flushed s fs saved written paths ∧
      (∀ manner saved' written' events' paths',
        s.flushBy manner fs = (saved', written', events', .ok paths') →
          saved' = saved ∧ written' = written ∧ events' = events ∧ paths' = paths) ∧
      ∀ manner, (∀ path stage, (manner path).refuses stage = none) →
        (∀ path ∈ s.dirtyPaths,
          written.node? (fs.placeOf (fs.beside path (manner path).letters).path) = none) →
            s.flushBy manner fs = (saved, written, events, .ok paths) := by
  have clean := clean_of_flush done
  have ⟨saved_eq, paths_eq⟩ := cleaned_of_flush done
  have builds := builds_of_flush done
  rw [paths_eq] at builds
  refine ⟨⟨paths_eq, ?dirty, ?others, ?buffers, ?reading, ?claims, dirtyCount_of_clean clean,
    flush_of_clean clean written⟩, ?steps, fun _ allows free => flushBy_of_free allows free done⟩
  case dirty =>
    intro path f member dirty
    have listed : path ∈ s.dirtyPaths :=
      List.mem_map_of_mem (List.mem_filter.mpr ⟨member, dirty⟩)
    have ⟨located, there⟩ := node?_of_flush done apart member dirty (shows path listed)
    exact ⟨located, _, there, File.size_overlay f _, File.getD_overlay_all f _⟩
  case others =>
    intro place elsewhere
    exact builds.nodes place fun ⟨path, listed, here⟩ => elsewhere path listed here
  case steps =>
    intro manner saved' written' events' paths' done'
    have same := flush_of_flushBy done'
    rw [done] at same
    simp only [Prod.mk.injEq, Except.ok.injEq] at same
    have ⟨store, disk, log, answer⟩ := same
    exact ⟨store.symm, disk.symm, log.symm, answer.symm⟩
  case buffers =>
    rw [saved_eq]
    unfold buffers cleaned
    rw [List.map_map]
    rfl
  case reading =>
    rw [saved_eq]
    unfold reading cleaned
    rw [List.map_map]
    rfl
  case claims => rw [saved_eq]

/-- A log of two bytes in memory that has not been read is marked and written over a longer file on
disk: its second byte is the marked one, and the others are those that were on disk. -/
theorem flushed_of_shows_log :
    ∃ s saved written events paths,
      (single ⟨.relative, ["log"]⟩ 2).markRanges [⟨⟨⟨.relative, ["log"]⟩, 1⟩, 1, code⟩] = .ok s ∧
        s.flush (.withLog #[2, 0, 7]) = (saved, written, events, .ok paths) ∧
          Flushed s (.withLog #[2, 0, 7]) saved written paths ∧
            paths = [⟨.relative, ["log"]⟩] ∧ written.bytesAt ["log"] = #[2, 1, 7] := by
  obtain ⟨s, marked⟩ : ∃ s, (single ⟨.relative, ["log"]⟩ 2).markRanges
      [⟨⟨⟨.relative, ["log"]⟩, 1⟩, 1, code⟩] = .ok s := ⟨_, rfl⟩
  obtain ⟨f, files, dirty, bytes⟩ : ∃ f, s.files = [(⟨.relative, ["log"]⟩, f)] ∧
      f.isDirty = true ∧ f.overlay #[2, 0, 7] = #[2, 1, 7] := by
    obtain rfl := Except.ok.inj marked
    exact ⟨_, rfl, File.isDirty_eq_true_iff.mpr ⟨1, by decide⟩, by decide⟩
  have done : writeFile (.withLog #[2, 0, 7]) ⟨.relative, ["log"]⟩ f =
      (.withLog (f.overlay #[2, 0, 7]), .ok ()) :=
    FileSystem.replaceDeep_withLog #[2, 0, 7] (f.overlay #[2, 0, 7])
  obtain ⟨saved, events, flushed⟩ := exists_flush_single files dirty done
  have apart : (s.paths.map (FileSystem.withLog #[2, 0, 7]).placeOf).Nodup := by
    unfold paths
    rw [files]
    exact List.nodup_singleton _
  have listed : s.dirtyPaths = [⟨.relative, ["log"]⟩] := by
    unfold dirtyPaths
    rw [files, List.filter_cons, if_pos dirty]
    rfl
  have shows : ∀ path ∈ s.dirtyPaths, (FileSystem.withLog #[2, 0, 7]).Shows path := by
    intro path member
    rw [listed] at member
    obtain rfl := List.mem_singleton.mp member
    exact .inl ⟨["log"], rfl⟩
  have exactly := (flushed_of_shows apart shows flushed).1
  refine ⟨s, saved, _, events, _, marked, flushed, exactly, rfl, ?_⟩
  rw [bytes]
  rfl

/-- A log is named by way of a directory that does not exist, so that it is read as nothing. When
its only byte in memory is marked and written, the file on disk is cut off behind it. -/
theorem detour_not_flushed :
    ∃ s saved written events paths,
      (single ⟨.relative, ["a", "..", "log"]⟩ 1).markRanges
          [⟨⟨⟨.relative, ["a", "..", "log"]⟩, 0⟩, 1, code⟩] = .ok s ∧
        (s.paths.map (FileSystem.withLog #[3, 3]).placeOf).Nodup ∧
          s.flush (.withLog #[3, 3]) = (saved, written, events, .ok paths) ∧
            ¬Flushed s (.withLog #[3, 3]) saved written paths := by
  obtain ⟨s, marked⟩ : ∃ s, (single ⟨.relative, ["a", "..", "log"]⟩ 1).markRanges
      [⟨⟨⟨.relative, ["a", "..", "log"]⟩, 0⟩, 1, code⟩] = .ok s := ⟨_, rfl⟩
  obtain ⟨f, files, dirty, size⟩ : ∃ f, s.files = [(⟨.relative, ["a", "..", "log"]⟩, f)] ∧
      f.isDirty = true ∧ f.size = 1 := by
    obtain rfl := Except.ok.inj marked
    exact ⟨_, rfl, File.isDirty_eq_true_iff.mpr ⟨0, by decide⟩, rfl⟩
  have done : writeFile (.withLog #[3, 3]) ⟨.relative, ["a", "..", "log"]⟩ f =
      (.withDetour (f.overlay #[]), .ok ()) :=
    FileSystem.replaceDeep_detour #[3, 3] (f.overlay #[])
  obtain ⟨saved, events, flushed⟩ := exists_flush_single files dirty done
  refine ⟨s, saved, _, events, _, marked, ?_, flushed, ?_⟩
  · unfold paths
    rw [files]
    exact List.nodup_singleton _
  · intro flushedExactly
    have member : (⟨.relative, ["a", "..", "log"]⟩, f) ∈ s.files := by
      rw [files]
      exact List.mem_singleton_self _
    obtain ⟨_, bytes, there, long, _⟩ := flushedExactly.dirty _ f member dirty
    have cut : (FileSystem.withDetour (f.overlay #[])).node? ["log"] =
        some (.file (f.overlay #[])) := rfl
    have same : bytes = f.overlay #[] := Node.file.inj (Option.some.inj (there.symm.trans cut))
    have short : (f.overlay #[]).size = 1 := by
      rw [File.size_overlay, size]
      rfl
    have kept : bytes.size = 2 := by
      rw [long, size]
      rfl
    rw [same, short] at kept
    contradiction

end Store

end Cdl

end BankTrace
