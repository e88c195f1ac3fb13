import Mathlib.Data.List.Nodup
import BankTrace.Proofs.Cdl.Dirty
import BankTrace.Proofs.FileSystem.Naming

/-!
# Logs on disk

A store that is read has the bytes of the files on disk and nothing else: no byte of it is dirty.
When it is written, only its dirty bytes go to disk, and a file without any is left alone. So a
store that is read behind that has at every dirty byte what was in memory and at all others what was
on disk, as long as no two log paths lead to one place.
-/

namespace BankTrace

namespace FileSystem

/-- What is read of a file, nothing where that fails. -/
def contents (fs : FileSystem) (path : Path) : Array UInt8 :=
  (fs.readOrEmpty path).toOption.getD #[]

/-- The byte on disk that belongs to a position of a log, zero where there is none. -/
def byteAt (fs : FileSystem) (p : Cdl.Position) : UInt8 :=
  (fs.bytesAt (fs.placeOf p.file)).getD p.offset.toNat 0

/-- What is read of a file that can be found is what is at its place. -/
theorem contents_of_locate {fs : FileSystem} {path : Path} {place : Place}
    (located : fs.locate path = .ok place) : fs.contents path = fs.bytesAt place := by
  unfold contents
  cases done : fs.readOrEmpty path with
  | ok bytes => exact eq_bytesAt_of_readOrEmpty located done
  | error e =>
    unfold readOrEmpty read find at done
    rw [located] at done
    unfold bytesAt
    cases there : fs.node? place with
    | none => rfl
    | some node =>
      cases node with
      | directory => rfl
      | file bytes => simp [there, bind, Except.bind, pure, Except.pure] at done

/-- Nothing is read where a path cannot be followed. -/
theorem contents_of_not_located {fs : FileSystem} {path : Path}
    (lost : ∀ place, fs.locate path ≠ .ok place) : fs.contents path = #[] := by
  unfold contents
  cases done : fs.readOrEmpty path with
  | error e => rfl
  | ok bytes =>
    cases located : fs.locate path with
    | ok place => exact absurd located (lost place)
    | error e =>
      unfold readOrEmpty read find at done
      rw [located] at done
      simp only [bind, Except.bind] at done
      split at done
      · exact (Except.ok.inj done).symm
      · contradiction

/-- What is read of a file where nothing but others has been written is what was there at first, or
nothing when the path could not be followed then. -/
theorem Grows.contents_cases {changed : Place → Prop} {before after : FileSystem}
    (grows : Grows changed before after) {path : Path} (stays : ¬changed (before.placeOf path)) :
    after.contents path = before.bytesAt (before.placeOf path) ∨
      after.contents path = #[] ∧ ∀ place, before.locate path ≠ .ok place := by
  cases located : after.locate path with
  | ok place =>
    left
    rw [contents_of_locate located, eq_placeOf_of_locate located, grows.placeOf_eq]
    exact grows.bytes _ stays
  | error e =>
    have lost : ∀ place, after.locate path ≠ .ok place := by
      intro place found
      rw [located] at found
      contradiction
    refine .inr ⟨contents_of_not_located lost, ?_⟩
    exact fun place found => lost place (grows.locate found)

/-- What is read of a file is nothing, or what is at the place of the path. -/
theorem contents_cases (fs : FileSystem) (path : Path) :
    fs.contents path = #[] ∨ fs.contents path = fs.bytesAt (fs.placeOf path) := by
  unfold contents
  cases done : fs.readOrEmpty path with
  | error e => exact .inl rfl
  | ok bytes => exact eq_of_readOrEmpty done

end FileSystem

namespace Cdl

namespace File

/-- What is read into a file. -/
theorem byte_load (f : File) (bytes : Array UInt8) (i : Nat) :
    (f.load bytes).byte i = if i < f.size then bytes.getD i 0 else 0 := by
  unfold byte load
  rw [Vector.toArray_ofFn, Array.getD_eq_getD_getElem?, Array.getElem?_ofFn]
  split <;> rfl

/-- What is read into a file is loaded. -/
theorem loadedByte_load (f : File) (bytes : Array UInt8) (i : Nat) :
    (f.load bytes).loadedByte i = (f.load bytes).byte i := rfl

/-- Nothing that is read is dirty. -/
theorem isDirtyAt_load (f : File) (bytes : Array UInt8) (i : Nat) :
    (f.load bytes).isDirtyAt i = false := by
  unfold isDirtyAt load
  rw [Vector.toArray_replicate, Array.getD_eq_getD_getElem?, Array.getElem?_replicate]
  split <;> rfl

/-- What is written has the dirty bytes of the file and the others of the disk. -/
theorem getD_overlay (f : File) (current : Array UInt8) {i : Nat} (inside : i < f.size) :
    (f.overlay current).getD i 0 = if f.isDirtyAt i then f.byte i else current.getD i 0 := by
  unfold overlay
  rw [Array.getD_eq_getD_getElem?, Array.getElem?_ofFn, dif_pos (by omega)]
  rfl

end File

namespace Store

/-- The value of a key is changed where all values are changed by their keys. -/
theorem lookup_mapEntries {α β γ : Type} [DecidableEq α] (change : α → β → γ)
    (pairs : List (α × β)) (key : α) :
    (pairs.map fun (k, v) => (k, change k v)).lookup key = (pairs.lookup key).map (change key) := by
  induction pairs with
  | nil => rfl
  | cons pair rest ih =>
    obtain ⟨k, v⟩ := pair
    simp only [List.map_cons, List.lookup_cons, ih]
    by_cases here : key = k
    · subst here
      simp
    · simp [beq_false_of_ne here]

/-! ## Reading -/

/-- Files that are all read have the contents of the files on disk. -/
theorem files_of_readFiles {fs : FileSystem} {files : List (Path × File)}
    (done : (readFiles fs files).result = .ok ()) :
    (∀ path ∈ files.map Prod.fst, fs.readOrEmpty path = .ok (fs.contents path)) ∧
      (readFiles fs files).files =
        files.map fun (path, f) => (path, f.load (fs.contents path)) := by
  induction files with
  | nil => exact ⟨fun _ absurdity => absurd absurdity List.not_mem_nil, rfl⟩
  | cons entry rest ih =>
    obtain ⟨path, f⟩ := entry
    unfold readFiles at done ⊢
    cases answer : fs.readOrEmpty path with
    | error e =>
      rw [answer] at done
      contradiction
    | ok bytes =>
      rw [answer] at done
      obtain ⟨readable, others⟩ := ih done
      have here : bytes = fs.contents path := by
        unfold FileSystem.contents
        rw [answer]
        rfl
      refine ⟨?_, ?_⟩
      · intro other member
        rcases List.mem_cons.mp member with rfl | later
        · rw [answer, here]
        · exact readable other later
      · dsimp only
        rw [others, here]
        rfl

/-- A store is what another one becomes when it is read from disk. -/
def ReadFrom (fs : FileSystem) (blank s : Store) : Prop :=
  ∃ events, blank.load fs = (s, events, .ok ())

/-- A store can be read from disk when each of its files can be. -/
theorem exists_readFrom {fs : FileSystem} {blank : Store}
    (readable : ∀ path ∈ blank.paths, ∃ bytes, fs.readOrEmpty path = .ok bytes) :
    ∃ s, ReadFrom fs blank s := by
  have each : ∀ files : List (Path × File),
      (∀ path ∈ files.map Prod.fst, ∃ bytes, fs.readOrEmpty path = .ok bytes) →
        (readFiles fs files).result = .ok () := by
    intro files readable
    induction files with
    | nil => rfl
    | cons entry rest ih =>
      obtain ⟨path, f⟩ := entry
      obtain ⟨bytes, answer⟩ := readable path List.mem_cons_self
      unfold readFiles
      rw [answer]
      exact ih fun other later => readable other (List.mem_cons_of_mem _ later)
  refine ⟨(blank.load fs).1, (blank.load fs).2.1, ?_⟩
  unfold load
  rw [← each blank.files readable]

section

variable {fs : FileSystem} {blank s : Store}

/-- Every file of a store that was read has the contents of its file on disk. -/
theorem ReadFrom.file?_eq (read : ReadFrom fs blank s) (path : Path) :
    s.file? path = (blank.file? path).map (·.load (fs.contents path)) := by
  obtain ⟨events, done⟩ := read
  unfold load at done
  simp only [Prod.mk.injEq] at done
  obtain ⟨rfl, _, ended⟩ := done
  unfold file?
  rw [(files_of_readFiles ended).2]
  exact lookup_mapEntries (fun path f => f.load (fs.contents path)) blank.files path

/-- Every path of a store that was read could be read. -/
theorem ReadFrom.readOrEmpty_eq (read : ReadFrom fs blank s) {path : Path}
    (member : path ∈ blank.paths) : fs.readOrEmpty path = .ok (fs.contents path) := by
  obtain ⟨events, done⟩ := read
  unfold load at done
  simp only [Prod.mk.injEq] at done
  exact (files_of_readFiles done.2.2).1 path member

/-- Reading keeps the paths. -/
theorem ReadFrom.paths_eq (read : ReadFrom fs blank s) : s.paths = blank.paths := by
  obtain ⟨events, done⟩ := read
  unfold load at done
  simp only [Prod.mk.injEq] at done
  obtain ⟨rfl, _, ended⟩ := done
  unfold paths
  rw [(files_of_readFiles ended).2, List.map_map]
  rfl

/-- Reading keeps the sizes. -/
theorem ReadFrom.sizes_eq (read : ReadFrom fs blank s) : s.sizes = blank.sizes := by
  obtain ⟨events, done⟩ := read
  unfold load at done
  simp only [Prod.mk.injEq] at done
  obtain ⟨rfl, _, ended⟩ := done
  unfold sizes reading
  rw [(files_of_readFiles ended).2, List.map_map, List.map_map, List.map_map]
  rfl

/-- The bytes of a store that was read are the loaded ones, and none of them is dirty. -/
theorem ReadFrom.byteAt_eq (read : ReadFrom fs blank s) (p : Position) :
    s.byteAt p = s.loadedAt p ∧ s.dirtyAt p = false := by
  unfold byteAt loadedAt dirtyAt
  rw [read.file?_eq]
  cases blank.file? p.file with
  | none => exact ⟨rfl, rfl⟩
  | some f => exact ⟨rfl, File.isDirtyAt_load ..⟩

/-- No file of a store that was read is dirty. -/
theorem ReadFrom.isDirty_eq (read : ReadFrom fs blank s) :
    ∀ entry ∈ s.files, entry.2.isDirty = false := by
  obtain ⟨events, done⟩ := read
  unfold load at done
  simp only [Prod.mk.injEq] at done
  obtain ⟨rfl, _, ended⟩ := done
  intro entry member
  rw [(files_of_readFiles ended).2, List.mem_map] at member
  obtain ⟨⟨path, f⟩, _, rfl⟩ := member
  rw [Bool.eq_false_iff]
  intro dirty
  obtain ⟨i, dirty⟩ := File.isDirty_eq_true_iff.mp dirty
  rw [File.isDirtyAt_load] at dirty
  contradiction

/-- The bytes of a store that was read are those of the files on disk. -/
theorem ReadFrom.loadedAt_eq (read : ReadFrom fs blank s) {p : Position} (present : s.Has p) :
    s.loadedAt p = (fs.contents p.file).getD p.offset.toNat 0 := by
  obtain ⟨size, sized, start, stop⟩ := present
  rw [read.sizes_eq, lookup_sizes, Option.map_eq_some_iff] at sized
  obtain ⟨f, found, rfl⟩ := sized
  unfold loadedAt
  rw [read.file?_eq, found]
  show (f.load _).loadedByte p.offset.toNat = _
  rw [File.loadedByte_load, File.byte_load, if_pos (by omega)]

/-- The bytes of a store that was read are those on disk or zero. -/
theorem ReadFrom.loadedAt_cases (read : ReadFrom fs blank s) {p : Position} (present : s.Has p) :
    s.loadedAt p = 0 ∨ s.loadedAt p = fs.byteAt p := by
  rw [read.loadedAt_eq present]
  rcases fs.contents_cases p.file with nothing | found
  · left
    rw [nothing]
    rfl
  · right
    rw [found]
    rfl

end

/-! ## Writing -/

/-- The paths of the logs that have dirty bytes. -/
def dirtyPaths (s : Store) : List Path :=
  (s.files.filter fun entry => entry.2.isDirty).map Prod.fst

/-- One dirty file is written over what was read of its file on disk. -/
theorem builds_writeFile {fs written : FileSystem} {path : Path} {f : File}
    (done : writeFile fs path f = (written, .ok ())) :
    FileSystem.Builds (· = fs.placeOf path) (fs.Passes path.parent) fs written ∧
      written.locate path = .ok (fs.placeOf path) ∧
        written.node? (fs.placeOf path) = some (.file (f.overlay (fs.contents path))) := by
  unfold writeFile at done
  cases read : fs.readOrEmpty path with
  | error e => simp [read] at done
  | ok current =>
    rw [read] at done
    have known : fs.contents path = current := by
      unfold FileSystem.contents
      rw [read]
      rfl
    rw [known]
    exact FileSystem.builds_replaceDeep done

/-- Where a dirty file cannot be written, there may be new directories above it, and nothing
else. -/
theorem builds_of_writeFile_error {fs left : FileSystem} {path : Path} {f : File} {e : FileError}
    (refused : writeFile fs path f = (left, .error e)) :
    FileSystem.Builds (fun _ => False) (fs.Passes path.parent) fs left := by
  unfold writeFile at refused
  cases read : fs.readOrEmpty path with
  | error e =>
    rw [read] at refused
    obtain ⟨rfl, _⟩ := Prod.mk.inj refused
    exact .refl _ _ _
  | ok current =>
    rw [read] at refused
    exact FileSystem.builds_of_below_error refused

section

variable {fs : FileSystem} {path : Path} {f : File} {rest : List (Path × File)}

/-- A clean file is passed over. -/
theorem writeFiles_of_clean_head (clean : ¬f.isDirty = true) :
    writeFiles fs ((path, f) :: rest) =
      ((writeFiles fs rest).1, ⟨(path, f) :: (writeFiles fs rest).2.files,
        (writeFiles fs rest).2.events, (writeFiles fs rest).2.result⟩) := by
  rw [writeFiles, if_neg clean]

/-- A dirty file is written, and then the others are. -/
theorem writeFiles_of_written (dirty : f.isDirty = true) {next : FileSystem}
    (done : writeFile fs path f = (next, .ok ())) :
    writeFiles fs ((path, f) :: rest) =
      ((writeFiles next rest).1, ⟨(path, f.clean) :: (writeFiles next rest).2.files,
        .logWritten path :: (writeFiles next rest).2.events,
        (writeFiles next rest).2.result.map (path :: ·)⟩) := by
  rw [writeFiles, if_pos dirty, done]

/-- At a dirty file that is refused it ends. -/
theorem writeFiles_of_refused (dirty : f.isDirty = true) {left : FileSystem} {e : FileError}
    (refused : writeFile fs path f = (left, .error e)) :
    writeFiles fs ((path, f) :: rest) = (left, ⟨(path, f) :: rest, [], .error e⟩) := by
  rw [writeFiles, if_pos dirty, refused]

/-- Where all files are written, a dirty one at the front is, and so are the others. -/
theorem written_of_writeFiles_ok (dirty : f.isDirty = true) {paths : List Path}
    (done : (writeFiles fs ((path, f) :: rest)).2.result = .ok paths) :
    ∃ next, writeFile fs path f = (next, .ok ()) ∧
      ∃ others, (writeFiles next rest).2.result = .ok others := by
  cases answer : writeFile fs path f with
  | mk next result =>
    cases result with
    | error e =>
      rw [writeFiles_of_refused dirty answer] at done
      contradiction
    | ok _ =>
      rw [writeFiles_of_written dirty answer] at done
      cases tail : (writeFiles next rest).2.result with
      | error e => simp [tail, Except.map] at done
      | ok others => exact ⟨next, rfl, others, tail⟩

end

/-- The log file that an event says is written. -/
def written? : Event → Option Path
  | .logWritten path => some path
  | _ => none

/-- The log files that events say are written. -/
def writtenIn (events : List Event) : List Path := events.filterMap written?

/-- Only dirty files are written. -/
theorem exists_dirty_of_mem_writtenIn {fs : FileSystem} {files : List (Path × File)} {path : Path}
    (member : path ∈ writtenIn (writeFiles fs files).2.events) :
    ∃ entry ∈ files, entry.2.isDirty = true ∧ entry.1 = path := by
  induction files generalizing fs with
  | nil => contradiction
  | cons entry rest ih =>
    obtain ⟨p, f⟩ := entry
    have later : ∀ {fs : FileSystem}, path ∈ writtenIn (writeFiles fs rest).2.events →
        ∃ entry ∈ (p, f) :: rest, entry.2.isDirty = true ∧ entry.1 = path := by
      intro fs member
      obtain ⟨entry, known, found⟩ := ih member
      exact ⟨entry, List.mem_cons_of_mem _ known, found⟩
    by_cases dirty : f.isDirty = true
    · cases answer : writeFile fs p f with
      | mk next result =>
      cases result with
      | error e =>
        rw [writeFiles_of_refused dirty answer] at member
        contradiction
      | ok _ =>
        rw [writeFiles_of_written dirty answer] at member
        rcases List.mem_cons.mp member with here | behind
        · exact ⟨(p, f), List.mem_cons_self, dirty, here.symm⟩
        · exact later behind
    · rw [writeFiles_of_clean_head dirty] at member
      exact later member

/-- What is on disk when log files are written, also when not all can be: the files that are
written, new directories on the way to dirty ones, and otherwise what was there. -/
theorem builds_writeFiles (fs : FileSystem) (files : List (Path × File)) :
    FileSystem.Builds
      (fun place => ∃ path ∈ writtenIn (writeFiles fs files).2.events, place = fs.placeOf path)
      (fun place => ∃ entry ∈ files, entry.2.isDirty = true ∧ fs.Passes entry.1.parent place)
      fs (writeFiles fs files).1 := by
  induction files generalizing fs with
  | nil => exact .refl _ _ _
  | cons entry rest ih =>
    obtain ⟨path, f⟩ := entry
    by_cases dirty : f.isDirty = true
    · have opens : ∀ place, fs.Passes path.parent place →
          ∃ entry ∈ (path, f) :: rest, entry.2.isDirty = true ∧ fs.Passes entry.1.parent place :=
        fun place passes => ⟨(path, f), List.mem_cons_self, dirty, passes⟩
      cases answer : writeFile fs path f with
      | mk next result =>
      cases result with
      | error e =>
        rw [writeFiles_of_refused dirty answer]
        exact (builds_of_writeFile_error answer).mono (fun _ absurdity => absurdity.elim) opens
      | ok _ =>
        rw [writeFiles_of_written dirty answer]
        obtain ⟨builds, _⟩ := builds_writeFile answer
        refine (builds.mono ?_ opens).trans ((ih next).mono ?_ ?_)
        · rintro place rfl
          exact ⟨path, List.mem_cons_self, rfl⟩
        · rintro place ⟨other, member, rfl⟩
          exact ⟨other, List.mem_cons_of_mem _ member, builds.placeOf_eq other⟩
        · rintro place ⟨other, member, written, passes⟩
          exact ⟨other, List.mem_cons_of_mem _ member, written, builds.passes_iff.mp passes⟩
    · rw [writeFiles_of_clean_head dirty]
      apply (ih fs).mono fun _ here => here
      rintro place ⟨other, member, written, passes⟩
      exact ⟨other, List.mem_cons_of_mem _ member, written, passes⟩

/-- When log files at different places are all written, each dirty one is on disk, written over what
was there, or over nothing when its path could not be followed. -/
theorem node?_of_writeFiles {fs : FileSystem} {files : List (Path × File)} {paths : List Path}
    (done : (writeFiles fs files).2.result = .ok paths)
    (apart : (files.map fun entry => fs.placeOf entry.1).Nodup) {path : Path} {f : File}
    (member : (path, f) ∈ files) (dirty : f.isDirty = true) :
    (writeFiles fs files).1.locate path = .ok (fs.placeOf path) ∧
      ∃ current, (current = fs.bytesAt (fs.placeOf path) ∨
          current = #[] ∧ ∀ place, fs.locate path ≠ .ok place) ∧
        (writeFiles fs files).1.node? (fs.placeOf path) = some (.file (f.overlay current)) := by
  induction files generalizing fs paths with
  | nil => contradiction
  | cons entry rest ih =>
    obtain ⟨p, g⟩ := entry
    rw [List.map_cons, List.nodup_cons] at apart
    obtain ⟨new, apart⟩ := apart
    dsimp only at new
    by_cases first : g.isDirty = true
    · obtain ⟨next, answer, others, ended⟩ := written_of_writeFiles_ok first done
      rw [writeFiles_of_written first answer]
      obtain ⟨builds, located, there⟩ := builds_writeFile answer
      have places : next.placeOf = fs.placeOf := funext builds.placeOf_eq
      rcases List.mem_cons.mp member with here | later
      · obtain ⟨rfl, rfl⟩ := Prod.mk.inj here
        -- The files behind are at other places, so this one stays as it was written.
        have behind := builds_writeFiles next rest
        refine ⟨behind.grows.locate located, fs.contents path, ?_, ?_⟩
        · have self := FileSystem.Grows.refl (fun _ => False) fs
          exact self.contents_cases fun absurdity => absurdity
        · rw [places] at behind
          have unwritten : ¬∃ other ∈ writtenIn (writeFiles next rest).2.events,
              fs.placeOf path = fs.placeOf other := by
            rintro ⟨other, written, same⟩
            obtain ⟨entry, known, _, rfl⟩ := exists_dirty_of_mem_writtenIn written
            exact new (List.mem_map.mpr ⟨entry, known, same.symm⟩)
          exact (behind.file_iff unwritten).mpr there
      · have elsewhere : fs.placeOf path ≠ fs.placeOf p := fun same =>
          new (List.mem_map.mpr ⟨(path, f), later, same⟩)
        obtain ⟨followed, current, known, found⟩ :=
          ih ended (by rw [places]; exact apart) later
        rw [places] at followed known found
        refine ⟨followed, current, ?_, found⟩
        rw [builds.grows.bytes _ elsewhere] at known
        exact known.imp_right fun ⟨nothing, lost⟩ =>
          ⟨nothing, fun place found => lost place (builds.grows.locate found)⟩
    · rw [writeFiles_of_clean_head first] at done ⊢
      rcases List.mem_cons.mp member with here | later
      · obtain ⟨rfl, rfl⟩ := Prod.mk.inj here
        exact absurd dirty first
      · exact ih done apart later

/-- What becomes of the files on disk when log files are written. -/
structure Writes (fs written : FileSystem) (files : List (Path × File)) : Prop where
  /-- No file changes but those of the dirty log files. -/
  grows : FileSystem.Grows (fun place => ∃ entry ∈ files, entry.2.isDirty = true ∧
    place = fs.placeOf entry.1) fs written
  /-- Every dirty file is written over nothing or over what was on disk. -/
  dirty : ∀ entry ∈ files, entry.2.isDirty = true →
    written.locate entry.1 = .ok (fs.placeOf entry.1) ∧
      ∃ current, (current = #[] ∨ current = fs.bytesAt (fs.placeOf entry.1)) ∧
        written.bytesAt (fs.placeOf entry.1) = entry.2.overlay current

/-- Log files that are all written, to different places, are on disk. -/
theorem writes_of_writeFiles {fs : FileSystem} {files : List (Path × File)} {paths : List Path}
    (done : (writeFiles fs files).2.result = .ok paths)
    (apart : (files.map fun entry => fs.placeOf entry.1).Nodup) :
    Writes fs (writeFiles fs files).1 files where
  grows := by
    apply (builds_writeFiles fs files).grows.mono
    rintro place ⟨path, member, rfl⟩
    obtain ⟨entry, known, dirty, rfl⟩ := exists_dirty_of_mem_writtenIn member
    exact ⟨entry, known, dirty, rfl⟩
  dirty := by
    rintro ⟨path, f⟩ member dirty
    obtain ⟨located, current, known, there⟩ := node?_of_writeFiles done apart member dirty
    refine ⟨located, current, ?_, FileSystem.bytesAt_of_file there⟩
    rcases known with same | ⟨nothing, _⟩
    · exact .inr same
    · exact .inl nothing

/-- Clean files are not written. -/
theorem writeFiles_of_clean (fs : FileSystem) {files : List (Path × File)}
    (clean : ∀ entry ∈ files, entry.2.isDirty = false) :
    writeFiles fs files = (fs, ⟨files, [], .ok []⟩) := by
  induction files with
  | nil => rfl
  | cons entry rest ih =>
    obtain ⟨path, f⟩ := entry
    have here : f.isDirty = false := clean _ List.mem_cons_self
    rw [writeFiles_of_clean_head (Bool.eq_false_iff.mp here),
      ih fun entry member => clean entry (List.mem_cons_of_mem _ member)]

/-- Where nothing is dirty nothing is written. -/
theorem flush_of_clean {s : Store} (clean : ∀ entry ∈ s.files, entry.2.isDirty = false)
    (fs : FileSystem) : s.flush fs = (s, fs, [], .ok []) := by
  unfold flush
  rw [writeFiles_of_clean fs clean]

/-- Log files at different places that are all written are on disk: their dirty bytes as they were
in memory, and at the other offsets what was on disk, or nothing. -/
theorem getD_contents_of_flush {s saved : Store} {fs written : FileSystem} {events : List Event}
    {paths : List Path} (done : s.flush fs = (saved, written, events, .ok paths))
    (apart : (s.paths.map fs.placeOf).Nodup) {p : Position} (present : s.Has p)
    (readable : written.readOrEmpty p.file = .ok (written.contents p.file)) :
    (s.dirtyAt p = true →
        (written.contents p.file).getD p.offset.toNat 0 = s.byteAt p) ∧
      (s.dirtyAt p = false →
        (written.contents p.file).getD p.offset.toNat 0 = 0 ∨
          (written.contents p.file).getD p.offset.toNat 0 = fs.byteAt p) := by
  unfold flush at done
  simp only [Prod.mk.injEq] at done
  obtain ⟨_, rfl, _, ended⟩ := done
  have places : (s.files.map fun entry => fs.placeOf entry.1).Nodup := by
    unfold Store.paths at apart
    rw [List.map_map] at apart
    exact apart
  obtain ⟨grows, replaced⟩ := writes_of_writeFiles ended places
  obtain ⟨size, sized, start, stop⟩ := present
  rw [lookup_sizes, Option.map_eq_some_iff] at sized
  obtain ⟨f, found, rfl⟩ := sized
  have member : (p.file, f) ∈ s.files := by
    obtain ⟨front, back, split, _⟩ := List.lookup_eq_some_iff.mp found
    rw [split]
    simp
  have inside : p.offset.toNat < f.size := by omega
  have byte : s.byteAt p = f.byte p.offset.toNat := by
    unfold byteAt
    rw [found]
  have flag : s.dirtyAt p = f.isDirtyAt p.offset.toNat := by
    unfold dirtyAt
    rw [found]
  rw [byte, flag]
  by_cases dirty : f.isDirty = true
  · obtain ⟨located, current, known, bytes⟩ := replaced _ member dirty
    rw [FileSystem.eq_bytesAt_of_readOrEmpty located readable, bytes,
      File.getD_overlay _ _ inside]
    refine ⟨fun marked => by rw [marked, if_pos rfl], ?_⟩
    intro unmarked
    rw [unmarked, if_neg Bool.false_ne_true]
    rcases known with rfl | rfl
    · exact .inl rfl
    · exact .inr rfl
  · have never : f.isDirtyAt p.offset.toNat ≠ true := fun marked =>
      dirty (File.isDirty_eq_true_iff.mpr ⟨_, marked⟩)
    refine ⟨fun marked => absurd marked never, fun _ => ?_⟩
    rcases FileSystem.eq_of_readOrEmpty readable with nothing | kept
    · left
      rw [nothing]
      rfl
    · right
      rw [kept, grows.placeOf_eq, grows.bytes]
      · rfl
      · rintro ⟨other, member', written, same⟩
        have equal := List.inj_on_of_nodup_map places member member' same
        rw [← equal] at written
        exact dirty written

end Store

end Cdl

end BankTrace
