import BankTrace.Proofs.Cdl.Restoration

/-!
# What writing overwrites

A log is written to the place that its path leads to, whatever is there. Nothing keeps a log path
from leading to a file that is no log, and such a file is overwritten like one. So the file at a
place stays as it is when no log is written there. When one is, the file is another one afterwards:
a log is only written for the sake of a byte that is not the one that was read.
-/

namespace BankTrace

namespace FileSystem

/-- The bytes of the file at a place, if there is a file. -/
def fileAt? (fs : FileSystem) (place : Place) : Option (Array UInt8) :=
  match fs.node? place with
  | some (.file bytes) => some bytes
  | _ => none

/-- The bytes at a place are those of its file, or none. -/
theorem bytesAt_eq_getD (fs : FileSystem) (place : Place) :
    fs.bytesAt place = (fs.fileAt? place).getD #[] := by
  unfold bytesAt fileAt?
  cases fs.node? place with
  | none => rfl
  | some node => cases node <;> rfl

/-- Where nothing is written the file stays, and none comes to be. -/
theorem Builds.fileAt?_eq {written opened : Place → Prop} {before after : FileSystem}
    (builds : Builds written opened before after) {place : Place} (elsewhere : ¬written place) :
    after.fileAt? place = before.fileAt? place := by
  unfold fileAt?
  rcases builds.nodes place elsewhere with stays | ⟨nothing, made, _⟩
  · rw [stays]
  · rw [nothing, made]

/-- The file at a place has a byte that is not the one of an original. -/
def DiffersFrom (fs : FileSystem) (original : Array UInt8) (place : Place) : Prop :=
  ∃ i : Nat, (fs.bytesAt place).getD i 0 ≠ original.getD i 0

/-- What becomes of the files on a disk when logs are written to some of their paths, or to none. -/
structure Overwrites (before : FileSystem) (logs written : List Path) (after : FileSystem) :
    Prop where
  /-- What is written is written to the path of a log. -/
  named : ∀ path ∈ written, path ∈ logs
  /-- Files at other places stay. -/
  kept : ∀ place, (∀ path ∈ written, before.placeOf path ≠ place) →
    after.fileAt? place = before.fileAt? place
  /-- Where a log is written there is another file afterwards, if all logs that lead there could be
  followed. -/
  lost : ∀ place, (∀ path ∈ logs, before.placeOf path = place → before.locate path = .ok place) →
    ∀ path ∈ written, before.placeOf path = place → after.fileAt? place ≠ before.fileAt? place

/-- There may be further logs that are not written, if they could be followed as well. -/
theorem Overwrites.mono {logs wider written : List Path} {before after : FileSystem}
    (overwrites : before.Overwrites logs written after) (more : ∀ path ∈ logs, path ∈ wider) :
    before.Overwrites wider written after where
  named := fun path member => more path (overwrites.named path member)
  kept := overwrites.kept
  lost := fun place followed =>
    overwrites.lost place fun path member => followed path (more path member)

/-- Where nothing is written nothing changes. -/
theorem overwrites_nothing (fs : FileSystem) (logs : List Path) : fs.Overwrites logs [] fs where
  named := fun _ absurdity => absurd absurdity List.not_mem_nil
  kept := fun _ _ => rfl
  lost := fun _ _ _ absurdity => absurd absurdity List.not_mem_nil

end FileSystem

namespace Cdl

/-- A dirty byte is one of the file. -/
theorem File.lt_size_of_isDirtyAt {f : File} {i : Nat} (dirty : f.isDirtyAt i = true) :
    i < f.size := by
  by_contra outside
  simp [isDirtyAt, outside] at dirty

namespace Store

/-! ## One place -/

section

variable {fs : FileSystem} {place : Place} {original : Array UInt8}

/-- A dirty file that is written leaves a byte at a place that is not the one of an original, when
there was such a byte before, or when the file is written there and none of its dirty bytes is the
one of the original. -/
theorem differsFrom_writeFile {written : FileSystem} {path : Path} {f : File}
    (done : writeFile fs path f = (written, .ok ())) (dirty : f.isDirty = true)
    (new : fs.placeOf path = place → ∀ i, f.isDirtyAt i = true → f.byte i ≠ original.getD i 0)
    (reached : fs.DiffersFrom original place ∨ fs.placeOf path = place) :
    written.DiffersFrom original place := by
  obtain ⟨builds, _, there⟩ := builds_writeFile done
  by_cases here : fs.placeOf path = place
  · obtain ⟨i, marked⟩ := File.isDirty_eq_true_iff.mp dirty
    have inside := File.lt_size_of_isDirtyAt marked
    rw [here] at there
    refine ⟨i, ?_⟩
    rw [FileSystem.bytesAt_of_file there, File.getD_overlay f _ inside, marked, if_pos rfl]
    exact new here i marked
  · obtain ⟨i, differs⟩ := reached.resolve_right here
    refine ⟨i, ?_⟩
    rw [builds.grows.bytes place fun same => here same.symm]
    exact differs

/-- Logs that are written one after the other leave a byte at a place that is not the one of an
original, when there was such a byte before, or when one of them is written there. A log that is
written over another one keeps the bytes of it that are not dirty. -/
theorem differsFrom_writeFiles {files : List (Path × File)}
    (new : ∀ entry ∈ files, fs.placeOf entry.1 = place →
      ∀ i, entry.2.isDirtyAt i = true → entry.2.byte i ≠ original.getD i 0)
    (reached : fs.DiffersFrom original place ∨
      ∃ path ∈ writtenIn (writeFiles fs files).2.events, fs.placeOf path = place) :
    (writeFiles fs files).1.DiffersFrom original place := by
  induction files generalizing fs with
  | nil =>
    rcases reached with before | ⟨path, absurdity, _⟩
    · exact before
    · contradiction
  | cons entry rest ih =>
    obtain ⟨path, f⟩ := entry
    have new' := fun entry member => new entry (List.mem_cons_of_mem _ member)
    unfold writeFiles at reached ⊢
    by_cases dirty : f.isDirty = true
    · rw [if_pos dirty] at reached ⊢
      cases answer : writeFile fs path f with
      | mk next result =>
      rw [answer] at reached
      cases result with
      | error e =>
        rcases reached with ⟨i, differs⟩ | ⟨other, absurdity, _⟩
        · refine ⟨i, ?_⟩
          rw [(builds_of_writeFile_error answer).grows.bytes place not_false]
          exact differs
        · contradiction
      | ok _ =>
        have places : next.placeOf = fs.placeOf := funext (builds_writeFile answer).1.placeOf_eq
        have first := differsFrom_writeFile answer dirty (new _ List.mem_cons_self)
        apply ih
        · rw [places]
          exact new'
        · rw [places]
          rcases reached with before | ⟨other, member, leads⟩
          · exact .inl (first (.inl before))
          · rcases List.mem_cons.mp member with here | later
            · rw [here] at leads
              exact .inl (first (.inr leads))
            · exact .inr ⟨other, later, leads⟩
    · rw [if_neg dirty] at reached ⊢
      exact ih new' reached

end

/-! ## Whole stores -/

/-- No dirty byte of a store is the one that its path reads on a disk. -/
def IsAheadOf (fs : FileSystem) (s : Store) : Prop :=
  ∀ entry ∈ s.files, ∀ i, entry.2.isDirtyAt i = true →
    entry.2.byte i ≠ (fs.contents entry.1).getD i 0

/-- Every file is found by its path, as long as the paths are different. -/
theorem file?_of_mem {s : Store} (unique : s.paths.Nodup) {path : Path} {f : File}
    (member : (path, f) ∈ s.files) : s.file? path = some f := by
  obtain ⟨front, back, split⟩ := List.append_of_mem member
  apply List.lookup_eq_some_iff.mpr
  refine ⟨front, back, split, ?_⟩
  intro entry early
  unfold paths at unique
  rw [split, List.map_append, List.nodup_append] at unique
  have apart := unique.2.2 entry.1 (List.mem_map_of_mem early) path (by simp)
  exact bne_iff_ne.mpr (Ne.symm apart)

/-- A store that was read and then marked is ahead of the disk. -/
theorem ReadFrom.isAheadOf {fs : FileSystem} {blank read : Store} (loaded : ReadFrom fs blank read)
    (unique : read.paths.Nodup) (marks : List Mark) : (read.markAll marks).IsAheadOf fs := by
  rintro ⟨path, f⟩ member i dirty
  have same := reading_markAll read marks
  have found : (read.markAll marks).file? path = some f := by
    apply file?_of_mem _ member
    rw [paths_congr same]
    exact unique
  have present : read.Has ⟨path, i⟩ := by
    apply (has_congr same _).mp
    refine ⟨f.size, ?_, Int.natCast_nonneg i, Int.ofNat_lt.mpr (File.lt_size_of_isDirtyAt dirty)⟩
    rw [lookup_sizes, found]
    rfl
  have follows := follows_markAll marks loaded.follows path f found
  have base : read.byteAt ⟨path, i⟩ = (fs.contents path).getD i 0 :=
    (loaded.byteAt_eq ⟨path, i⟩).1.trans (loaded.loadedAt_eq present)
  dsimp only
  rw [← base]
  exact (follows.dirty i).mp dirty

/-- A store that is ahead of the disk overwrites what is at the places of the logs that it says it
has written, also when not all can be written. -/
theorem overwrites_flush {fs : FileSystem} {s : Store} (ahead : s.IsAheadOf fs) :
    fs.Overwrites s.paths (s.writtenPaths fs) (s.flush fs).2.1 where
  named := by
    intro path member
    rw [← writtenIn_flush] at member
    obtain ⟨entry, known, _, here⟩ := exists_dirty_of_mem_writtenIn member
    rw [← here]
    exact List.mem_map_of_mem known
  kept := by
    intro place elsewhere
    apply (builds_writeFiles fs s.files).fileAt?_eq
    intro ⟨path, member, here⟩
    have listed : path ∈ s.writtenPaths fs := s.writtenIn_flush fs ▸ member
    exact elsewhere path listed here.symm
  lost := by
    intro place followed path member leads same
    have new : ∀ entry ∈ s.files, fs.placeOf entry.1 = place →
        ∀ i, entry.2.isDirtyAt i = true → entry.2.byte i ≠ (fs.bytesAt place).getD i 0 := by
      intro entry known here
      have located := followed entry.1 (List.mem_map_of_mem known) here
      rw [← FileSystem.contents_of_locate located]
      exact ahead entry known
    rw [← writtenIn_flush] at member
    obtain ⟨i, differs⟩ := differsFrom_writeFiles new (.inr ⟨path, member, leads⟩)
    apply differs
    rw [FileSystem.bytesAt_eq_getD, FileSystem.bytesAt_eq_getD]
    exact congrArg (fun file => (Option.getD file #[]).getD i 0) same

end Store

end Cdl

end BankTrace
