import BankTrace.Proofs.Cdl.Flushing
import BankTrace.Proofs.FileSystem.Removal

/-!
# Writing alike

What is written to disk depends on what is found there: whether the file can be written at all, and
over which bytes. Where that is alike the same is written, and then everything is alike. So it is
when everything was alike before, when things have been taken away on no way to what is written, and
also for a file that could not be written before: the directories that were made for it make no
difference when it is written later, as what kept it from being written was none that was missing.
-/

namespace BankTrace

namespace FileSystem

variable {fs other : FileSystem} {path : Path}

/-- What a path reads that can be followed is what is at its place. -/
theorem Followed.contents_eq (followed : fs.Followed path) :
    fs.contents path = fs.bytesAt (fs.placeOf path) :=
  contents_of_locate (locate_eq_ok_iff.mpr ⟨followed, rfl⟩)

/-- A path that cannot be followed reads as nothing. -/
theorem contents_of_not_followed (lost : ¬fs.Followed path) : fs.contents path = #[] :=
  contents_of_not_located fun _ located => lost (locate_eq_ok_iff.mp located).1

/-- What a path reads is the same where it is followed alike and the same is at its place. -/
theorem contents_congr (alike : other.Followed path ↔ fs.Followed path)
    (same : other.bytesAt (other.placeOf path) = fs.bytesAt (fs.placeOf path)) :
    other.contents path = fs.contents path := by
  by_cases followed : fs.Followed path
  · rw [followed.contents_eq, (alike.mpr followed).contents_eq, same]
  · rw [contents_of_not_followed followed, contents_of_not_followed (mt alike.mp followed)]

/-- A file that can be written can be read. -/
theorem Writable.readOrEmpty_eq (writable : fs.Writable path) :
    fs.readOrEmpty path = .ok (fs.contents path) := by
  have read : ∃ bytes, fs.readOrEmpty path = .ok bytes := by
    have followed : fs.locate path = .ok (fs.placeOf path) ∨
        fs.locate path = .error (.notFound path.toString) := by
      rw [locate_of_spelt fs writable.spelt]
      exact walk_of_way (fun front begins => writable.way _ ⟨front, begins, rfl⟩) writable.short
    unfold readOrEmpty FileSystem.read find
    rcases followed with located | lost
    · rw [located]
      cases there : fs.node? (fs.placeOf path) with
      | none =>
        refine ⟨#[], ?_⟩
        simp [bind, Except.bind, there, throw, throwThe, MonadExceptOf.throw]
      | some node =>
        cases node with
        | file bytes => exact ⟨bytes, by simp [bind, Except.bind, pure, Except.pure, there]⟩
        | directory => exact absurd there writable.free
    · rw [lost]
      exact ⟨#[], rfl⟩
  have ⟨bytes, done⟩ := read
  unfold contents
  rw [done]
  rfl

/-- A path is written alike in two file systems: in both or in none, over the same bytes, and what
neither the path nor the file touches is the same. -/
structure WritesAlike (fs other : FileSystem) (path : Path) : Prop where
  /-- They have the same home directory. -/
  home_eq : other.home = fs.home
  /-- The file can be written in both or in none. -/
  writable_iff : other.Writable path ↔ fs.Writable path
  /-- It is written over the same bytes. -/
  contents_eq : fs.Writable path → other.contents path = fs.contents path
  /-- Beside the way to the file and the file itself they are the same. -/
  others : ∀ place, ¬fs.Passes path.parent place → place ≠ fs.placeOf path →
    other.node? place = fs.node? place

/-- Being written alike is mutual. -/
theorem WritesAlike.symm (alike : fs.WritesAlike other path) : other.WritesAlike fs path where
  home_eq := alike.home_eq.symm
  writable_iff := alike.writable_iff.symm
  contents_eq writable := (alike.contents_eq (alike.writable_iff.mp writable)).symm
  others := by
    rw [passes_congr alike.home_eq, placeOf_congr alike.home_eq]
    exact fun place beside elsewhere => (alike.others place beside elsewhere).symm

/-- What is written alike in turn is written alike. -/
theorem WritesAlike.trans {third : FileSystem} (alike : fs.WritesAlike other path)
    (next : other.WritesAlike third path) : fs.WritesAlike third path where
  home_eq := next.home_eq.trans alike.home_eq
  writable_iff := next.writable_iff.trans alike.writable_iff
  contents_eq writable :=
    (next.contents_eq (alike.writable_iff.mpr writable)).trans (alike.contents_eq writable)
  others := by
    have further := next.others
    rw [passes_congr alike.home_eq, placeOf_congr alike.home_eq] at further
    exact fun place beside elsewhere =>
      (further place beside elsewhere).trans (alike.others place beside elsewhere)

/-- Paths are written alike in file systems that are alike. -/
theorem Alike.writesAlike (alike : fs.Alike other) (path : Path) : fs.WritesAlike other path where
  home_eq := alike.home_eq
  writable_iff := ⟨alike.symm.writable, alike.writable⟩
  contents_eq _ := by
    apply contents_congr ⟨alike.symm.followed, alike.followed⟩
    unfold bytesAt
    rw [placeOf_congr alike.home_eq, alike.nodes]
  others place _ _ := alike.nodes place

section

variable {gone : Place → Bool} (builds : Builds (fun _ => False) (fs.Passes path.parent) fs other)

include builds

/-- Directories that were made for a file do not matter to what is at places beside its way. -/
theorem Builds.node?_without_eq {place : Place} (beside : ¬fs.Passes path.parent place) :
    (other.without gone).node? place = (fs.without gone).node? place := by
  have same : other.node? place = fs.node? place :=
    (builds.nodes place id).resolve_right fun ⟨_, _, passes⟩ => beside passes
  rw [node?_without, node?_without, builds.home_eq, same]

/-- They do not matter to whether the file can be written when something is taken away. -/
theorem Builds.writable_without_iff :
    (other.without gone).Writable path ↔ (fs.without gone).Writable path := by
  have files : ∀ place bytes, (other.without gone).node? place = some (.file bytes) ↔
      (fs.without gone).node? place = some (.file bytes) := by
    intro place bytes
    rw [node?_without_eq_file_iff, node?_without_eq_file_iff, builds.file_iff id]
  have home : (other.without gone).home = (fs.without gone).home := builds.home_eq
  have places : (other.without gone).placeOf = (fs.without gone).placeOf := placeOf_congr home
  constructor
  · intro writable
    have aside : ¬fs.Passes path.parent (fs.placeOf path) := by
      have through := writable.aside
      rw [passes_congr home, places] at through
      exact through
    apply writable.congr home.symm fun place _ bytes => (files place bytes).mpr
    rw [places]
    exact (builds.node?_without_eq aside).symm
  · intro writable
    exact writable.congr home (fun place _ bytes => (files place bytes).mp)
      (builds.node?_without_eq writable.aside)

/-- They do not matter to what is read of it then, if nothing is at its end where they alone let it
be followed. -/
theorem Builds.contents_without_eq (writable : (fs.without gone).Writable path)
    (opened : ¬(fs.without gone).Followed path → (other.without gone).Followed path →
      (fs.without gone).bytesAt ((fs.without gone).placeOf path) = #[]) :
    (other.without gone).contents path = (fs.without gone).contents path := by
  have home : (other.without gone).home = (fs.without gone).home := builds.home_eq
  have places : (other.without gone).placeOf = (fs.without gone).placeOf := placeOf_congr home
  have passed : (other.without gone).Passes = (fs.without gone).Passes := passes_congr home
  have same : (other.without gone).bytesAt ((other.without gone).placeOf path) =
      (fs.without gone).bytesAt ((fs.without gone).placeOf path) := by
    unfold bytesAt
    rw [places, builds.node?_without_eq writable.aside]
  have stays : (fs.without gone).Followed path → (other.without gone).Followed path := by
    intro followed
    refine ⟨writable.spelt, writable.short, ?_⟩
    rw [passed]
    exact fun place passes =>
      directory_without builds.home_eq (builds.directories place) (followed.way place passes)
  by_cases followed : (other.without gone).Followed path
  · by_cases early : (fs.without gone).Followed path
    · exact contents_congr ⟨fun _ => early, fun _ => followed⟩ same
    · rw [contents_of_not_followed early, followed.contents_eq, same, opened early followed]
  · rw [contents_of_not_followed followed, contents_of_not_followed (mt stays followed)]

/-- Nothing is at its end where they alone let it be followed, if it could not be written before:
what kept it from being written was no directory that was missing. -/
theorem Builds.bytesAt_of_refused (refused : ¬fs.Writable path)
    (writable : (fs.without gone).Writable path) (followed : (other.without gone).Followed path) :
    (fs.without gone).bytesAt ((fs.without gone).placeOf path) = #[] := by
  have passed : (other.without gone).Passes = (fs.without gone).Passes :=
    passes_congr builds.home_eq
  unfold bytesAt
  split
  case h_2 => rfl
  case h_1 bytes there =>
    -- With a file at the end, it was a file on the way that kept the path from being written. It
    -- cannot have become a directory.
    have last : fs.node? (fs.placeOf path) = some (.file bytes) :=
      (node?_without_eq_file_iff.mp there).2
    refine absurd ⟨writable.spelt, writable.short, ?_, ?_, writable.aside,
      writable.nameable.congr rfl⟩ refused
    · intro place passes bytes blocked
      have passes' : (other.without gone).Passes path.parent place := by
        rw [passed]
        exact passes
      have opened := followed.way place passes'
      have still := (builds.file_iff id).mpr blocked
      rw [directory_of_without opened] at still
      exact Node.noConfusion (Option.some.inj still)
    · rw [last]
      exact fun other => Node.noConfusion (Option.some.inj other)

/-- Directories that were made for a file that could not be written make no difference when it is
written later, with something taken away. -/
theorem Builds.writesAlike (gone : Place → Bool) (refused : ¬fs.Writable path) :
    (fs.without gone).WritesAlike (other.without gone) path where
  home_eq := builds.home_eq
  writable_iff := builds.writable_without_iff
  contents_eq writable := builds.contents_without_eq writable fun _ followed =>
    builds.bytesAt_of_refused refused writable followed
  others _ beside _ := builds.node?_without_eq beside

/-- Directories that were made for a file make no difference either when it shows what is at its
place without them. -/
theorem Builds.writesAlike_of_shows (shows : (fs.without gone).Shows path) :
    (fs.without gone).WritesAlike (other.without gone) path where
  home_eq := builds.home_eq
  writable_iff := builds.writable_without_iff
  contents_eq writable := by
    refine builds.contents_without_eq writable fun early _ => ?_
    rcases shows with ⟨place, located⟩ | free
    · exact absurd (locate_eq_ok_iff.mp located).1 early
    · unfold bytesAt
      rw [free]
  others _ beside _ := builds.node?_without_eq beside

end

end FileSystem

namespace Cdl

namespace Store

section

variable {fs other written : FileSystem} {path : Path} {f : File}

/-- A dirty file that has been written could be, and it is over what was read. -/
theorem writable_of_writeFile (done : writeFile fs path f = (written, .ok ())) :
    fs.Writable path ∧ fs.Written written path (f.overlay (fs.contents path)) := by
  unfold writeFile at done
  cases read : fs.readOrEmpty path with
  | error e => simp [read] at done
  | ok current =>
    rw [read] at done
    have known : fs.contents path = current := by
      unfold FileSystem.contents
      rw [read]
      rfl
    rw [known]
    exact FileSystem.writable_of_replaceDeep done

/-- A dirty file that can be written is. -/
theorem exists_writeFile (writable : fs.Writable path) (f : File) :
    ∃ written, writeFile fs path f = (written, .ok ()) := by
  unfold writeFile
  rw [writable.readOrEmpty_eq]
  exact writable.exists_replaceDeep _

/-- A dirty file that is written is written in the same way where it is written alike. -/
theorem writeFile_alike (alike : fs.WritesAlike other path)
    (done : writeFile fs path f = (written, .ok ())) :
    ∃ written', writeFile other path f = (written', .ok ()) ∧ written.Alike written' := by
  have ⟨writable, here⟩ := writable_of_writeFile done
  have ⟨written', done'⟩ := exists_writeFile (alike.writable_iff.mpr writable) f
  have there := (writable_of_writeFile done').2
  rw [alike.contents_eq writable] at there
  exact ⟨written', done', here.alike there alike.home_eq alike.others⟩

/-- A dirty file that is refused could not be written, and what is left of it are directories on its
way. -/
theorem refused_of_writeFile {left : FileSystem} {e : FileError}
    (refused : writeFile fs path f = (left, .error e)) :
    ¬fs.Writable path ∧
      FileSystem.Builds (fun _ => False) (fs.Passes path.parent) fs left := by
  refine ⟨fun writable => ?_, builds_of_writeFile_error refused⟩
  have ⟨written, done⟩ := exists_writeFile writable f
  rw [refused] at done
  exact nomatch (Prod.mk.inj done).2

end

/-! ## Several files -/

section

variable {fs other : FileSystem} {path : Path} {f : File} {rest : List (Path × File)}

/-- When the files at the front have been written, writing goes on with the others. -/
theorem writeFiles_append {front : List (Path × File)} {paths : List Path}
    (done : (writeFiles fs front).2.result = .ok paths) (back : List (Path × File)) :
    writeFiles fs (front ++ back) =
      let before := writeFiles fs front
      let behind := writeFiles before.1 back
      (behind.1, ⟨before.2.files ++ behind.2.files, before.2.events ++ behind.2.events,
        behind.2.result.map (paths ++ ·)⟩) := by
  have map_map : ∀ (result : Except FileError (List Path)) (path : Path) (others : List Path),
      (result.map (others ++ ·)).map (path :: ·) = result.map (path :: others ++ ·) := by
    intro result path others
    cases result <;> rfl
  have map_same : ∀ result : Except FileError (List Path),
      result.map (fun all => all) = result := by
    intro result
    cases result <;> rfl
  induction front generalizing fs paths with
  | nil =>
    have none : paths = [] := (Except.ok.inj done).symm
    rw [none]
    dsimp only [writeFiles, List.nil_append]
    rw [map_same]
  | cons entry front ih =>
    have ⟨path, f⟩ := entry
    by_cases dirty : f.isDirty = true
    · have ⟨next, first, others, ended⟩ := written_of_writeFiles_ok dirty done
      rw [writeFiles_of_written dirty first] at done
      rw [List.cons_append, writeFiles_of_written dirty first, writeFiles_of_written dirty first,
        ih ended]
      dsimp only at done ⊢
      rw [ended] at done
      have paths_eq : path :: others = paths := Except.ok.inj done
      rw [← paths_eq, map_map]
      rfl
    · rw [writeFiles_of_clean_head dirty] at done
      rw [List.cons_append, writeFiles_of_clean_head dirty, writeFiles_of_clean_head dirty, ih done]
      rfl

/-- Clean files at the front are passed over. -/
theorem writeFiles_append_of_clean {front : List (Path × File)}
    (clean : ∀ entry ∈ front, entry.2.isDirty = false) (back : List (Path × File)) :
    writeFiles fs (front ++ back) =
      ((writeFiles fs back).1, ⟨front ++ (writeFiles fs back).2.files,
        (writeFiles fs back).2.events, (writeFiles fs back).2.result⟩) := by
  induction front with
  | nil => rfl
  | cons entry front ih =>
    have ⟨path, f⟩ := entry
    have here : ¬f.isDirty = true := Bool.eq_false_iff.mp (clean _ List.mem_cons_self)
    rw [List.cons_append, writeFiles_of_clean_head here,
      ih fun other member => clean other (List.mem_cons_of_mem _ member)]
    rfl

/-- A dirty file and those behind it are written in the same way where it is written alike, if those
behind it are where everything is alike. -/
theorem writeFiles_writesAlike
    (behind : ∀ {fs other : FileSystem} {paths : List Path}, fs.Alike other →
      (writeFiles fs rest).2.result = .ok paths →
        (writeFiles other rest).2 = (writeFiles fs rest).2 ∧
          (writeFiles fs rest).1.Alike (writeFiles other rest).1)
    (alike : fs.WritesAlike other path) (dirty : f.isDirty = true) {paths : List Path}
    (done : (writeFiles fs ((path, f) :: rest)).2.result = .ok paths) :
    (writeFiles other ((path, f) :: rest)).2 = (writeFiles fs ((path, f) :: rest)).2 ∧
      (writeFiles fs ((path, f) :: rest)).1.Alike (writeFiles other ((path, f) :: rest)).1 := by
  have ⟨next, first, others, ended⟩ := written_of_writeFiles_ok dirty done
  have ⟨next', first', alike'⟩ := writeFile_alike alike first
  have ⟨same, disk⟩ := behind alike' ended
  rw [writeFiles_of_written dirty first, writeFiles_of_written dirty first', same]
  exact ⟨rfl, disk⟩

/-- Files are written in the same way where everything is alike. -/
theorem writeFiles_alike {files : List (Path × File)} {paths : List Path} (alike : fs.Alike other)
    (done : (writeFiles fs files).2.result = .ok paths) :
    (writeFiles other files).2 = (writeFiles fs files).2 ∧
      (writeFiles fs files).1.Alike (writeFiles other files).1 := by
  induction files generalizing fs other paths with
  | nil => exact ⟨rfl, alike⟩
  | cons entry rest ih =>
    have ⟨path, f⟩ := entry
    by_cases dirty : f.isDirty = true
    · exact writeFiles_writesAlike ih (alike.writesAlike path) dirty done
    · rw [writeFiles_of_clean_head dirty] at done
      have ⟨same, disk⟩ := ih alike done
      rw [writeFiles_of_clean_head dirty, writeFiles_of_clean_head dirty, same]
      exact ⟨rfl, disk⟩

/-- Files are written in the same way when things have been taken away before that are on no way to
them. -/
theorem writeFiles_without {gone : Place → Bool} {files : List (Path × File)}
    {paths : List Path}
    (spared : ∀ entry ∈ files, entry.2.isDirty = true → fs.Spares gone entry.1)
    (done : (writeFiles fs files).2.result = .ok paths) :
    (writeFiles (fs.without gone) files).2 = (writeFiles fs files).2 ∧
      ((writeFiles fs files).1.without gone).Alike (writeFiles (fs.without gone) files).1 := by
  induction files generalizing fs paths with
  | nil => exact ⟨rfl, .refl _⟩
  | cons entry rest ih =>
    have ⟨path, f⟩ := entry
    have later : ∀ entry ∈ rest, entry.2.isDirty = true → fs.Spares gone entry.1 :=
      fun entry member => spared entry (List.mem_cons_of_mem _ member)
    by_cases dirty : f.isDirty = true
    · have spares := spared (path, f) List.mem_cons_self dirty
      have ⟨next, first, others, ended⟩ := written_of_writeFiles_ok dirty done
      have ⟨writable, here⟩ := writable_of_writeFile first
      have ⟨next', first'⟩ := exists_writeFile (spares.writable writable) f
      have there := (writable_of_writeFile first').2
      have same : (fs.without gone).contents path = fs.contents path :=
        FileSystem.contents_congr spares.followed_iff spares.bytesAt_eq
      rw [same] at there
      have alike : (next.without gone).Alike next' :=
        (spares.written here).alike there rfl fun _ _ _ => rfl
      have still : ∀ entry ∈ rest, entry.2.isDirty = true → next.Spares gone entry.1 := by
        intro entry member dirty place passes
        rw [FileSystem.passes_congr here.home_eq] at passes
        exact later entry member dirty place passes
      have ⟨same_behind, disk⟩ := ih still ended
      rw [← same_behind] at ended
      have ⟨same_beside, disk'⟩ := writeFiles_alike alike ended
      rw [writeFiles_of_written dirty first, writeFiles_of_written dirty first', same_beside,
        same_behind]
      exact ⟨rfl, disk.trans disk'⟩
    · rw [writeFiles_of_clean_head dirty] at done
      have ⟨same, disk⟩ := ih later done
      rw [writeFiles_of_clean_head dirty, writeFiles_of_clean_head dirty, same]
      exact ⟨rfl, disk⟩

/-- Clean files do not matter to what is on disk. -/
theorem writeFiles_dirty (fs : FileSystem) (files : List (Path × File)) :
    let all := writeFiles fs files
    let dirty := writeFiles fs (files.filter fun entry => entry.2.isDirty)
    dirty.1 = all.1 ∧ dirty.2.result = all.2.result := by
  induction files generalizing fs with
  | nil => exact ⟨rfl, rfl⟩
  | cons entry rest ih =>
    have ⟨path, f⟩ := entry
    by_cases dirty : f.isDirty = true
    · rw [List.filter_cons, if_pos dirty]
      cases answer : writeFile fs path f with
      | mk next result =>
        cases result with
        | error e =>
          rw [writeFiles_of_refused dirty answer, writeFiles_of_refused dirty answer]
          exact ⟨rfl, rfl⟩
        | ok _ =>
          have ⟨disk, same⟩ := ih next
          rw [writeFiles_of_written dirty answer, writeFiles_of_written dirty answer]
          dsimp only
          rw [disk, same]
          exact ⟨rfl, rfl⟩
    · rw [List.filter_cons, if_neg dirty, writeFiles_of_clean_head dirty]
      exact ih fs

end

end Store

end Cdl

end BankTrace
