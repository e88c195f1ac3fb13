import BankTrace.FileSystem.Replacement

/-!
# Growing file systems

A path leads to one place whenever it can be followed, as there are no links: the place is decided
by the names alone. What is written makes a file system grow: directories stay directories, and no
file changes but the one that is written. So a path that could be followed can still be followed.
More closely, what is written is built: whatever else is new is a directory on the way to it.
-/

namespace BankTrace.FileSystem

/-- Where paths lead depends on the home directory alone. -/
theorem placeOf_congr {fs other : FileSystem} (same : other.home = fs.home) :
    other.placeOf = fs.placeOf := by
  funext path
  unfold placeOf origin
  rw [same]

/-- The bytes of the file at a place, none where there is no file. -/
def bytesAt (fs : FileSystem) (place : Place) : Array UInt8 :=
  match fs.node? place with
  | some (.file bytes) => bytes
  | _ => #[]

/-- Names that can be followed from a place lead where the names say. -/
theorem eq_foldl_of_walk {fs : FileSystem} {text : String} {names : List String}
    {here place : Place} (done : fs.walk text here names = .ok place) :
    place = names.foldl step here := by
  induction names generalizing here with
  | nil => exact (Except.ok.inj done).symm
  | cons name rest ih =>
    rw [walk] at done
    split at done
    · contradiction
    · contradiction
    · split at done
      · contradiction
      · exact ih done

/-- A path that can be followed as it is spelt leads to its place. -/
theorem eq_placeOf_of_locateAs {fs : FileSystem} {spelt : Path.Spelling} {place : Place}
    (done : fs.locateAs spelt = .ok place) : place = fs.placeOf spelt.path := by
  unfold locateAs follow at done
  split at done
  · contradiction
  · split at done
    · contradiction
    · exact eq_foldl_of_walk done

/-- A path that can be followed leads to its place. -/
theorem eq_placeOf_of_locate {fs : FileSystem} {path : Path} {place : Place}
    (done : fs.locate path = .ok place) : place = fs.placeOf path := by
  have followed : fs.locateAs path = .ok place := done
  exact eq_placeOf_of_locateAs followed

/-- One file system grows out of another: its directories stay, and so do its files at all places
that are not among the changed ones. -/
structure Grows (changed : Place → Prop) (before after : FileSystem) : Prop where
  /-- The home directory stays. -/
  home_eq : after.home = before.home
  /-- Directories stay. -/
  directories : ∀ place, before.node? place = some .directory →
    after.node? place = some .directory
  /-- The files at other places stay, and there are no new ones. -/
  bytes : ∀ place, ¬changed place → after.bytesAt place = before.bytesAt place

namespace Grows

variable {changed : Place → Prop} {before after : FileSystem}

/-- A file system grows out of itself. -/
theorem refl (changed : Place → Prop) (fs : FileSystem) : Grows changed fs fs :=
  ⟨rfl, fun _ there => there, fun _ _ => rfl⟩

/-- More places may be said to have changed. -/
theorem mono (grows : Grows changed before after) {others : Place → Prop}
    (more : ∀ place, changed place → others place) : Grows others before after :=
  ⟨grows.home_eq, grows.directories,
    fun place elsewhere => grows.bytes place fun here => elsewhere (more place here)⟩

/-- Paths lead to the same places. -/
theorem placeOf_eq (grows : Grows changed before after) (path : Path) :
    after.placeOf path = before.placeOf path :=
  congrFun (placeOf_congr grows.home_eq) path

/-- Names that could be followed can be followed. -/
theorem walk (grows : Grows changed before after) {text : String} {names : List String}
    {here place : Place} (done : before.walk text here names = .ok place) :
    after.walk text here names = .ok place := by
  induction names generalizing here with
  | nil => exact done
  | cons name rest ih =>
    rw [FileSystem.walk] at done
    split at done
    · contradiction
    · contradiction
    case h_3 there =>
      split at done
      · contradiction
      case isFalse short =>
        rw [FileSystem.walk, grows.directories here there]
        dsimp only
        rw [if_neg short]
        exact ih done

/-- A path that could be followed as it is spelt can be followed. -/
theorem locateAs (grows : Grows changed before after) {spelt : Path.Spelling} {place : Place}
    (done : before.locateAs spelt = .ok place) : after.locateAs spelt = .ok place := by
  unfold FileSystem.locateAs follow at *
  split at done
  · contradiction
  case isFalse spelt =>
    split at done
    · contradiction
    case isFalse short =>
      rw [if_neg spelt, if_neg short]
      unfold origin at *
      rw [grows.home_eq]
      exact grows.walk done

/-- A path that could be followed can be followed. -/
theorem locate (grows : Grows changed before after) {path : Path} {place : Place}
    (done : before.locate path = .ok place) : after.locate path = .ok place := by
  have followed : before.locateAs path = .ok place := done
  exact grows.locateAs followed

end Grows

/-- A path passes the places of its names, from where it starts up to its end. -/
def Passes (fs : FileSystem) (path : Path) (place : Place) : Prop :=
  ∃ names, names <+: path.names ∧ place = fs.placeOf ⟨path.root, names⟩

/-- What paths pass depends on the home directory alone. -/
theorem passes_congr {fs other : FileSystem} (same : other.home = fs.home) :
    other.Passes = fs.Passes := by
  unfold Passes
  rw [placeOf_congr same]

/-- A path passes its end. -/
theorem passes_placeOf (fs : FileSystem) (path : Path) : fs.Passes path (fs.placeOf path) :=
  ⟨path.names, List.prefix_rfl, rfl⟩

/-- A path passes what the one above it passes. -/
theorem Passes.of_parent {fs : FileSystem} {path : Path} {place : Place}
    (passes : fs.Passes path.parent place) : fs.Passes path place := by
  obtain ⟨names, above, here⟩ := passes
  exact ⟨names, above.trans (List.dropLast_prefix _), here⟩

/-- One file system is built out of another: its directories stay, and at all places that are not
among the written ones nothing changes, unless a directory is opened where nothing was. -/
structure Builds (written opened : Place → Prop) (before after : FileSystem) : Prop where
  /-- The home directory stays. -/
  home_eq : after.home = before.home
  /-- Directories stay. -/
  directories : ∀ place, before.node? place = some .directory →
    after.node? place = some .directory
  /-- What is at other places stays, or is a new directory. -/
  nodes : ∀ place, ¬written place → after.node? place = before.node? place ∨
    before.node? place = none ∧ after.node? place = some .directory ∧ opened place

namespace Builds

variable {written opened : Place → Prop} {before middle after : FileSystem}

/-- A file system is built out of itself. -/
theorem refl (written opened : Place → Prop) (fs : FileSystem) : Builds written opened fs fs :=
  ⟨rfl, fun _ there => there, fun _ _ => .inl rfl⟩

/-- What is built twice has been built. -/
theorem trans (first : Builds written opened before middle)
    (second : Builds written opened middle after) : Builds written opened before after where
  home_eq := second.home_eq.trans first.home_eq
  directories := fun place there => second.directories place (first.directories place there)
  nodes := by
    intro place elsewhere
    rcases second.nodes place elsewhere with stays | ⟨nothing, made, passed⟩
    · rw [stays]
      exact first.nodes place elsewhere
    · rcases first.nodes place elsewhere with same | ⟨_, early, _⟩
      · exact .inr ⟨same ▸ nothing, made, passed⟩
      · rw [nothing] at early
        contradiction

/-- More places may be said to be written or opened. -/
theorem mono (builds : Builds written opened before after) {more wider : Place → Prop}
    (writes : ∀ place, written place → more place) (opens : ∀ place, opened place → wider place) :
    Builds more wider before after where
  home_eq := builds.home_eq
  directories := builds.directories
  nodes := by
    intro place elsewhere
    refine (builds.nodes place fun here => elsewhere (writes place here)).imp_right ?_
    exact fun ⟨nothing, made, passed⟩ => ⟨nothing, made, opens place passed⟩

/-- What is built has grown. -/
theorem grows (builds : Builds written opened before after) : Grows written before after where
  home_eq := builds.home_eq
  directories := builds.directories
  bytes := by
    intro place elsewhere
    unfold bytesAt
    rcases builds.nodes place elsewhere with stays | ⟨nothing, made, _⟩
    · rw [stays]
    · rw [nothing, made]

/-- Paths lead to the same places. -/
theorem placeOf_eq (builds : Builds written opened before after) (path : Path) :
    after.placeOf path = before.placeOf path :=
  builds.grows.placeOf_eq path

/-- Paths pass the same places. -/
theorem passes_iff (builds : Builds written opened before after) {path : Path} {place : Place} :
    after.Passes path place ↔ before.Passes path place := by
  rw [passes_congr builds.home_eq]

/-- Where nothing is written the same files are there. -/
theorem file_iff (builds : Builds written opened before after) {place : Place}
    (unwritten : ¬written place) {bytes : Array UInt8} :
    after.node? place = some (.file bytes) ↔ before.node? place = some (.file bytes) := by
  rcases builds.nodes place unwritten with stays | ⟨nothing, made, _⟩
  · rw [stays]
  · rw [nothing, made]
    exact ⟨fun there => Node.noConfusion (Option.some.inj there), nofun⟩

end Builds

/-- Where there is no directory, a node can be put without one being lost. -/
theorem builds_put {fs : FileSystem} {place : Place} (node : Node)
    (free : fs.node? place ≠ some .directory) :
    Builds (· = place) (fun _ => False) fs (fs.put place node) ∧
      (fs.put place node).node? place = some node := by
  have outside : place.isPrefixOf fs.home = false := by
    rw [Bool.eq_false_iff]
    intro above
    unfold node? at free
    rw [if_pos above] at free
    exact free rfl
  have found := fun other => fs.node?_put place other node outside
  refine ⟨⟨rfl, ?_, ?_⟩, ?_⟩
  · intro other there
    have elsewhere : other ≠ place := by
      rintro rfl
      exact free there
    rw [found, if_neg elsewhere]
    exact there
  · intro other elsewhere
    left
    rw [found, if_neg elsewhere]
  · rw [found, if_pos rfl]

/-- A directory that is made is opened where nothing was. -/
theorem builds_makeDirectory {fs made : FileSystem} {path : Path}
    (done : fs.makeDirectory path = .ok made) :
    Builds (fun _ => False) (· = fs.placeOf path) fs made := by
  unfold makeDirectory at done
  cases located : fs.locate path with
  | error e =>
    rw [located] at done
    contradiction
  | ok place =>
    rw [located] at done
    cases there : fs.node? place with
    | some node => simp [there, bind, Except.bind] at done
    | none =>
      simp only [there, bind, Except.bind, pure, Except.pure, Except.ok.injEq] at done
      subst done
      have free : fs.node? place ≠ some .directory := by
        rw [there]
        intro absurdity
        contradiction
      obtain ⟨builds, found⟩ := builds_put .directory free
      refine ⟨builds.home_eq, builds.directories, ?_⟩
      intro other _
      by_cases here : other = place
      · right
        rw [here]
        exact ⟨there, found, eq_placeOf_of_locate located⟩
      · exact (builds.nodes other here).imp_right fun ⟨nothing, passed, absurdity⟩ =>
          ⟨nothing, passed, absurdity.elim⟩

/-- Directories that are made are opened where the path passes, also when not all can be made. -/
theorem builds_makeDirectories (fs : FileSystem) (path : Path) :
    Builds (fun _ => False) (fs.Passes path) fs (fs.makeDirectories path).1 := by
  have last : ∀ {here made : FileSystem} {path : Path}, here.makeDirectory path = .ok made →
      Builds (fun _ => False) (here.Passes path) here made := by
    intro here made path done
    apply (builds_makeDirectory done).mono fun _ absurdity => absurdity
    rintro place rfl
    exact here.passes_placeOf path
  have above : ∀ {path : Path} {after : FileSystem},
      Builds (fun _ => False) (fs.Passes path.parent) fs after →
        Builds (fun _ => False) (fs.Passes path) fs after :=
    fun builds => builds.mono (fun _ absurdity => absurdity) fun _ passes => passes.of_parent
  fun_induction makeDirectories fs path with
  | case1 path made done => exact last done
  | case2 => exact .refl _ _ _
  | case3 path missing _ _ reached e below ih =>
    rw [below] at ih
    exact above ih
  | case4 path missing _ _ reached below made done ih =>
    rw [below] at ih
    refine (above ih).trans ((last done).mono (fun _ absurdity => absurdity) ?_)
    exact fun place passes => ih.passes_iff.mp passes
  | case5 path missing _ _ reached below e _ ih =>
    rw [below] at ih
    exact above ih
  | case6 => exact .refl _ _ _

/-- Bytes that are written are those of the file at the place of the path, and nothing else
changes. -/
theorem builds_write {fs written : FileSystem} {path : Path} {bytes : Array UInt8}
    (done : fs.write path bytes = .ok written) :
    Builds (· = fs.placeOf path) (fun _ => False) fs written ∧
      written.locate path = .ok (fs.placeOf path) ∧
        written.node? (fs.placeOf path) = some (.file bytes) := by
  unfold write at done
  cases located : fs.locate path with
  | error e =>
    rw [located] at done
    contradiction
  | ok place =>
    rw [located] at done
    have free : fs.node? place ≠ some .directory := by
      intro there
      simp [there, bind, Except.bind] at done
    have put : fs.put place (.file bytes) = written := by
      simp only [bind, Except.bind] at done
      exact Except.ok.inj done
    obtain ⟨builds, found⟩ := builds_put (.file bytes) free
    rw [put] at builds found
    obtain rfl := eq_placeOf_of_locate located
    exact ⟨builds, builds.grows.locate located, found⟩

/-- Below new directories a change is made when these can be made and the change can be made
then. -/
theorem below_eq_ok_iff {fs changed : FileSystem} {path : Path}
    {change : FileSystem → Except FileError FileSystem} :
    fs.below path change = (changed, .ok ()) ↔
      ∃ above, fs.makeDirectories path.parent = (above, .ok ()) ∧ change above = .ok changed := by
  unfold below
  cases made : fs.makeDirectories path.parent with
  | mk above result =>
    cases result with
    | error e => simp
    | ok _ => cases answer : change above <;> simp [answer]

/-- Where a change below new directories writes bytes at the path, they are those of the file at its
place, and directories are opened above it. -/
theorem builds_below {fs changed : FileSystem} {path : Path} {bytes : Array UInt8}
    {change : FileSystem → Except FileError FileSystem}
    (writes : ∀ above, change above = .ok changed → above.write path bytes = .ok changed)
    (done : fs.below path change = (changed, .ok ())) :
    Builds (· = fs.placeOf path) (fs.Passes path.parent) fs changed ∧
      changed.locate path = .ok (fs.placeOf path) ∧
        changed.node? (fs.placeOf path) = some (.file bytes) := by
  obtain ⟨made, directories, answer⟩ := below_eq_ok_iff.mp done
  have above := builds_makeDirectories fs path.parent
  rw [directories] at above
  dsimp only at above
  obtain ⟨builds, located, found⟩ := builds_write (writes made answer)
  rw [above.placeOf_eq] at builds located found
  refine ⟨?_, located, found⟩
  apply (above.mono (fun _ absurdity => absurdity.elim) fun _ passes => passes).trans
  exact builds.mono (fun _ here => here) fun _ absurdity => absurdity.elim

/-- Where a change cannot be made, the directories above it have been made as far as they can
be. -/
theorem eq_of_below_error {fs left : FileSystem} {path : Path}
    {change : FileSystem → Except FileError FileSystem} {e : FileError}
    (refused : fs.below path change = (left, .error e)) :
    left = (fs.makeDirectories path.parent).1 := by
  unfold below at refused
  split at refused
  case h_1 reached e' directories =>
    rw [directories]
    exact (Prod.mk.inj refused).1.symm
  case h_2 reached directories =>
    rw [directories]
    split at refused
    case h_1 => simp at refused
    case h_2 => exact (Prod.mk.inj refused).1.symm

/-- Where a change cannot be made, there may be new directories above it, and nothing else. -/
theorem builds_of_below_error {fs left : FileSystem} {path : Path}
    {change : FileSystem → Except FileError FileSystem} {e : FileError}
    (refused : fs.below path change = (left, .error e)) :
    Builds (fun _ => False) (fs.Passes path.parent) fs left := by
  rw [eq_of_below_error refused]
  exact builds_makeDirectories fs path.parent

/-- A node that is a file holds its bytes. -/
theorem bytesAt_of_file {fs : FileSystem} {place : Place} {bytes : Array UInt8}
    (there : fs.node? place = some (.file bytes)) : fs.bytesAt place = bytes := by
  unfold bytesAt
  rw [there]

/-- What is read of a file, or of none, where the path can be followed. -/
theorem eq_bytesAt_of_readOrEmpty {fs : FileSystem} {path : Path} {bytes : Array UInt8}
    {place : Place} (located : fs.locate path = .ok place)
    (done : fs.readOrEmpty path = .ok bytes) : bytes = fs.bytesAt place := by
  unfold readOrEmpty read find at done
  rw [located] at done
  unfold bytesAt
  cases there : fs.node? place with
  | none => simpa [there, bind, Except.bind, throw, throwThe, MonadExceptOf.throw] using done.symm
  | some node =>
    cases node with
    | directory =>
      simp [there, bind, Except.bind, pure, Except.pure, throw, throwThe,
        MonadExceptOf.throw] at done
    | file found =>
      simpa [there, bind, Except.bind, pure, Except.pure] using done.symm

/-- What is read of a file, or of none: where the path cannot be followed, it is nothing. -/
theorem eq_of_readOrEmpty {fs : FileSystem} {path : Path} {bytes : Array UInt8}
    (done : fs.readOrEmpty path = .ok bytes) :
    bytes = #[] ∨ bytes = fs.bytesAt (fs.placeOf path) := by
  cases located : fs.locate path with
  | ok place =>
    right
    rw [← eq_placeOf_of_locate located]
    exact eq_bytesAt_of_readOrEmpty located done
  | error e =>
    left
    unfold readOrEmpty read find at done
    rw [located] at done
    simp only [bind, Except.bind] at done
    split at done
    · exact (Except.ok.inj done).symm
    · contradiction

/-! ## A disk with one log -/

/-- A disk with a log in the home directory. -/
def withLog (bytes : Array UInt8) : FileSystem := ⟨[], [(["log"], .file bytes)]⟩

/-- A disk with a log in the home directory and a directory beside it. -/
def withDetour (bytes : Array UInt8) : FileSystem :=
  ⟨[], [(["log"], .file bytes), (["a"], .directory)]⟩

/-- The log can be replaced. -/
theorem replaceDeep_withLog (old bytes : Array UInt8) :
    (withLog old).replaceDeep ⟨.relative, ["log"]⟩ bytes = (withLog bytes, .ok ()) := by
  have home : (withLog old).makeDirectories (Path.mk .relative ["log"]).parent =
      (withLog old, .ok ()) := by
    rw [makeDirectories]
    rfl
  exact below_eq_ok_iff.mpr ⟨withLog old, home, rfl⟩

/-- Replacing the log by way of a directory that does not exist makes the directory first. -/
theorem replaceDeep_detour (old bytes : Array UInt8) :
    (withLog old).replaceDeep ⟨.relative, ["a", "..", "log"]⟩ bytes =
      (withDetour bytes, .ok ()) := by
  have missing : (withLog old).makeDirectory ⟨.relative, ["a", ".."]⟩ =
      .error (.notFound "a/..") := rfl
  have made : (withLog old).makeDirectory (Path.mk .relative ["a", ".."]).parent =
      .ok (withDetour old) := rfl
  have directories : (withLog old).makeDirectories ⟨.relative, ["a", ".."]⟩ =
      (withDetour old, .ok ()) := by
    rw [makeDirectories, missing]
    dsimp only
    rw [if_neg (by decide), makeDirectories, made]
    rfl
  exact below_eq_ok_iff.mpr ⟨withDetour old, directories, rfl⟩

end BankTrace.FileSystem
