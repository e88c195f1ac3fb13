import BankTrace.Proofs.FileSystem.Naming

/-!
# What can be written

Making the directories of a path succeeds exactly when no file is on its way, and writing a file
below new directories exactly when moreover no directory is at its end and the path does not lead
through its own end. Then what is there afterwards is known place by place: directories where the
path passes, the file at its end, and elsewhere what was there before.
-/

namespace BankTrace.FileSystem

/-- The front of some names is all of them, or it goes no further than up to the last one. -/
theorem prefix_dropLast_or_eq {front names : List String} (begins : front <+: names) :
    front <+: names.dropLast ∨ front = names := by
  have ⟨rest, split⟩ := begins
  cases rest with
  | nil =>
    right
    rw [← split, List.append_nil]
  | cons name others =>
    left
    refine ⟨(name :: others).dropLast, ?_⟩
    rw [← split, List.dropLast_append_of_ne_nil (List.cons_ne_nil _ _)]

/-- A path passes what the path above it passes, and its end. -/
theorem passes_iff_parent {fs : FileSystem} {path : Path} {place : Place} :
    fs.Passes path place ↔ fs.Passes path.parent place ∨ place = fs.placeOf path := by
  constructor
  · rintro ⟨names, begins, rfl⟩
    rcases prefix_dropLast_or_eq begins with above | rfl
    · exact .inl ⟨names, above, rfl⟩
    · exact .inr rfl
  · rintro (above | rfl)
    · exact above.of_parent
    · exact fs.passes_placeOf path

/-- The directories of a path can be made: the path can be spelt, no name is too long, and no file
is on its way. -/
structure Opens (fs : FileSystem) (path : Path) : Prop where
  /-- The path can be spelt. -/
  spelt : Spelt path
  /-- No name is too long. -/
  short : ∀ name ∈ path.names, name.utf8ByteSize ≤ nameLimit
  /-- No file is where the path passes. -/
  way : ∀ place, fs.Passes path place → ∀ bytes, fs.node? place ≠ some (.file bytes)

/-- Where the directories of a path can be made, those above it can. -/
theorem Opens.parent {fs : FileSystem} {path : Path} (opens : fs.Opens path) :
    fs.Opens path.parent where
  spelt := opens.spelt.of_prefix (List.dropLast_prefix _)
  short name member := opens.short name ((List.dropLast_sublist _).mem member)
  way place passes := opens.way place passes.of_parent

/-- A path whose directories can be made leads to its place, or it is not found. -/
theorem Opens.located {fs : FileSystem} {path : Path} (opens : fs.Opens path) :
    fs.locate path = .ok (fs.placeOf path) ∨
      fs.locate path = .error (.notFound path.toString) := by
  rw [locate_of_spelt fs opens.spelt]
  exact walk_of_way
    (fun front begins => opens.way _ ⟨front, begins.trans (List.dropLast_prefix _), rfl⟩)
    opens.short

/-- A directory is made where a path can be followed to nothing. -/
theorem makeDirectory_eq_ok_iff {fs made : FileSystem} {path : Path} :
    fs.makeDirectory path = .ok made ↔
      fs.locate path = .ok (fs.placeOf path) ∧ fs.node? (fs.placeOf path) = none ∧
        made = fs.put (fs.placeOf path) .directory := by
  unfold makeDirectory
  cases located : fs.locate path with
  | error e => simp [bind, Except.bind]
  | ok place =>
    obtain rfl := eq_placeOf_of_locate located
    cases there : fs.node? (fs.placeOf path) with
    | none => simp [bind, Except.bind, pure, Except.pure, there, eq_comm]
    | some node => simp [bind, Except.bind, there, throw, throwThe, MonadExceptOf.throw]

/-- A path leads to a directory when it can be followed to one. -/
theorem isDirectory_eq_true_iff {fs : FileSystem} {path : Path} :
    fs.isDirectory path = true ↔
      fs.locate path = .ok (fs.placeOf path) ∧ fs.node? (fs.placeOf path) = some .directory := by
  unfold isDirectory find
  cases located : fs.locate path with
  | error e => simp [bind, Except.bind]
  | ok place =>
    obtain rfl := eq_placeOf_of_locate located
    cases there : fs.node? (fs.placeOf path) with
    | none => simp [bind, Except.bind, there, throw, throwThe, MonadExceptOf.throw]
    | some node => cases node <;> simp [bind, Except.bind, pure, Except.pure, there]

/-- A refusal to make a directory does not matter only where the directory is. -/
theorem isDirectory_of_settle {fs : FileSystem} {path : Path} {e : FileError}
    (settled : makeDirectories.settle path fs e = .ok ()) : fs.isDirectory path = true := by
  unfold makeDirectories.settle at settled
  split at settled
  · contradiction
  · contradiction
  · split at settled
    case isTrue there => exact there
    case isFalse => contradiction

/-- Where a path can be followed and no file is at its end, its directories can be made. -/
theorem Followed.opens {fs : FileSystem} {path : Path} (followed : fs.Followed path)
    (free : ∀ bytes, fs.node? (fs.placeOf path) ≠ some (.file bytes)) : fs.Opens path where
  spelt := followed.spelt
  short := followed.short
  way := by
    intro place passes bytes there
    rcases passes_iff_parent.mp passes with above | rfl
    · rw [followed.way place above] at there
      exact Node.noConfusion (Option.some.inj there)
    · exact free bytes there

/-- A path passes directories alone where it leads to one. -/
theorem Followed.passed {fs : FileSystem} {path : Path} (followed : fs.Followed path)
    (there : fs.node? (fs.placeOf path) = some .directory) :
    ∀ place, fs.Passes path place → fs.node? place = some .directory := by
  intro place passes
  rcases passes_iff_parent.mp passes with above | rfl
  · exact followed.way place above
  · exact there

/-- Where only directories are new, no file is on the way of a path unless it was before. -/
theorem Builds.opens {opened : Place → Prop} {before after : FileSystem}
    (builds : Builds (fun _ => False) opened before after) {path : Path}
    (opens : after.Opens path) : before.Opens path where
  spelt := opens.spelt
  short := opens.short
  way := by
    intro place passes bytes there
    rcases builds.nodes place id with stays | ⟨nothing, _⟩
    · exact opens.way place (builds.passes_iff.mpr passes) bytes (stays.trans there)
    · rw [nothing] at there
      contradiction

/-- Where a directory is made, no file is on the way, and then the path passes directories alone. -/
theorem opens_of_makeDirectory {fs made : FileSystem} {path : Path}
    (done : fs.makeDirectory path = .ok made) :
    fs.Opens path ∧ ∀ place, fs.Passes path place → made.node? place = some .directory := by
  have ⟨located, free, put⟩ := makeDirectory_eq_ok_iff.mp done
  have followed := (locate_eq_ok_iff.mp located).1
  have undirected : fs.node? (fs.placeOf path) ≠ some .directory := by
    rw [free]
    exact nofun
  have ⟨builds, found⟩ := builds_put .directory undirected
  rw [← put] at builds found
  constructor
  · apply followed.opens
    rw [free]
    exact fun _ => nofun
  · intro place passes
    rcases passes_iff_parent.mp passes with above | rfl
    · exact builds.directories place (followed.way place above)
    · exact found

/-- Where a path leads to a directory, no file is on the way, and the path passes directories
alone. -/
theorem opens_of_isDirectory {fs : FileSystem} {path : Path} (there : fs.isDirectory path = true) :
    fs.Opens path ∧ ∀ place, fs.Passes path place → fs.node? place = some .directory := by
  have ⟨located, directory⟩ := isDirectory_eq_true_iff.mp there
  have followed := (locate_eq_ok_iff.mp located).1
  constructor
  · apply followed.opens
    rw [directory]
    exact fun _ => nofun
  · exact followed.passed directory

/-- Where the directories of a path can all be made, no file was on its way, and then the path
passes directories alone. -/
theorem opens_of_makeDirectories {fs : FileSystem} {path : Path}
    (done : (fs.makeDirectories path).2 = .ok ()) :
    fs.Opens path ∧
      ∀ place, fs.Passes path place →
        (fs.makeDirectories path).1.node? place = some .directory := by
  -- What is found when the directories above have been made was so before, but for directories.
  have before : ∀ {reached after : FileSystem},
      fs.makeDirectories path.parent = (reached, .ok ()) →
      (reached.Opens path ∧
        ∀ place, reached.Passes path place → after.node? place = some .directory) →
      fs.Opens path ∧ ∀ place, fs.Passes path place → after.node? place = some .directory := by
    intro reached after below ⟨opens, passed⟩
    have builds := builds_makeDirectories fs path.parent
    rw [below] at builds
    exact ⟨builds.opens opens, fun place passes => passed place (builds.passes_iff.mpr passes)⟩
  revert done
  fun_cases makeDirectories fs path with
  | case1 made put => exact fun _ => opens_of_makeDirectory put
  | case2 => exact nofun
  | case3 => exact nofun
  | case4 missing _ _ reached below made put =>
    exact fun _ => before below (opens_of_makeDirectory put)
  | case5 missing _ _ reached below e _ =>
    exact fun settled => before below (opens_of_isDirectory (isDirectory_of_settle settled))
  | case6 e => exact fun settled => opens_of_isDirectory (isDirectory_of_settle settled)

/-- Where a path can be followed and no file is at its end, a refusal to make a directory there does
not matter. -/
theorem Followed.settled {fs : FileSystem} {path : Path} (followed : fs.Followed path)
    (free : ∀ bytes, fs.node? (fs.placeOf path) ≠ some (.file bytes)) {e : FileError}
    (refused : fs.makeDirectory path = .error e) : makeDirectories.settle path fs e = .ok () := by
  have located := locate_eq_ok_iff.mpr ⟨followed, rfl⟩
  cases there : fs.node? (fs.placeOf path) with
  | none =>
    have made := makeDirectory_eq_ok_iff.mpr ⟨located, there, rfl⟩
    rw [made] at refused
    contradiction
  | some node =>
    cases node with
    | file bytes => exact absurd there (free bytes)
    | directory =>
      have known := isDirectory_eq_true_iff.mpr ⟨located, there⟩
      have same : e = .exists path.toString := by
        unfold makeDirectory at refused
        rw [located] at refused
        simpa [bind, Except.bind, there, throw, throwThe, MonadExceptOf.throw] using refused.symm
      rw [same]
      unfold makeDirectories.settle
      dsimp only
      rw [if_pos known]

/-- A path without names can be followed to a directory. -/
theorem followed_of_unnamed {fs : FileSystem} {path : Path} (spelt : Spelt path)
    (unnamed : path.names = []) : fs.Followed path where
  spelt := spelt
  short name member := by
    rw [unnamed] at member
    contradiction
  way := by
    rintro place ⟨names, begins, rfl⟩
    have none : names = [] := by
      unfold Path.parent at begins
      rw [unnamed] at begins
      exact List.prefix_nil.mp begins
    rw [none]
    exact fs.node?_origin path.root

/-- Where a path can be followed it is found. -/
theorem Followed.found {fs : FileSystem} {path : Path} (followed : fs.Followed path)
    {text : String} : fs.makeDirectory path ≠ .error (.notFound text) := by
  have located := locate_eq_ok_iff.mpr ⟨followed, rfl⟩
  unfold makeDirectory
  rw [located]
  cases there : fs.node? (fs.placeOf path) <;>
    simp [bind, Except.bind, pure, Except.pure, there, throw, throwThe, MonadExceptOf.throw]

/-- Where no file is on the way of a path its directories can be made. -/
theorem makeDirectories_of_opens {fs : FileSystem} {path : Path} (opens : fs.Opens path) :
    (fs.makeDirectories path).2 = .ok () := by
  have free : ∀ bytes, fs.node? (fs.placeOf path) ≠ some (.file bytes) :=
    opens.way _ (fs.passes_placeOf path)
  revert opens free
  fun_induction makeDirectories fs path with
  | case1 => exact fun _ _ => rfl
  | case2 path missing lost unnamed =>
    intro opens _
    exact absurd lost (followed_of_unnamed opens.spelt unnamed).found
  | case3 path missing _ _ reached e below ih =>
    intro opens _
    rw [below] at ih
    exact ih opens.parent (opens.parent.way _ (fs.passes_placeOf _))
  | case4 => exact fun _ _ => rfl
  | case5 path missing _ _ reached below e refused ih =>
    intro opens free
    have builds := builds_makeDirectories fs path.parent
    have done : (fs.makeDirectories path.parent).2 = .ok () := by rw [below]
    have passed := (opens_of_makeDirectories done).2
    rw [below] at builds passed
    have followed : reached.Followed path :=
      ⟨opens.spelt, opens.short, fun place passes => passed place (builds.passes_iff.mp passes)⟩
    refine followed.settled (fun bytes there => ?_) refused
    rw [builds.placeOf_eq] at there
    rcases builds.nodes (fs.placeOf path) id with stays | ⟨_, made, _⟩
    · exact free bytes (stays.symm.trans there)
    · rw [made] at there
      exact Node.noConfusion (Option.some.inj there)
  | case6 path e other refused =>
    intro opens free
    rcases opens.located with located | lost
    · exact (locate_eq_ok_iff.mp located).1.settled free refused
    · have same : e = .notFound path.toString := by
        unfold makeDirectory at refused
        rw [lost] at refused
        simpa [bind, Except.bind] using refused.symm
      exact absurd same (other _)

/-- The home directory is there, so nothing is made. -/
theorem makeDirectories_home (fs : FileSystem) :
    fs.makeDirectories ⟨.relative, []⟩ = (fs, .ok ()) := by
  have there : fs.node? (fs.origin .relative) = some .directory := fs.node?_origin _
  have located : fs.locate ⟨.relative, []⟩ = .ok (fs.origin .relative) := rfl
  have refused : fs.makeDirectory ⟨.relative, []⟩ = .error (.exists ".") := by
    unfold makeDirectory
    rw [located]
    simp only [bind, Except.bind, there]
    rfl
  have known : fs.isDirectory ⟨.relative, []⟩ = true :=
    isDirectory_eq_true_iff.mpr ⟨located, there⟩
  rw [makeDirectories, refused]
  dsimp only [makeDirectories.settle]
  rw [if_pos known]

/-- A file can be replaced at a path, below new directories where it needs them. -/
structure Writable (fs : FileSystem) (path : Path) : Prop where
  /-- The path can be spelt. -/
  spelt : Spelt path
  /-- No name is too long. -/
  short : ∀ name ∈ path.names, name.utf8ByteSize ≤ nameLimit
  /-- No file is on the way. -/
  way : ∀ place, fs.Passes path.parent place → ∀ bytes, fs.node? place ≠ some (.file bytes)
  /-- No directory is at the end. -/
  free : fs.node? (fs.placeOf path) ≠ some .directory
  /-- The way does not lead through the end. -/
  aside : ¬fs.Passes path.parent (fs.placeOf path)
  /-- The new file beside it can have a name and a path. -/
  nameable : fs.Nameable path

/-- A file can be replaced where it could be if the same is at its end and no file is new on its
way. -/
theorem Writable.congr {fs other : FileSystem} {path : Path} (writable : fs.Writable path)
    (home : other.home = fs.home)
    (way : ∀ place, fs.Passes path.parent place → ∀ bytes,
      other.node? place = some (.file bytes) → fs.node? place = some (.file bytes))
    (last : other.node? (fs.placeOf path) = fs.node? (fs.placeOf path)) :
    other.Writable path where
  spelt := writable.spelt
  short := writable.short
  way := by
    rw [passes_congr home]
    exact fun place passes bytes there =>
      writable.way place passes bytes (way place passes bytes there)
  free := by
    rw [placeOf_congr home, last]
    exact writable.free
  aside := by
    rw [passes_congr home, placeOf_congr home]
    exact writable.aside
  nameable := writable.nameable.congr home

/-- A file has been written at a path, below directories. -/
structure Written (before after : FileSystem) (path : Path) (bytes : Array UInt8) : Prop where
  /-- The home directory stays. -/
  home_eq : after.home = before.home
  /-- The way leads through directories. -/
  passed : ∀ place, before.Passes path.parent place → after.node? place = some .directory
  /-- The file is at the end. -/
  file : after.node? (before.placeOf path) = some (.file bytes)
  /-- Everything else stays. -/
  others : ∀ place, ¬before.Passes path.parent place → place ≠ before.placeOf path →
    after.node? place = before.node? place

/-- Nothing is taken away when a file is written. -/
theorem Written.free_of_free {before after : FileSystem} {path : Path} {bytes : Array UInt8}
    (written : Written before after path bytes) {place : Place}
    (free : after.node? place = none) : before.node? place = none := by
  by_cases passes : before.Passes path.parent place
  · rw [written.passed place passes] at free
    contradiction
  · by_cases last : place = before.placeOf path
    · rw [last, written.file] at free
      contradiction
    · rw [← written.others place passes last, free]

/-- A file is written where a path leads to no directory. -/
theorem write_eq_ok_iff {fs written : FileSystem} {path : Path} {bytes : Array UInt8} :
    fs.write path bytes = .ok written ↔
      fs.locate path = .ok (fs.placeOf path) ∧ fs.node? (fs.placeOf path) ≠ some .directory ∧
        written = fs.put (fs.placeOf path) (.file bytes) := by
  unfold write
  cases located : fs.locate path with
  | error e => simp [bind, Except.bind]
  | ok place =>
    obtain rfl := eq_placeOf_of_locate located
    cases there : fs.node? (fs.placeOf path) with
    | none => simp [bind, Except.bind, pure, Except.pure, there, eq_comm]
    | some node =>
      cases node <;>
        simp [bind, Except.bind, pure, Except.pure, there, throw, throwThe, MonadExceptOf.throw,
          eq_comm]

/-- The directories above a file that can be replaced can be made. -/
theorem Writable.opens {fs : FileSystem} {path : Path} (writable : fs.Writable path) :
    fs.Opens path.parent where
  spelt := writable.spelt.of_prefix (List.dropLast_prefix _)
  short name member := writable.short name ((List.dropLast_sublist _).mem member)
  way := writable.way

/-- What has been replaced below new directories could be, and what is there then is known. -/
theorem writable_of_replaceDeep {fs written : FileSystem} {path : Path} {bytes : Array UInt8}
    (done : fs.replaceDeep path bytes = (written, .ok ())) :
    fs.Writable path ∧ Written fs written path bytes := by
  have ⟨builds, _, file⟩ := builds_replaceDeep done
  have reached := builds_makeDirectories fs path.parent
  have ⟨above, made, replaced⟩ := below_eq_ok_iff.mp done
  have ⟨nameable, put⟩ := replace_eq_ok_iff.mp replaced
  have opened : (fs.makeDirectories path.parent).2 = .ok () := by rw [made]
  have ⟨opens, passed⟩ := opens_of_makeDirectories opened
  rw [made] at reached passed
  have ⟨located, undirected, _⟩ := write_eq_ok_iff.mp put
  have followed := (locate_eq_ok_iff.mp located).1
  rw [reached.placeOf_eq] at undirected
  have aside : ¬fs.Passes path.parent (fs.placeOf path) :=
    fun passes => undirected (passed _ passes)
  constructor
  · exact ⟨followed.spelt, followed.short, opens.way,
      fun there => undirected (reached.directories _ there), aside,
      nameable.congr reached.home_eq.symm⟩
  · refine ⟨builds.home_eq, fun place passes => ?_, file, fun place beside elsewhere => ?_⟩
    · exact (builds_write put).1.directories place (passed place passes)
    · rcases builds.nodes place elsewhere with stays | ⟨_, _, passes⟩
      · exact stays
      · exact absurd passes beside

/-- Where a file can be replaced it is, whatever its bytes. -/
theorem Writable.exists_replaceDeep {fs : FileSystem} {path : Path} (writable : fs.Writable path)
    (bytes : Array UInt8) : ∃ written, fs.replaceDeep path bytes = (written, .ok ()) := by
  have opened := makeDirectories_of_opens writable.opens
  have passed := (opens_of_makeDirectories opened).2
  have builds := builds_makeDirectories fs path.parent
  cases made : fs.makeDirectories path.parent with
  | mk above result =>
    rw [made] at opened passed builds
    dsimp only at opened
    rw [opened] at made
    have followed : above.Followed path :=
      ⟨writable.spelt, writable.short,
        fun place passes => passed place (builds.passes_iff.mp passes)⟩
    have located := locate_eq_ok_iff.mpr ⟨followed, rfl⟩
    have free : above.node? (above.placeOf path) ≠ some .directory := by
      intro there
      rw [builds.placeOf_eq] at there
      rcases builds.nodes (fs.placeOf path) id with stays | ⟨_, _, passes⟩
      · exact writable.free (stays.symm.trans there)
      · exact writable.aside passes
    have put : above.write path bytes = .ok (above.put (above.placeOf path) (.file bytes)) :=
      write_eq_ok_iff.mpr ⟨located, free, rfl⟩
    have replaced := replace_eq_ok_iff.mpr ⟨writable.nameable.congr builds.home_eq, put⟩
    exact ⟨_, below_eq_ok_iff.mpr ⟨above, made, replaced⟩⟩

end BankTrace.FileSystem
