import BankTrace.Proofs.FileSystem.Growth

/-!
# Following paths

A path can be followed when it can be spelt, none of its names is too long and every place that it
passes on its way is a directory. What is read of it is decided by its end. Where nothing worse is
on its way than that directories are missing, it either can be followed or is not found.
-/

namespace BankTrace.FileSystem

/-- What is read of a path that can be followed is decided by what is at its place. -/
theorem readOrEmpty_congr {fs other : FileSystem} {path : Path} {place : Place}
    (located : fs.locate path = .ok place) (located' : other.locate path = .ok place)
    (same : other.node? place = fs.node? place) : other.readOrEmpty path = fs.readOrEmpty path := by
  unfold readOrEmpty read find
  rw [located, located']
  simp only [bind, Except.bind]
  rw [same]

/-- A file that can be found is read. -/
theorem readOrEmpty_of_file {fs : FileSystem} {path : Path} {place : Place} {bytes : Array UInt8}
    (located : fs.locate path = .ok place) (there : fs.node? place = some (.file bytes)) :
    fs.readOrEmpty path = .ok bytes := by
  unfold readOrEmpty read find
  rw [located]
  simp only [bind, Except.bind]
  rw [there]
  rfl

/-- Names that lead through nothing but directories and what is missing are followed as far as the
directories go. -/
theorem walk_of_way {fs : FileSystem} {text : String} {names : List String} {here : Place}
    (way : ∀ front, front <+: names.dropLast →
      ∀ bytes, fs.node? (front.foldl step here) ≠ some (.file bytes))
    (short : ∀ name ∈ names, name.utf8ByteSize ≤ nameLimit) :
    fs.walk text here names = .ok (names.foldl step here) ∨
      fs.walk text here names = .error (.notFound text) := by
  induction names generalizing here with
  | nil => exact .inl rfl
  | cons name rest ih =>
    have first := way [] List.nil_prefix
    have fits : ¬name.utf8ByteSize > nameLimit := Nat.not_lt.mpr (short name List.mem_cons_self)
    rw [walk]
    cases there : fs.node? here with
    | none => exact .inr rfl
    | some node =>
      cases node with
      | file bytes => exact absurd there (first bytes)
      | directory =>
        dsimp only
        rw [if_neg fits]
        cases rest with
        | nil => exact .inl rfl
        | cons second others =>
          apply ih
          · intro front begins
            exact way (name :: front) (List.cons_prefix_cons.mpr ⟨rfl, begins⟩)
          · exact fun other later => short other (List.mem_cons_of_mem _ later)

/-- A path can be spelt in that way: no name has a null character, and the text is not too long. -/
def SpeltAs (spelt : Path.Spelling) : Prop :=
  spelt.path.names.any (·.toList.contains '\x00') = false ∧ spelt.text.utf8ByteSize < pathLimit

/-- A path can be spelt by its written form. -/
def Spelt (path : Path) : Prop := SpeltAs path

/-- The text of a path is its root and its names between slashes, or a dot. -/
theorem toString_eq (path : Path) :
    path.toString = if path = ⟨.relative, []⟩ then "." else
      path.root.text ++ "/".intercalate path.names := by
  obtain ⟨root, names⟩ := path
  cases root <;> cases names <;> rfl

/-- Fewer texts that are put together have no more bytes. -/
theorem utf8ByteSize_intercalate_le (separator : String) {front texts : List String}
    (begins : front <+: texts) :
    (separator.intercalate front).utf8ByteSize ≤ (separator.intercalate texts).utf8ByteSize := by
  induction front generalizing texts with
  | nil =>
    rw [String.intercalate_nil]
    exact Nat.zero_le _
  | cons text rest ih =>
    cases texts with
    | nil => exact absurd (List.prefix_nil.mp begins) (List.cons_ne_nil _ _)
    | cons other others =>
      have ⟨same, behind⟩ := List.cons_prefix_cons.mp begins
      have shorter := ih behind
      rw [← same]
      cases others with
      | nil =>
        have none : rest = [] := List.prefix_nil.mp behind
        exact Nat.le_of_eq (by rw [none])
      | cons next last =>
        rw [String.intercalate_cons_cons]
        cases rest with
        | nil =>
          rw [String.intercalate_singleton, String.utf8ByteSize_append, String.utf8ByteSize_append]
          omega
        | cons second more =>
          rw [String.intercalate_cons_cons]
          simp only [String.utf8ByteSize_append]
          omega

/-- Where a path can be spelt, the front of it can be. -/
theorem Spelt.of_prefix {path : Path} (spelt : Spelt path) {names : List String}
    (begins : names <+: path.names) : Spelt ⟨path.root, names⟩ := by
  have ⟨clean, fits⟩ := spelt
  constructor
  · rw [List.any_eq_false] at clean ⊢
    exact fun name member => clean name (begins.mem member)
  · dsimp only at fits ⊢
    rw [toString_eq] at fits ⊢
    split
    · decide
    case isFalse =>
      have shorter := utf8ByteSize_intercalate_le "/" begins
      have whole : path ≠ ⟨.relative, []⟩ := by
        rintro rfl
        rw [List.prefix_nil.mp begins] at *
        contradiction
      rw [if_neg whole, String.utf8ByteSize_append] at fits
      rw [String.utf8ByteSize_append]
      dsimp only
      omega

/-- A path that can be read can be spelt. -/
theorem spelt_of_readOrEmpty {fs : FileSystem} {path : Path} {bytes : Array UInt8}
    (done : fs.readOrEmpty path = .ok bytes) : Spelt path := by
  unfold readOrEmpty read find locate follow at done
  by_cases null : path.names.any (·.toList.contains '\x00') = true
  · rw [if_pos null] at done
    simp [bind, Except.bind] at done
  · rw [if_neg null] at done
    by_cases long : path.toString.utf8ByteSize ≥ pathLimit
    · rw [if_pos long] at done
      simp [bind, Except.bind] at done
    · exact ⟨Bool.eq_false_iff.mpr null, Nat.lt_of_not_le long⟩

/-- The home directory and those above it are directories. -/
theorem node?_origin (fs : FileSystem) (root : Path.Root) :
    fs.node? (fs.origin root) = some .directory := by
  have above : (fs.origin root).isPrefixOf fs.home = true := by
    unfold origin
    split
    · exact List.isPrefixOf_iff_prefix.mpr List.prefix_rfl
    · rfl
  unfold node?
  rw [if_pos above]

/-- A path can be followed: it can be spelt, no name is too long, and every place on its way is a
directory. -/
structure Followed (fs : FileSystem) (path : Path) : Prop where
  /-- The path can be spelt. -/
  spelt : Spelt path
  /-- No name is too long. -/
  short : ∀ name ∈ path.names, name.utf8ByteSize ≤ nameLimit
  /-- The places on the way are directories. -/
  way : ∀ place, fs.Passes path.parent place → fs.node? place = some .directory

/-- Names that are followed are short and lead through directories. -/
theorem way_of_walk {fs : FileSystem} {text : String} {names : List String} {here place : Place}
    (done : fs.walk text here names = .ok place) (start : fs.node? here = some .directory) :
    (∀ name ∈ names, name.utf8ByteSize ≤ nameLimit) ∧
      ∀ front, front <+: names.dropLast →
        fs.node? (front.foldl step here) = some .directory := by
  induction names generalizing here with
  | nil =>
    refine ⟨fun _ absurdity => absurd absurdity List.not_mem_nil, fun front begins => ?_⟩
    rw [List.prefix_nil.mp begins]
    exact start
  | cons name rest ih =>
    rw [walk, start] at done
    dsimp only at done
    split at done
    case isTrue => contradiction
    case isFalse fits =>
      have first : name.utf8ByteSize ≤ nameLimit := Nat.not_lt.mp fits
      cases rest with
      | nil =>
        refine ⟨fun other member => ?_, fun front begins => ?_⟩
        · rw [List.mem_singleton.mp member]
          exact first
        · rw [List.prefix_nil.mp begins]
          exact start
      | cons second others =>
        have next : fs.node? (step here name) = some .directory := by
          rw [walk] at done
          split at done
          · contradiction
          · contradiction
          case h_3 there => exact there
        obtain ⟨short, way⟩ := ih done next
        refine ⟨fun other member => ?_, fun front begins => ?_⟩
        · rcases List.mem_cons.mp member with rfl | later
          · exact first
          · exact short other later
        · rw [List.dropLast_cons_cons] at begins
          rcases List.prefix_cons_iff.mp begins with rfl | ⟨front', rfl, begins'⟩
          · exact start
          · exact way front' begins'

/-- Short names that lead through directories are followed. -/
theorem walk_of_directories {fs : FileSystem} {text : String} {names : List String} {here : Place}
    (short : ∀ name ∈ names, name.utf8ByteSize ≤ nameLimit)
    (way : ∀ front, front <+: names.dropLast →
      fs.node? (front.foldl step here) = some .directory) :
    fs.walk text here names = .ok (names.foldl step here) := by
  induction names generalizing here with
  | nil => rfl
  | cons name rest ih =>
    have start : fs.node? here = some .directory := way [] List.nil_prefix
    rw [walk, start]
    dsimp only
    rw [if_neg (Nat.not_lt.mpr (short name List.mem_cons_self))]
    cases rest with
    | nil => rfl
    | cons second others =>
      have behind : ∀ front, front <+: (second :: others).dropLast →
          name :: front <+: (name :: second :: others).dropLast := fun front begins =>
        List.cons_prefix_cons.mpr ⟨rfl, begins⟩
      exact ih (fun other later => short other (List.mem_cons_of_mem _ later))
        fun front begins => way _ (behind front begins)

/-- Where a path can be spelt in a way, it is followed by its names. -/
theorem locateAs_of_spelt (fs : FileSystem) {spelling : Path.Spelling}
    (spelt : SpeltAs spelling) :
    fs.locateAs spelling =
      fs.walk spelling.text (fs.origin spelling.path.root) spelling.path.names := by
  unfold locateAs follow
  rw [if_neg (by rw [spelt.1]; exact Bool.false_ne_true), if_neg (Nat.not_le.mpr spelt.2)]

/-- Where a path can be spelt, it is followed by its names. -/
theorem locate_of_spelt (fs : FileSystem) {path : Path} (spelt : Spelt path) :
    fs.locate path = fs.walk path.toString (fs.origin path.root) path.names :=
  fs.locateAs_of_spelt spelt

/-- A path that leads somewhere as it is spelt can be spelt in that way. -/
theorem spelt_of_locateAs {fs : FileSystem} {spelling : Path.Spelling} {place : Place}
    (located : fs.locateAs spelling = .ok place) : SpeltAs spelling := by
  unfold locateAs follow at located
  split at located
  · contradiction
  case isFalse clean =>
    split at located
    · contradiction
    case isFalse fits => exact ⟨Bool.eq_false_iff.mpr clean, Nat.not_le.mp fits⟩

/-- A path leads somewhere as it is spelt when it can be spelt in that way, no name is too long and
every place on its way is a directory, and then to its place. -/
theorem locateAs_eq_ok_iff {fs : FileSystem} {spelling : Path.Spelling} {place : Place} :
    fs.locateAs spelling = .ok place ↔
      SpeltAs spelling ∧ (∀ name ∈ spelling.path.names, name.utf8ByteSize ≤ nameLimit) ∧
        (∀ place, fs.Passes spelling.path.parent place → fs.node? place = some .directory) ∧
          place = fs.placeOf spelling.path := by
  constructor
  · intro located
    have spelt := spelt_of_locateAs located
    have walked := located
    rw [fs.locateAs_of_spelt spelt] at walked
    obtain ⟨short, way⟩ := way_of_walk walked (fs.node?_origin spelling.path.root)
    refine ⟨spelt, short, ?_, eq_placeOf_of_locateAs located⟩
    rintro place ⟨front, begins, rfl⟩
    exact way front begins
  · rintro ⟨spelt, short, way, rfl⟩
    rw [fs.locateAs_of_spelt spelt]
    exact walk_of_directories short fun front begins => way _ ⟨front, begins, rfl⟩

/-- A path leads somewhere when it can be followed, and then to its place. -/
theorem locate_eq_ok_iff {fs : FileSystem} {path : Path} {place : Place} :
    fs.locate path = .ok place ↔ fs.Followed path ∧ place = fs.placeOf path := by
  have written : fs.locate path = fs.locateAs path := rfl
  rw [written, locateAs_eq_ok_iff]
  constructor
  · intro ⟨spelt, short, way, here⟩
    exact ⟨⟨spelt, short, way⟩, here⟩
  · intro ⟨⟨spelt, short, way⟩, here⟩
    exact ⟨spelt, short, way, here⟩

end BankTrace.FileSystem
