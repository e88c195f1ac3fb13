import BankTrace.Proofs.FileSystem.Writability

/-!
# Taking things away

What requests find depends on what is at each place, not on the order in which it was made. So file
systems that have the same at every place answer every request alike. When things are taken away
from a file system, a file that is written where nothing was taken away is the same one, and the
rest is what was there without the things that were taken away.
-/

namespace BankTrace.FileSystem

/-- Two file systems have the same at every place. -/
structure Alike (fs other : FileSystem) : Prop where
  /-- They have the same home directory. -/
  home_eq : other.home = fs.home
  /-- They have the same at every place. -/
  nodes : ∀ place, other.node? place = fs.node? place

/-- What is left when some places are cleared. -/
def without (fs : FileSystem) (gone : Place → Bool) : FileSystem :=
  { fs with nodes := fs.nodes.filter fun entry => !gone entry.1 }

/-- Where a place is cleared there is nothing, unless it is above the home directory; elsewhere is
what was there. -/
theorem node?_without (fs : FileSystem) (gone : Place → Bool) (place : Place) :
    (fs.without gone).node? place =
      if place.isPrefixOf fs.home then some .directory
      else if gone place then none else fs.node? place := by
  have kept : ∀ nodes : List (Place × Node),
      (nodes.filter fun entry => !gone entry.1).lookup place =
        if gone place then none else nodes.lookup place := by
    intro nodes
    induction nodes with
    | nil => simp
    | cons head rest ih =>
      have ⟨p, node⟩ := head
      rw [List.filter_cons, lookup_node]
      by_cases here : place = p
      · rw [if_pos here, ← here]
        cases cleared : gone place with
        | true =>
          rw [cleared] at ih
          simpa using ih
        | false => simp
      · rw [if_neg here]
        split
        · rw [lookup_node, if_neg here, ih]
        · exact ih
  unfold node? without
  split
  · rfl
  · exact kept fs.nodes

namespace Alike

variable {fs other : FileSystem} (alike : fs.Alike other)

/-- A file system is like itself. -/
theorem refl (fs : FileSystem) : fs.Alike fs := ⟨rfl, fun _ => rfl⟩

include alike

/-- Being alike is mutual. -/
theorem symm : other.Alike fs := ⟨alike.home_eq.symm, fun place => (alike.nodes place).symm⟩

/-- File systems that are like a third one are alike. -/
theorem trans {third : FileSystem} (next : other.Alike third) : fs.Alike third :=
  ⟨next.home_eq.trans alike.home_eq, fun place => (next.nodes place).trans (alike.nodes place)⟩

/-- Paths can be followed alike. -/
theorem followed {path : Path} (followed : fs.Followed path) : other.Followed path where
  spelt := followed.spelt
  short := followed.short
  way := by
    rw [passes_congr alike.home_eq]
    intro place passes
    rw [alike.nodes]
    exact followed.way place passes

/-- Files can be written alike. -/
theorem writable {path : Path} (writable : fs.Writable path) : other.Writable path :=
  writable.congr alike.home_eq (fun place _ _ there => (alike.nodes place).symm.trans there)
    (alike.nodes _)

end Alike

/-- Where a file is written with the same bytes, all is alike if it was before, but for the way to
the file. -/
theorem Written.alike {fs other written written' : FileSystem} {path : Path} {bytes : Array UInt8}
    (here : Written fs written path bytes) (there : Written other written' path bytes)
    (home : other.home = fs.home)
    (aside : ∀ place, ¬fs.Passes path.parent place → place ≠ fs.placeOf path →
      other.node? place = fs.node? place) : written.Alike written' where
  home_eq := by rw [there.home_eq, home, here.home_eq]
  nodes := by
    have ⟨_, passed, file, others⟩ := there
    rw [passes_congr home] at passed others
    rw [placeOf_congr home] at file others
    intro place
    by_cases passes : fs.Passes path.parent place
    · rw [passed place passes, here.passed place passes]
    · by_cases last : place = fs.placeOf path
      · rw [last, file, here.file]
      · rw [others place passes last, here.others place passes last, aside place passes last]

section

variable {fs : FileSystem} {gone : Place → Bool} {path : Path}

/-- Nothing is taken away where a path passes. -/
def Spares (fs : FileSystem) (gone : Place → Bool) (path : Path) : Prop :=
  ∀ place, fs.Passes path place → gone place = false

/-- What is not taken away stays. -/
theorem node?_without_of_kept {place : Place} (kept : gone place = false) :
    (fs.without gone).node? place = fs.node? place := by
  rw [node?_without, kept, if_neg Bool.false_ne_true]
  unfold node?
  split <;> rfl

/-- Taking away makes no new files or directories. -/
theorem node?_without_cases (fs : FileSystem) (gone : Place → Bool) (place : Place) :
    (fs.without gone).node? place = fs.node? place ∨
      gone place = true ∧ (fs.without gone).node? place = none := by
  cases cleared : gone place with
  | false => exact .inl (node?_without_of_kept cleared)
  | true =>
    rw [node?_without, cleared, if_pos rfl]
    unfold node?
    split
    · exact .inl rfl
    · exact .inr ⟨rfl, rfl⟩

/-- Where a file is not cleared it stays, and clearing makes none. -/
theorem node?_without_eq_file_iff {place : Place} {bytes : Array UInt8} :
    (fs.without gone).node? place = some (.file bytes) ↔
      gone place = false ∧ fs.node? place = some (.file bytes) := by
  cases cleared : gone place with
  | false =>
    rw [node?_without_of_kept cleared]
    exact ⟨fun there => ⟨rfl, there⟩, And.right⟩
  | true =>
    have nothing : (fs.without gone).node? place ≠ some (.file bytes) := by
      rw [node?_without, cleared, if_pos rfl]
      split
      · exact fun there => Node.noConfusion (Option.some.inj there)
      · exact nofun
    exact ⟨fun there => absurd there nothing, fun ⟨kept, _⟩ => absurd kept (by decide)⟩

/-- A directory stays if nothing else becomes of it than that it is cleared. -/
theorem directory_without {other : FileSystem} {place : Place} (home : other.home = fs.home)
    (stays : fs.node? place = some .directory → other.node? place = some .directory)
    (there : (fs.without gone).node? place = some .directory) :
    (other.without gone).node? place = some .directory := by
  rw [node?_without] at there ⊢
  rw [home]
  split
  · rfl
  case isFalse outside =>
    rw [if_neg outside] at there
    split
    case isTrue cleared =>
      rw [if_pos cleared] at there
      contradiction
    case isFalse kept =>
      rw [if_neg kept] at there
      exact stays there

/-- Where a directory is when things have been taken away, it was before. -/
theorem directory_of_without {place : Place}
    (there : (fs.without gone).node? place = some .directory) :
    fs.node? place = some .directory := by
  rcases node?_without_cases fs gone place with stays | ⟨_, nothing⟩
  · rw [← stays, there]
  · rw [nothing] at there
    contradiction

variable (spares : fs.Spares gone path)

include spares

/-- What a path passes stays. -/
theorem Spares.node?_eq {place : Place} (passes : fs.Passes path place) :
    (fs.without gone).node? place = fs.node? place :=
  node?_without_of_kept (spares place passes)

/-- What is read at the end of a path stays. -/
theorem Spares.bytesAt_eq :
    (fs.without gone).bytesAt (fs.placeOf path) = fs.bytesAt (fs.placeOf path) := by
  unfold bytesAt
  rw [spares.node?_eq (fs.passes_placeOf path)]

/-- The path is followed as before. -/
theorem Spares.followed_iff : (fs.without gone).Followed path ↔ fs.Followed path := by
  have way : ∀ place, fs.Passes path.parent place →
      (fs.without gone).node? place = fs.node? place :=
    fun place passes => spares.node?_eq passes.of_parent
  constructor
  · intro ⟨spelt, short, passed⟩
    exact ⟨spelt, short, fun place passes => (way place passes).symm.trans (passed place passes)⟩
  · intro ⟨spelt, short, passed⟩
    exact ⟨spelt, short, fun place passes => (way place passes).trans (passed place passes)⟩

/-- The file can be written as before. -/
theorem Spares.writable (writable : fs.Writable path) : (fs.without gone).Writable path :=
  have way : ∀ place, fs.Passes path.parent place → ∀ bytes,
      (fs.without gone).node? place = some (.file bytes) →
        fs.node? place = some (.file bytes) := fun _ passes _ there =>
    (spares.node?_eq passes.of_parent).symm.trans there
  writable.congr rfl way (spares.node?_eq (fs.passes_placeOf path))

/-- Taking away behind the writing of a file leaves what writing it behind the taking away does. -/
theorem Spares.written {after : FileSystem} {bytes : Array UInt8}
    (written : Written fs after path bytes) :
    Written (fs.without gone) (after.without gone) path bytes where
  home_eq := written.home_eq
  passed := by
    intro place passes
    rw [node?_without_of_kept (spares place (Passes.of_parent passes))]
    exact written.passed place passes
  file := by
    show (after.without gone).node? (fs.placeOf path) = some (.file bytes)
    rw [node?_without_of_kept (spares _ (fs.passes_placeOf path))]
    exact written.file
  others := by
    intro place beside elsewhere
    rw [node?_without, node?_without, written.home_eq, written.others place beside elsewhere]

end

end BankTrace.FileSystem
