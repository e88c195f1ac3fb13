import BankTrace.Proofs.FileSystem.Writability

/-!
# Replacing files step by step

A file is replaced by way of a new one beside it, which is made, filled and moved over it. Whoever
reads the file meanwhile reads the old bytes or the new ones. As the new one is made where nothing
is, nothing is lost by making it, and it is gone when the file has been replaced and also when it
cannot be. So step by step the same is left as at once, whatever letters the name of the new file
has. Where a step is refused, for whatever reason, what was there is left, except for new
directories on the way.
-/

namespace BankTrace.FileSystem

/-- The steps by which a file is replaced. -/
inductive Stage where
  /-- What is there is looked at, and directories are made. -/
  | approach
  /-- The new file is made. -/
  | create
  /-- It is filled. -/
  | fill
  /-- It is moved over the other one. -/
  | move

/-- How a file is replaced: the letters of the new file, and the steps that are refused for reasons
that are not on disk, such as want of room. -/
structure Manner where
  /-- The letters. -/
  letters : Letters
  /-- The steps that are refused, and why. -/
  refuses : Stage → Option FileError := fun _ => none

/-- A step is done unless it is refused. -/
def Manner.attempt {α : Type} (m : Manner) (stage : Stage) (answer : Except FileError α) :
    Except FileError α :=
  match m.refuses stage with
  | some e => .error e
  | none => answer

/-- Make an empty file where there is nothing, and tell its place. -/
def create (fs : FileSystem) (new : Path.Spelling) : Except FileError (Place × FileSystem) := do
  let place ← fs.locateAs new
  match fs.node? place with
  | some _ => throw (.exists new.text)
  | none => return (place, fs.put place (.file #[]))

/-- Move a file over what is at another path, which is no directory. -/
def move (fs : FileSystem) (source : Path.Spelling) (target : Path) :
    Except FileError FileSystem := do
  let here ← fs.locateAs source
  let there ← fs.locate target
  match fs.node? here, fs.node? there with
  | some (.file _), some .directory => throw (moveError source.text target)
  | some (.file bytes), _ => return (fs.erase here).put there (.file bytes)
  | _, _ => throw (.notFound source.text)

/-- Remove a file, if there is one. -/
def remove (fs : FileSystem) (path : Path.Spelling) : FileSystem :=
  match fs.locateAs path with
  | .ok place =>
    match fs.node? place with
    | some (.file _) => fs.erase place
    | _ => fs
  | .error _ => fs

/-- Put bytes into a file by way of a new one, step by step. The new file is removed where it cannot
be filled or moved. -/
def replaceBy (m : Manner) (fs : FileSystem) (path : Path) (bytes : Array UInt8) :
    FileSystem × Except FileError Unit :=
  let new := fs.beside path m.letters
  match m.attempt .create (fs.create new) with
  | .error e => (fs, .error e)
  | .ok (place, opened) =>
    match m.attempt .fill (.ok (opened.put place (.file bytes))) with
    | .error e => (opened.remove new, .error e)
    | .ok filled =>
      match m.attempt .move (filled.move new path) with
      | .error e => (filled.remove new, .error e)
      | .ok moved => (moved, .ok ())

/-- Replace a file step by step, making the directories above it first. -/
def replaceDeepBy (m : Manner) (fs : FileSystem) (path : Path) (bytes : Array UInt8) :
    FileSystem × Except FileError Unit :=
  match m.refuses .approach with
  | some e => (fs, .error e)
  | none =>
    match fs.makeDirectories path.parent with
    | (above, .error e) => (above, .error e)
    | (above, .ok ()) => above.replaceBy m path bytes

section

variable {fs : FileSystem} {place : Place}

/-- Putting a node at a place twice is putting the second one. -/
theorem put_put (fs : FileSystem) (place : Place) (first second : Node) :
    (fs.put place first).put place second = fs.put place second := by
  have twice : ∀ nodes : List (Place × Node),
      setNode place second (setNode place first nodes) = setNode place second nodes := by
    intro nodes
    induction nodes with
    | nil => simp [setNode]
    | cons head rest ih =>
      obtain ⟨p, old⟩ := head
      by_cases here : p = place
      · simp [setNode, here]
      · simp [setNode, here, ih]
  unfold put
  rw [twice]

/-- Taking away what was put where nothing was leaves what was there before. -/
theorem erase_put_of_free (free : fs.node? place = none) (node : Node) :
    (fs.put place node).erase place = fs := by
  have unlisted : fs.nodes.lookup place = none := by
    unfold node? at free
    split at free
    · contradiction
    · exact free
  have undone : ∀ nodes : List (Place × Node), nodes.lookup place = none →
      (setNode place node nodes).filter (fun entry => entry.1 ≠ place) = nodes := by
    intro nodes none
    induction nodes with
    | nil => simp [setNode]
    | cons head rest ih =>
      obtain ⟨p, old⟩ := head
      rw [lookup_node] at none
      split at none
      case isTrue => contradiction
      case isFalse elsewhere =>
        have other : p ≠ place := Ne.symm elsewhere
        have kept : decide ((p, old).1 ≠ place) = true := decide_eq_true other
        rw [setNode, if_neg other, List.filter_cons, if_pos kept, ih none]
  unfold erase put
  dsimp only
  rw [undone _ unlisted]

end

/-- Where nothing is, a node can be put, and it is found there. -/
theorem node?_put_of_free {fs : FileSystem} {place : Place} (free : fs.node? place = none)
    (node : Node) (other : Place) :
    (fs.put place node).node? other = if other = place then some node else fs.node? other := by
  refine fs.node?_put place other node (Bool.eq_false_iff.mpr fun above => ?_)
  unfold node? at free
  rw [if_pos above] at free
  contradiction

/-- Where nothing is, a file can be put, and paths are followed as before: only the end of a path
can be a file. -/
theorem locateAs_put_iff {fs : FileSystem} {place : Place} (free : fs.node? place = none)
    (bytes : Array UInt8) {path : Path.Spelling} {last : Place} :
    (fs.put place (.file bytes)).locateAs path = .ok last ↔ fs.locateAs path = .ok last := by
  have found := node?_put_of_free free (.file bytes)
  have elsewhere : ∀ other, other ≠ place →
      (fs.put place (.file bytes)).bytesAt other = fs.bytesAt other := by
    intro other apart
    unfold bytesAt
    rw [found, if_neg apart]
  have more : Grows (· = place) fs (fs.put place (.file bytes)) := by
    refine ⟨rfl, fun other there => ?_, elsewhere⟩
    have apart : other ≠ place := by
      rintro rfl
      rw [free] at there
      contradiction
    rw [found, if_neg apart]
    exact there
  have less : Grows (· = place) (fs.put place (.file bytes)) fs := by
    refine ⟨rfl, fun other there => ?_, fun other apart => (elsewhere other apart).symm⟩
    rw [found] at there
    split at there
    · exact Node.noConfusion (Option.some.inj there)
    · exact there
  exact ⟨less.locateAs, more.locateAs⟩

/-- A new file is made where nothing is. -/
theorem create_eq_ok_iff {fs opened : FileSystem} {new : Path.Spelling} {place : Place} :
    fs.create new = .ok (place, opened) ↔
      fs.locateAs new = .ok place ∧ fs.node? place = none ∧
        opened = fs.put place (.file #[]) := by
  unfold create
  cases located : fs.locateAs new with
  | error e => simp [bind, Except.bind]
  | ok here =>
    cases there : fs.node? here with
    | none =>
      simp only [bind, Except.bind, pure, Except.pure, there, Except.ok.injEq, Prod.mk.injEq]
      constructor
      · rintro ⟨rfl, rfl⟩
        exact ⟨rfl, there, rfl⟩
      · rintro ⟨rfl, _, rfl⟩
        exact ⟨rfl, rfl⟩
    | some node =>
      simp only [bind, Except.bind, there, throw, throwThe, MonadExceptOf.throw, Except.ok.injEq]
      constructor
      · intro absurdity
        contradiction
      · rintro ⟨rfl, free, _⟩
        rw [there] at free
        contradiction

section

variable {fs opened : FileSystem} {new : Path.Spelling} {place : Place}
  (made : fs.create new = .ok (place, opened))

include made

/-- Removing a new file that has been filled leaves what was there before. -/
theorem remove_of_create (bytes : Array UInt8) :
    (fs.put place (.file bytes)).remove new = fs := by
  obtain ⟨located, free, rfl⟩ := create_eq_ok_iff.mp made
  unfold remove
  rw [(locateAs_put_iff free bytes).mpr located]
  dsimp only
  rw [node?_put_of_free free, if_pos rfl]
  exact erase_put_of_free free _

/-- A new file that has been filled is moved over another one where that one can be written, and it
leaves what writing leaves. -/
theorem move_of_create (bytes : Array UInt8) {path : Path} {moved : FileSystem} :
    (fs.put place (.file bytes)).move new path = .ok moved ↔ fs.write path bytes = .ok moved := by
  obtain ⟨located, free, rfl⟩ := create_eq_ok_iff.mp made
  have found := node?_put_of_free free (.file bytes)
  have same : ∀ there, (fs.put place (.file bytes)).locate path = .ok there ↔
      fs.locate path = .ok there := fun there => @locateAs_put_iff fs place free bytes path there
  unfold move write
  rw [(locateAs_put_iff free bytes).mpr located]
  cases target : fs.locate path with
  | error e =>
    cases target' : (fs.put place (.file bytes)).locate path with
    | error e' => simp [bind, Except.bind]
    | ok there =>
      rw [(same there).mp target'] at target
      contradiction
  | ok there =>
    rw [(same there).mpr target]
    simp only [bind, Except.bind]
    rw [found, if_pos rfl, found, erase_put_of_free free]
    by_cases here : there = place
    · rw [if_pos here, here, free]
    · rw [if_neg here]
      cases fs.node? there with
      | none => rfl
      | some node =>
        cases node with
        | file old => rfl
        | directory => simp [throw, throwThe, MonadExceptOf.throw]

end

section

variable {m : Manner} {fs left replaced : FileSystem} {path : Path} {bytes : Array UInt8}
  {e : FileError}

/-- A step that is not refused is done. -/
theorem Manner.attempt_eq_ok_iff {α : Type} {stage : Stage} {answer : Except FileError α} {a : α} :
    m.attempt stage answer = .ok a ↔ m.refuses stage = none ∧ answer = .ok a := by
  unfold attempt
  cases m.refuses stage <;> simp

/-- Step by step a file either cannot be replaced, and everything is as it was, or a file could be
made beside it, and what is left is what writing the bytes to it leaves. -/
theorem replaceBy_cases (m : Manner) (fs : FileSystem) (path : Path) (bytes : Array UInt8) :
    (∃ e, fs.replaceBy m path bytes = (fs, .error e)) ∨
      ∃ place replaced, fs.locateAs (fs.beside path m.letters) = .ok place ∧
        fs.write path bytes = .ok replaced ∧ fs.replaceBy m path bytes = (replaced, .ok ()) := by
  unfold replaceBy
  dsimp only
  cases made : m.attempt .create (fs.create (fs.beside path m.letters)) with
  | error e => exact .inl ⟨e, rfl⟩
  | ok entry =>
    obtain ⟨place, opened⟩ := entry
    have created := (Manner.attempt_eq_ok_iff.mp made).2
    obtain ⟨located, _, rfl⟩ := create_eq_ok_iff.mp created
    dsimp only
    rw [put_put]
    cases filled : m.attempt .fill (.ok (fs.put place (.file bytes))) with
    | error e =>
      left
      refine ⟨e, ?_⟩
      dsimp only
      rw [remove_of_create created]
    | ok full =>
      obtain rfl := Except.ok.inj (Manner.attempt_eq_ok_iff.mp filled).2
      dsimp only
      cases moved : m.attempt .move
          ((fs.put place (.file bytes)).move (fs.beside path m.letters) path) with
      | error e =>
        left
        refine ⟨e, ?_⟩
        dsimp only
        rw [remove_of_create created]
      | ok last =>
        have written := (move_of_create created bytes).mp (Manner.attempt_eq_ok_iff.mp moved).2
        exact .inr ⟨place, last, located, written, rfl⟩

/-- A file that can be replaced is so step by step, if no step is refused and nothing has the name
of the new file. -/
theorem replaceBy_of_free (allows : ∀ stage, m.refuses stage = none)
    (free : fs.node? (fs.placeOf (fs.beside path m.letters).path) = none)
    (done : fs.replace path bytes = .ok replaced) :
    fs.replaceBy m path bytes = (replaced, .ok ()) := by
  have ⟨nameable, put⟩ := replace_eq_ok_iff.mp done
  have followed := (locate_eq_ok_iff.mp (write_eq_ok_iff.mp put).1).1
  obtain ⟨place, located⟩ := (@Followed.locateAs_beside_iff _ _ m.letters followed).mpr nameable
  obtain rfl := eq_placeOf_of_locateAs located
  have created := create_eq_ok_iff.mpr ⟨located, free, rfl⟩
  have moved := (move_of_create created bytes).mpr put
  unfold replaceBy
  simp only [Manner.attempt, allows, created, put_put, moved]

/-- A file that is replaced step by step below new directories is as if it had been replaced at
once. -/
theorem replaceDeep_of_replaceDeepBy (done : fs.replaceDeepBy m path bytes = (replaced, .ok ())) :
    fs.replaceDeep path bytes = (replaced, .ok ()) := by
  unfold replaceDeepBy at done
  split at done
  · simp at done
  · split at done
    · simp at done
    case h_2 above made =>
      obtain ⟨_, failed⟩ | ⟨place, last, located, put, done'⟩ := replaceBy_cases m above path bytes
      · simp [failed] at done
      rw [done'] at done
      obtain rfl := (Prod.mk.inj done).1
      have followed := (locate_eq_ok_iff.mp (write_eq_ok_iff.mp put).1).1
      have nameable := followed.locateAs_beside_iff.mp ⟨place, located⟩
      exact below_eq_ok_iff.mpr ⟨above, made, replace_eq_ok_iff.mpr ⟨nameable, put⟩⟩

/-- Where a file cannot be replaced step by step, there may be new directories above it, and nothing
else; when no step is refused, as many of them are there as can be made. -/
theorem builds_of_replaceDeepBy_error
    (refused : fs.replaceDeepBy m path bytes = (left, .error e)) :
    Builds (fun _ => False) (fs.Passes path.parent) fs left ∧
      (m.refuses .approach = none → left = (fs.makeDirectories path.parent).1) := by
  unfold replaceDeepBy at refused
  split at refused
  case h_1 e' stops =>
    obtain ⟨rfl, _⟩ := Prod.mk.inj refused
    refine ⟨.refl _ _ _, fun allows => ?_⟩
    rw [stops] at allows
    contradiction
  case h_2 =>
    have left_eq : left = (fs.makeDirectories path.parent).1 := by
      split at refused
      case h_1 above e' made =>
        rw [made]
        exact (Prod.mk.inj refused).1.symm
      case h_2 above made =>
        rw [made]
        obtain ⟨_, failed⟩ | ⟨_, last, _, _, done⟩ := replaceBy_cases m above path bytes
        · rw [failed] at refused
          exact (Prod.mk.inj refused).1.symm
        · simp [done] at refused
    refine ⟨?_, fun _ => left_eq⟩
    rw [left_eq]
    exact builds_makeDirectories fs path.parent

/-- A file that can be replaced is so step by step below new directories, if no step is refused and
nothing has the name of the new file. -/
theorem replaceDeepBy_of_free (allows : ∀ stage, m.refuses stage = none)
    (free : replaced.node? (fs.placeOf (fs.beside path m.letters).path) = none)
    (done : fs.replaceDeep path bytes = (replaced, .ok ())) :
    fs.replaceDeepBy m path bytes = (replaced, .ok ()) := by
  obtain ⟨above, made, put⟩ := below_eq_ok_iff.mp done
  have reached := builds_makeDirectories fs path.parent
  rw [made] at reached
  have ⟨builds, _, there⟩ := builds_write (replace_eq_ok_iff.mp put).2
  have early : above.node? (above.placeOf (above.beside path m.letters).path) = none := by
    rw [beside_congr reached.home_eq, reached.placeOf_eq]
    have apart : fs.placeOf (fs.beside path m.letters).path ≠ above.placeOf path := by
      intro same
      rw [same, there] at free
      contradiction
    rcases builds.nodes _ apart with stays | ⟨nothing, _⟩
    · rw [← stays, free]
    · exact nothing
  unfold replaceDeepBy
  rw [allows, made]
  exact replaceBy_of_free allows early put

/-- A file that cannot be replaced below new directories cannot be so step by step either, and when
no step is refused, the same is left. -/
theorem replaceDeepBy_of_refused (allows : ∀ stage, m.refuses stage = none)
    (refused : fs.replaceDeep path bytes = (left, .error e)) :
    ∃ e', fs.replaceDeepBy m path bytes = (left, .error e') := by
  cases answer : fs.replaceDeepBy m path bytes with
  | mk left' result =>
    cases result with
    | ok _ =>
      rw [replaceDeep_of_replaceDeepBy answer] at refused
      simp at refused
    | error e' =>
      rw [(builds_of_replaceDeepBy_error answer).2 (allows _), ← eq_of_below_error refused]
      exact ⟨e', rfl⟩

end

end BankTrace.FileSystem
