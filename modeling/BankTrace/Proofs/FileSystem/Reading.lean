import BankTrace.FileSystem

/-!
# Reading files

A path is read when it leads to a file. Of all the ways in which a path can fail to do so, a null
character in one of its names is an error of its own, which nothing else on the way brings about. A
stretch of a file is read when its offset can be asked for and its end is in the file.
-/

namespace BankTrace

/-- A null character is in one of the names of the path. -/
def Path.hasNull (path : Path) : Bool := path.names.any (·.toList.contains '\x00')

namespace FileSystem

section

variable {fs : FileSystem} {path : Path} {bytes : Array UInt8}

/-- The path leads to a file with these bytes. -/
def HasFile (fs : FileSystem) (path : Path) (bytes : Array UInt8) : Prop :=
  ∃ place, fs.locate path = .ok place ∧ fs.node? place = some (.file bytes)

/-- A file is read exactly when the path leads to one. -/
theorem read_eq_ok_iff : fs.read path = .ok bytes ↔ fs.HasFile path bytes := by
  unfold read find HasFile
  cases located : fs.locate path with
  | error e =>
    constructor
    · intro absurdity
      contradiction
    · rintro ⟨_, absurdity, _⟩
      contradiction
  | ok place =>
    simp only [bind, Except.bind]
    constructor
    · intro read
      refine ⟨place, rfl, ?_⟩
      cases there : fs.node? place with
      | none =>
        rw [there] at read
        contradiction
      | some node =>
        rw [there] at read
        cases node with
        | file found => rw [Except.ok.inj read]
        | directory => contradiction
    · rintro ⟨other, same, there⟩
      rw [Except.ok.inj same, there]
      rfl

/-- A path leads to one file at most. -/
theorem HasFile.unique {other : Array UInt8} (found : fs.HasFile path bytes)
    (found' : fs.HasFile path other) : bytes = other :=
  Except.ok.inj ((read_eq_ok_iff.mpr found).symm.trans (read_eq_ok_iff.mpr found'))

/-- Null characters do not come up on the way of a path. -/
theorem walk_ne_null (text : String) (here : Place) (names : List String) :
    fs.walk text here names ≠ .error .nullInPath := by
  induction names generalizing here with
  | nil => simp [walk]
  | cons name rest ih =>
    unfold walk
    split
    · simp
    · simp
    · split
      · simp
      · exact ih _

/-- A path with a null character is refused as such, and no other one is. -/
theorem read_eq_null_iff : fs.read path = .error .nullInPath ↔ path.hasNull = true := by
  have refused : fs.locate path = .error .nullInPath ↔ path.hasNull = true := by
    unfold locate follow
    change (if path.hasNull = true then _ else _) = _ ↔ _
    split
    case isTrue null => simp [null]
    case isFalse clean =>
      split
      · simp [clean]
      · simp [clean, walk_ne_null]
  rw [← refused]
  unfold read find
  cases located : fs.locate path with
  | error e => simp [bind, Except.bind]
  | ok place =>
    simp only [bind, Except.bind]
    cases there : fs.node? place with
    | none => simp [throw, throwThe, MonadExceptOf.throw]
    | some node => cases node <;> simp [throw, throwThe, MonadExceptOf.throw, pure, Except.pure]

/-- What cannot be read at all cannot be read from an offset on. -/
theorem readRange_of_error (memory : Memory) {e : FileError} (failed : fs.read path = .error e)
    (offset size : Int) : fs.readRange memory path offset size = .error (.file e) := by
  unfold readRange
  rw [failed]
  rfl

/-- A stretch of a file that fits into an address space is read when its offset can be asked for and
its end is in the file. -/
theorem readRange_of_read (memory : Memory) (found : fs.HasFile path bytes) (offset : Nat)
    {size : Nat}     (positive : 0 < size) (small : size ≤ addressCount) :
    fs.readRange memory path offset size =
      if wordLimit ≤ offset then .error .offsetTooLarge
      else if offset + size ≤ bytes.size then .ok (bytes.extract offset (offset + size))
      else .error (.short path (bytes.size - offset) size offset) := by
  have opened : (fs.read path).mapError RangeError.file = .ok bytes := by
    rw [read_eq_ok_iff.mpr found]
    rfl
  unfold addressCount at small
  unfold readRange
  rw [opened]
  simp only [bind, Except.bind]
  have low : ¬(offset : Int) < -wordLimit := by
    unfold wordLimit
    omega
  by_cases far : wordLimit ≤ offset
  · rw [if_pos (.inl far), if_pos far]
    rfl
  · have inside : ¬(offset : Int) < 0 := by omega
    have asked : ¬(size : Int) < 0 := by omega
    have word : ¬((size : Int) ≥ wordLimit ∨ (size : Int) < -wordLimit) := by
      unfold wordLimit
      omega
    have room : ¬(size : Int) ≥ roomLimit := by
      unfold roomLimit wordLimit
      omega
    have held : ¬(size : Int) ≥ memory.limit := by
      have large : 0x10000 < memory.limit := memory.large
      omega
    have stretch : (bytes.extract offset).extract 0 size =
        bytes.extract offset (offset + size) := by
      rw [Array.extract_extract, Nat.add_zero, Array.extract_eq_extract_right]
      omega
    rw [if_neg (not_or.mpr ⟨far, low⟩), if_neg far, if_neg inside, if_neg word,
      if_neg (by omega), if_neg room, if_neg held, if_neg asked, Int.toNat_natCast,
      Int.toNat_natCast, stretch, Array.size_extract]
    by_cases fits : offset + size ≤ bytes.size
    · have full : min (offset + size) bytes.size - offset = size := by omega
      rw [if_pos fits, full, if_pos rfl]
      rfl
    · have shorter : min (offset + size) bytes.size - offset = bytes.size - offset := by omega
      rw [if_neg fits, shorter, if_neg (by omega)]
      rfl

end

end FileSystem

end BankTrace
