import BankTrace.Proofs.FileSystem.Following

/-!
# The names of new files

A file is replaced by way of a new one beside it, which needs a name and a path of its own. Whether
it can have them does not depend on the letters that tell it from other such files, as they are
always eight, nor on what is on disk, once the directory is there: its name is thirteen bytes longer
than that of the file, and neither the name nor the path from the top may be too long.
-/

namespace BankTrace

/-- A text of characters that take a byte each has as many bytes as characters. -/
theorem utf8ByteSize_of_single {text : String} (single : ∀ c ∈ text.toList, c.utf8Size = 1) :
    text.utf8ByteSize = text.toList.length := by
  have encoded : text.utf8ByteSize = text.toList.utf8Encode.size := by simp
  rw [encoded]
  generalize text.toList = cs at single
  induction cs with
  | nil => rfl
  | cons c rest ih =>
    have others := ih fun other later => single other (List.mem_cons_of_mem _ later)
    rw [List.utf8Encode_cons, ByteArray.size_append, others, List.utf8Encode_singleton,
      List.size_toByteArray, String.length_utf8EncodeChar, single c List.mem_cons_self,
      List.length_cons, Nat.add_comm]

/-- A letter of a new file is one of those that take a byte, and not the null character. -/
theorem Letters.range_of_mem (letters : Letters) {c : Char} (member : c ∈ letters.text.toList) :
    0 < c.toNat ∧ c.toNat < 128 := by
  have between : ∀ low high : Char, (decide (c.val ≥ low.val) && decide (c.val ≤ high.val)) = true →
      low.toNat ≤ c.toNat ∧ c.toNat ≤ high.toNat := by
    intro low high inside
    rw [Bool.and_eq_true, decide_eq_true_eq, decide_eq_true_eq] at inside
    exact ⟨UInt32.le_iff_toNat_le.mp inside.1, UInt32.le_iff_toNat_le.mp inside.2⟩
  obtain small | digit | line := letters.known c member
  · have inside : 97 ≤ c.toNat ∧ c.toNat ≤ 122 := between 'a' 'z' small
    omega
  · have inside : 48 ≤ c.toNat ∧ c.toNat ≤ 57 := between '0' '9' digit
    omega
  · rw [line]
    decide

/-- The letters of a new file take a byte each. -/
theorem Letters.utf8ByteSize_text (letters : Letters) : letters.text.utf8ByteSize = 8 := by
  have single : ∀ c ∈ letters.text.toList, c.utf8Size = 1 := by
    intro c member
    have small := (letters.range_of_mem member).2
    rw [Char.utf8Size_eq_one_iff, UInt32.le_iff_toNat_le]
    exact Nat.le_of_lt_succ small
  rw [utf8ByteSize_of_single single, letters.length_eq]

/-- No letter of a new file is the null character. -/
theorem Letters.clean (letters : Letters) : letters.text.toList.contains '\x00' = false := by
  rw [Bool.eq_false_iff, ne_eq, List.contains_iff_mem]
  exact fun null => Nat.lt_irrefl 0 (letters.range_of_mem null).1

namespace FileSystem

variable {fs : FileSystem} {path : Path} {letters : Letters}

/-- Texts that are put together have as many bytes with another last one that is as long. -/
theorem utf8ByteSize_intercalate_concat (separator : String) (texts : List String) {a b : String}
    (same : a.utf8ByteSize = b.utf8ByteSize) :
    (separator.intercalate (texts ++ [a])).utf8ByteSize =
      (separator.intercalate (texts ++ [b])).utf8ByteSize := by
  induction texts with
  | nil => simpa using same
  | cons text rest ih =>
    cases rest with
    | nil => simp [String.intercalate_cons_cons, same]
    | cons second others =>
      simp only [List.cons_append, String.intercalate_cons_cons,
        String.utf8ByteSize_append] at ih ⊢
      rw [ih]

/-- A new file beside another one has a name of its own. -/
theorem names_beside : ∃ name, (fs.beside path letters).path.names = path.parent.names ++ [name] ∧
    name.utf8ByteSize = (path.names.getLastD "").utf8ByteSize + 13 ∧
      name.toList.contains '\x00' = (path.names.getLastD "").toList.contains '\x00' := by
  refine ⟨_, rfl, ?_, ?_⟩
  · have ends : ".tmp".utf8ByteSize = 4 := by decide
    have dot : ".".utf8ByteSize = 1 := by decide
    rw [String.utf8ByteSize_append, String.utf8ByteSize_append, String.utf8ByteSize_append,
      letters.utf8ByteSize_text, ends, dot]
  · have clean := letters.clean
    simp at clean
    simp [clean]

/-- The new file is in the directory of the other one. -/
theorem parent_beside : (fs.beside path letters).path.parent = path.parent :=
  Path.parent_child _ _

/-- The text of a path with names is its root and the names between slashes. -/
theorem toString_concat (root : Path.Root) (front : List String) (last : String) :
    (Path.mk root (front ++ [last])).toString =
      root.text ++ "/".intercalate (front ++ [last]) := by
  rw [toString_eq, if_neg]
  simp

/-- The text of a new file's path is as long as with other letters. -/
theorem text_beside (letters other : Letters) :
    (fs.beside path letters).text.utf8ByteSize = (fs.beside path other).text.utf8ByteSize := by
  unfold beside
  dsimp only
  rw [toString_concat, toString_concat, String.utf8ByteSize_append, String.utf8ByteSize_append]
  congr 1
  apply utf8ByteSize_intercalate_concat
  simp only [String.utf8ByteSize_append, Letters.utf8ByteSize_text]

/-- A new file beside another one can have a name and a path. -/
structure Nameable (fs : FileSystem) (path : Path) : Prop where
  /-- The name is not too long. -/
  name : (path.names.getLastD "").utf8ByteSize + 13 ≤ nameLimit
  /-- The path is not too long. -/
  text : (fs.beside path .any).text.utf8ByteSize < pathLimit

/-- What a new file is called depends on the home directory alone. -/
theorem beside_congr {other : FileSystem} (same : other.home = fs.home) :
    other.beside path letters = fs.beside path letters := by
  unfold beside
  rw [placeOf_congr same]

/-- Whether a new file can have a name and a path depends on the home directory alone. -/
theorem Nameable.congr {other : FileSystem} (nameable : fs.Nameable path)
    (same : other.home = fs.home) : other.Nameable path where
  name := nameable.name
  text := by
    rw [beside_congr same]
    exact nameable.text

/-- The path of a new file can be followed when it can have a name and a path, whatever its letters
are, and the directory can be. -/
theorem locateAs_beside_iff :
    (∃ place, fs.locateAs (fs.beside path letters) = .ok place) ↔
      fs.Nameable path ∧ path.parent.names.any (·.toList.contains '\x00') = false ∧
        (path.names.getLastD "").toList.contains '\x00' = false ∧
          (∀ name ∈ path.parent.names, name.utf8ByteSize ≤ nameLimit) ∧
            ∀ place, fs.Passes path.parent place → fs.node? place = some .directory := by
  have ⟨name, names, size, clean⟩ := @names_beside fs path letters
  simp only [locateAs_eq_ok_iff, parent_beside, SpeltAs, names, List.any_append, List.any_cons,
    List.any_nil, Bool.or_false, Bool.or_eq_false_iff, List.forall_mem_append,
    List.forall_mem_singleton, size, clean, text_beside letters .any]
  constructor
  · intro ⟨_, ⟨⟨above, last⟩, text⟩, ⟨short, name⟩, way, _⟩
    exact ⟨⟨name, text⟩, above, last, short, way⟩
  · intro ⟨⟨name, text⟩, above, last, short, way⟩
    exact ⟨_, ⟨⟨above, last⟩, text⟩, ⟨short, name⟩, way, rfl⟩

/-- The names of a path are those of the path above it and its last one. -/
theorem any_names_eq_false_iff (path : Path) :
    path.names.any (·.toList.contains '\x00') = false ↔
      path.parent.names.any (·.toList.contains '\x00') = false ∧
        (path.names.getLastD "").toList.contains '\x00' = false := by
  obtain ⟨root, names⟩ := path
  rcases List.eq_nil_or_concat names with rfl | ⟨front, last, rfl⟩
  · simp [Path.parent]
  · simp [Path.parent]

/-- Beside a path that can be followed a new file can be made when it can have a name and a
path. -/
theorem Followed.locateAs_beside_iff (followed : fs.Followed path) :
    (∃ place, fs.locateAs (fs.beside path letters) = .ok place) ↔ fs.Nameable path := by
  have ⟨above, last⟩ := (any_names_eq_false_iff path).mp followed.spelt.1
  have short : ∀ name ∈ path.parent.names, name.utf8ByteSize ≤ nameLimit :=
    fun name member => followed.short name ((List.dropLast_sublist _).mem member)
  rw [FileSystem.locateAs_beside_iff]
  exact ⟨And.left, fun nameable => ⟨nameable, above, last, short, followed.way⟩⟩

/-- A file is replaced where it can be written and the new file beside it can have a name and a
path, and it is replaced by what is written. -/
theorem replace_eq_ok_iff {replaced : FileSystem} {bytes : Array UInt8} :
    fs.replace path bytes = .ok replaced ↔
      fs.Nameable path ∧ fs.write path bytes = .ok replaced := by
  unfold replace write
  cases located : fs.locate path with
  | error e =>
    cases named : fs.locateAs (fs.beside path .any) <;> simp [named, bind, Except.bind]
  | ok place =>
    have followed := (locate_eq_ok_iff.mp located).1
    rw [← @Followed.locateAs_beside_iff fs path .any followed]
    cases named : fs.locateAs (fs.beside path .any) with
    | error e => simp [named, bind, Except.bind]
    | ok new =>
      cases there : fs.node? place with
      | none => simp [named, bind, Except.bind, there]
      | some node =>
        cases node <;>
          simp [named, bind, Except.bind, there, throw, throwThe, MonadExceptOf.throw]

/-- Bytes that replace a file below new directories are those of the file at the place of the path,
and directories are opened above it. -/
theorem builds_replaceDeep {written : FileSystem} {bytes : Array UInt8}
    (done : fs.replaceDeep path bytes = (written, .ok ())) :
    Builds (· = fs.placeOf path) (fs.Passes path.parent) fs written ∧
      written.locate path = .ok (fs.placeOf path) ∧
        written.node? (fs.placeOf path) = some (.file bytes) :=
  builds_below (fun _ replaced => (replace_eq_ok_iff.mp replaced).2) done

end FileSystem

end BankTrace
