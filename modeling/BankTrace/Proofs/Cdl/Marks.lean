import BankTrace.Cdl.Store

/-!
# Marks on log files

A mark adds bits to a stretch of log bytes. After any number of marks a byte has the bits that it
had before and those of all marks that reach it, whatever their order. Marks change neither which
files a store has, nor their sizes, nor what was last read from them: that part of a store is its
reading, and everything that is asked about loaded bytes is answered from the reading alone.
-/

namespace BankTrace.Cdl

/-- The bits that a mask selects from two bytes are those that it selects from each. -/
theorem and_of_or (left right mask : UInt8) :
    (left ||| right) &&& mask = (left &&& mask) ||| (right &&& mask) := by
  apply UInt8.toBitVec_inj.mp
  simp only [UInt8.toBitVec_and, UInt8.toBitVec_or]
  exact BitVec.and_or_distrib_right ..

/-- A union of bits has one of the bits of a mask when one of its parts has. -/
theorem hasAny_or (mask left right : UInt8) :
    hasAny mask (left ||| right) = (hasAny mask left || hasAny mask right) := by
  unfold hasAny
  rw [and_of_or, Bool.eq_iff_iff]
  simp only [bne_iff_ne, ne_eq, UInt8.or_eq_zero_iff, Bool.or_eq_true]
  grind

/-- No bit is set in zero. -/
@[simp] theorem hasAny_zero (mask : UInt8) : hasAny mask 0 = false := by
  simp [hasAny]

/-- What a mask of one bit selects from a byte is told by whether the byte has the bit. -/
theorem and_eq_ite_hasAny {bit : UInt8} {i : Nat} (single : bit.toBitVec = BitVec.twoPow 8 i)
    (byte : UInt8) : byte &&& bit = if hasAny bit byte = true then bit else 0 := by
  have select : byte &&& bit = if byte.toBitVec.getLsbD i = true then bit else 0 := by
    rw [← UInt8.toBitVec_inj, UInt8.toBitVec_and, single, BitVec.and_twoPow]
    split
    · exact single.symm
    · rfl
  unfold hasAny
  by_cases unset : byte &&& bit = 0
  · simp [unset]
  · rw [select] at unset ⊢
    split at unset
    case isTrue set =>
      simp only [set, if_true] at unset ⊢
      simp [unset]
    case isFalse => contradiction

/-- Bytes are the same when both are code or none is, both are data or none is, and the other bits
agree. -/
theorem eq_of_hasAny_eq {left right : UInt8} (codes : hasAny code left = hasAny code right)
    (datas : hasAny data left = hasAny data right) (rest : left &&& 0xFC = right &&& 0xFC) :
    left = right := by
  have parts : ∀ byte : UInt8,
      byte = (byte &&& code) ||| (byte &&& data) ||| (byte &&& 0xFC) := by
    intro byte
    rw [UInt8.and_comm byte code, UInt8.and_comm byte data, UInt8.and_comm byte 0xFC,
      ← and_of_or, ← and_of_or]
    exact UInt8.neg_one_and.symm
  have one : code.toBitVec = BitVec.twoPow 8 0 := by decide
  have two : data.toBitVec = BitVec.twoPow 8 1 := by decide
  rw [parts left, parts right, and_eq_ite_hasAny one, and_eq_ite_hasAny one,
    and_eq_ite_hasAny two, and_eq_ite_hasAny two, codes, datas, rest]

namespace File

/-- What was last read of a file, together with its size. -/
def reading (f : File) : Nat × Option (Array UInt8) := (f.size, f.loaded.map Vector.toArray)

/-- A mark leaves the reading alone. -/
@[simp] theorem reading_mark (f : File) (offset : Nat) (mask : Mask) :
    (f.mark offset mask).reading = f.reading := by
  obtain ⟨size, buffer, dirty, loaded⟩ := f
  simp only [mark]
  by_cases inside : offset < size
  · rw [dif_pos inside]
    split <;> rfl
  · rw [dif_neg inside]

@[simp] theorem size_mark (f : File) (offset : Nat) (mask : Mask) :
    (f.mark offset mask).size = f.size :=
  congrArg Prod.fst (reading_mark f offset mask)

/-- A mark adds its bits to one byte and leaves the others alone. -/
theorem byte_mark (f : File) (offset i : Nat) (mask : Mask) :
    (f.mark offset mask).byte i =
      if i = offset ∧ i < f.size then f.byte i ||| mask else f.byte i := by
  obtain ⟨size, buffer, dirty, loaded⟩ := f
  simp only [mark]
  by_cases inside : offset < size
  · rw [dif_pos inside]
    by_cases here : i = offset
    · subst here
      by_cases same : buffer[i] ||| mask = buffer[i]
      · rw [if_pos same]
        simp [byte, inside, same]
      · rw [if_neg same]
        simp [byte, inside]
    · have other : offset ≠ i := fun h => here h.symm
      split
      · simp [here]
      · simp [byte, here, other]
  · have absent : ¬(i = offset ∧ i < size) := by
      rintro ⟨rfl, present⟩
      exact inside present
    rw [dif_neg inside, if_neg absent]

/-- Marks of a stretch leave the reading alone. -/
@[simp] theorem reading_markRange (f : File) (offset : Nat) (mask : Mask) (count : Nat) :
    (f.markRange offset mask count).reading = f.reading := by
  induction count generalizing f offset with
  | zero => rfl
  | succ count ih =>
    rw [markRange, ih, reading_mark]

/-- Marks of a stretch add their bits to the bytes of the stretch that the file has. -/
theorem byte_markRange (f : File) (offset i : Nat) (mask : Mask) (count : Nat) :
    (f.markRange offset mask count).byte i =
      if offset ≤ i ∧ i < offset + count ∧ i < f.size then f.byte i ||| mask else f.byte i := by
  induction count generalizing f offset with
  | zero =>
    rw [markRange, if_neg (by omega)]
  | succ count ih =>
    rw [markRange, ih, byte_mark, size_mark]
    by_cases first : i = offset ∧ i < f.size
    · rw [if_pos first, if_neg (by omega), if_pos (by omega)]
    · rw [if_neg first]
      by_cases later : offset + 1 ≤ i ∧ i < offset + 1 + count ∧ i < f.size
      · rw [if_pos later, if_pos (by omega)]
      · rw [if_neg later, if_neg (by omega)]

/-- The loaded byte is a matter of the reading. -/
theorem loadedByte_eq (f : File) (offset : Nat) :
    f.loadedByte offset = (f.reading.2.map (·.getD offset 0)).getD 0 := by
  unfold loadedByte reading
  cases f.loaded <;> rfl

/-- Files with one reading have the same loaded bytes. -/
theorem loadedByte_congr {f g : File} (same : f.reading = g.reading) (offset : Nat) :
    f.loadedByte offset = g.loadedByte offset := by
  rw [loadedByte_eq, loadedByte_eq, same]

end File

/-- Bits for a stretch of log bytes. -/
structure Mark where
  /-- The first byte. -/
  position : Position
  /-- The number of bytes. -/
  count : Nat
  /-- The bits. -/
  bits : Mask

namespace Mark

/-- The stretch has the byte at a position. -/
def Reaches (m : Mark) (q : Position) : Prop :=
  q.file = m.position.file ∧ m.position.offset.toNat ≤ q.offset.toNat ∧
    q.offset.toNat < m.position.offset.toNat + m.count

instance (m : Mark) (q : Position) : Decidable (m.Reaches q) :=
  inferInstanceAs (Decidable (_ ∧ _ ∧ _))

/-- The bits that marks have for a position. -/
def bitsAt (marks : List Mark) (q : Position) : UInt8 :=
  marks.foldr (fun m bits => if m.Reaches q then m.bits ||| bits else bits) 0

/-- Some bit of a mask is marked when a mark that reaches the position has one. -/
theorem hasAny_bitsAt {mask : UInt8} {marks : List Mark} {q : Position} :
    hasAny mask (bitsAt marks q) = true ↔
      ∃ m ∈ marks, m.Reaches q ∧ hasAny mask m.bits = true := by
  induction marks with
  | nil => simp [bitsAt]
  | cons m rest ih =>
    simp only [List.mem_cons, exists_eq_or_imp, ← ih]
    simp only [bitsAt, List.foldr_cons]
    by_cases reached : m.Reaches q
    · rw [if_pos reached, hasAny_or, Bool.or_eq_true]
      simp only [reached, true_and]
    · rw [if_neg reached]
      simp only [reached, false_and, false_or]

/-- Marks that all have the same bits bring these to the positions that one of them reaches. -/
theorem bitsAt_of_uniform {bits : Mask} {marks : List Mark} (each : ∀ m ∈ marks, m.bits = bits)
    (q : Position) : bitsAt marks q = if ∃ m ∈ marks, m.Reaches q then bits else 0 := by
  induction marks with
  | nil => rfl
  | cons m rest ih =>
    have others := ih fun m' later => each m' (List.mem_cons_of_mem m later)
    unfold bitsAt at others ⊢
    rw [List.foldr_cons, others, each m List.mem_cons_self]
    by_cases reached : m.Reaches q
    · have here : ∃ m' ∈ m :: rest, m'.Reaches q := ⟨m, List.mem_cons_self, reached⟩
      rw [if_pos reached, if_pos here]
      split
      · exact UInt8.or_self
      · exact UInt8.or_zero
    · have later : (∃ m' ∈ m :: rest, m'.Reaches q) ↔ ∃ m' ∈ rest, m'.Reaches q := by
        simp only [List.mem_cons, exists_eq_or_imp, reached, false_or]
      simp only [later, reached, if_false]

/-- Marks without the bits of a mask bring none of them. -/
theorem bitsAt_and_eq_zero {mask : UInt8} {marks : List Mark}
    (each : ∀ m ∈ marks, m.bits &&& mask = 0) (q : Position) : bitsAt marks q &&& mask = 0 := by
  induction marks with
  | nil => exact UInt8.zero_and
  | cons m rest ih =>
    have others := ih fun m' later => each m' (List.mem_cons_of_mem m later)
    unfold bitsAt at others ⊢
    rw [List.foldr_cons]
    split
    · rw [and_of_or, each m List.mem_cons_self, others, UInt8.or_zero]
    · exact others

/-- The order of marks does not matter. -/
theorem bitsAt_perm {left right : List Mark} (same : left.Perm right) (q : Position) :
    bitsAt left q = bitsAt right q := by
  induction same with
  | nil => rfl
  | cons m _ ih =>
    simp only [bitsAt, List.foldr_cons] at ih ⊢
    rw [ih]
  | swap first second rest =>
    simp only [bitsAt, List.foldr_cons]
    split <;> split
    · rw [← UInt8.or_assoc, ← UInt8.or_assoc, UInt8.or_comm second.bits]
    · rfl
    · rfl
    · rfl
  | trans _ _ ih₁ ih₂ => rw [ih₁, ih₂]

end Mark

/-- The value of a key is changed where all values are changed alike. -/
theorem lookup_mapValues {α β γ : Type} [BEq α] (change : β → γ) (pairs : List (α × β)) (key : α) :
    (pairs.map fun (k, v) => (k, change v)).lookup key = (pairs.lookup key).map change := by
  induction pairs with
  | nil => rfl
  | cons pair rest ih =>
    obtain ⟨k, v⟩ := pair
    simp only [List.map_cons, List.lookup_cons, ih]
    cases key == k <;> rfl

namespace Store

/-- The byte at a position with all marks, zero outside the files. -/
def byteAt (s : Store) (p : Position) : UInt8 :=
  match s.file? p.file with
  | some f => f.byte p.offset.toNat
  | none => 0

/-- What was last read of all files: nothing else of a store is known to a traversal. -/
def reading (s : Store) : List (Path × Nat × Option (Array UInt8)) :=
  s.files.map fun (path, f) => (path, f.reading)

/-- The files by their sizes. -/
def sizes (s : Store) : List (Path × Nat) := s.reading.map fun (path, size, _) => (path, size)

/-- The store has the byte at a position. -/
def Has (s : Store) (p : Position) : Prop :=
  ∃ size, s.sizes.lookup p.file = some size ∧ 0 ≤ p.offset ∧ p.offset < size

/-- A store has no bytes in front of its files. -/
theorem Has.offset_nonneg {s : Store} {p : Position} (present : s.Has p) : 0 ≤ p.offset := by
  obtain ⟨_, _, start, _⟩ := present
  exact start

/-- The paths are those of the sizes. -/
theorem paths_eq_map_sizes (s : Store) : s.paths = s.sizes.map Prod.fst := by
  simp [paths, sizes, reading, Function.comp_def]

/-- A byte of the store is one of a file of the store. -/
theorem Has.file_mem_paths {s : Store} {p : Position} (present : s.Has p) : p.file ∈ s.paths := by
  obtain ⟨size, sized, _⟩ := present
  obtain ⟨front, back, split, _⟩ := List.lookup_eq_some_iff.mp sized
  rw [paths_eq_map_sizes, split]
  simp

/-- Stores with one reading have files of the same sizes. -/
theorem sizes_congr {s t : Store} (same : s.reading = t.reading) : s.sizes = t.sizes := by
  unfold sizes
  rw [same]

/-- Stores with one reading have the same paths. -/
theorem paths_congr {s t : Store} (same : s.reading = t.reading) : s.paths = t.paths := by
  rw [paths_eq_map_sizes, paths_eq_map_sizes, sizes_congr same]

/-- The files by their bytes with all marks. -/
def buffers (s : Store) : List (Path × Array UInt8) :=
  s.files.map fun (path, f) => (path, f.buffer.toArray)

/-- Make marks, one after the other. -/
def markAll (s : Store) (marks : List Mark) : Store :=
  marks.foldl (fun s m => s.mark m.position m.count m.bits) s

/-- The marks of two lists are made in their order. -/
theorem markAll_append (s : Store) (left right : List Mark) :
    s.markAll (left ++ right) = (s.markAll left).markAll right :=
  List.foldl_append

/-- The reading has the part of every file. -/
theorem lookup_reading (s : Store) (path : Path) :
    s.reading.lookup path = (s.file? path).map File.reading :=
  lookup_mapValues File.reading s.files path

/-- The sizes are those of the files, one by one. -/
theorem sizes_eq_map (s : Store) : s.sizes = s.files.map fun (path, f) => (path, f.size) := by
  simp [sizes, reading, File.reading, Function.comp_def]

/-- The sizes are those of the files. -/
theorem lookup_sizes (s : Store) (path : Path) :
    s.sizes.lookup path = (s.file? path).map File.size := by
  unfold sizes
  rw [lookup_mapValues Prod.fst, lookup_reading, Option.map_map]
  rfl

/-- Stores with one reading have the same paths, with files of one reading. -/
theorem file?_congr {s t : Store} (same : s.reading = t.reading) (path : Path) :
    (s.file? path = none ∧ t.file? path = none) ∨
      ∃ f g, s.file? path = some f ∧ t.file? path = some g ∧ f.reading = g.reading := by
  have files : (s.file? path).map File.reading = (t.file? path).map File.reading := by
    rw [← lookup_reading, ← lookup_reading, same]
  cases left : s.file? path with
  | none =>
    rw [left, Option.map_none, eq_comm, Option.map_eq_none_iff] at files
    exact .inl ⟨rfl, files⟩
  | some f =>
    rw [left, Option.map_some, eq_comm, Option.map_eq_some_iff] at files
    obtain ⟨g, right, readings⟩ := files
    exact .inr ⟨f, g, rfl, right, readings.symm⟩

/-- Stores with one reading have the same loaded bytes. -/
theorem loadedAt_congr {s t : Store} (same : s.reading = t.reading) (p : Position) :
    s.loadedAt p = t.loadedAt p := by
  unfold loadedAt
  rcases file?_congr same p.file with ⟨left, right⟩ | ⟨f, g, left, right, files⟩
  · rw [left, right]
  · rw [left, right]
    exact File.loadedByte_congr files _

/-- Two stores have files of the same sizes, and the same bytes were last read from them. -/
structure ReadAlike (s t : Store) : Prop where
  /-- The paths are the same, and so are the sizes. -/
  sizes : ∀ path, (s.file? path).map File.size = (t.file? path).map File.size
  /-- The loaded bytes are the same. -/
  loaded : ∀ p, s.loadedAt p = t.loadedAt p

/-- Stores with one reading were read alike. -/
theorem ReadAlike.of_reading {s t : Store} (same : s.reading = t.reading) : s.ReadAlike t where
  sizes := by
    intro path
    rw [← lookup_sizes, ← lookup_sizes, Store.sizes, Store.sizes, same]
  loaded := loadedAt_congr same

/-- Being read alike is mutual. -/
theorem ReadAlike.symm {s t : Store} (alike : s.ReadAlike t) : t.ReadAlike s :=
  ⟨fun path => (alike.sizes path).symm, fun p => (alike.loaded p).symm⟩

/-- Being read alike is passed on. -/
theorem ReadAlike.trans {s t u : Store} (alike : s.ReadAlike t) (behind : t.ReadAlike u) :
    s.ReadAlike u :=
  ⟨fun path => (alike.sizes path).trans (behind.sizes path),
    fun p => (alike.loaded p).trans (behind.loaded p)⟩

/-- Stores that were read alike have the same paths, with files of one size and the same loaded
bytes. -/
theorem ReadAlike.files {s t : Store} (alike : s.ReadAlike t) (path : Path) :
    (s.file? path = none ∧ t.file? path = none) ∨
      ∃ f g, s.file? path = some f ∧ t.file? path = some g ∧ f.size = g.size ∧
        ∀ offset, f.loadedByte offset = g.loadedByte offset := by
  have sizes := alike.sizes path
  cases left : s.file? path with
  | none =>
    rw [left, Option.map_none, eq_comm, Option.map_eq_none_iff] at sizes
    exact .inl ⟨rfl, sizes⟩
  | some f =>
    rw [left, Option.map_some, eq_comm, Option.map_eq_some_iff] at sizes
    obtain ⟨g, right, size⟩ := sizes
    refine .inr ⟨f, g, rfl, right, size.symm, ?_⟩
    intro offset
    have bytes := alike.loaded ⟨path, offset⟩
    unfold loadedAt at bytes
    rw [left, right] at bytes
    exact bytes

/-- Only the file of one path changes. -/
theorem lookup_updateFile (path other : Path) (change : File → File) (files : List (Path × File)) :
    (updateFile path change files).lookup other =
      if other = path then (files.lookup other).map change else files.lookup other := by
  induction files with
  | nil => simp [updateFile]
  | cons entry rest ih =>
    obtain ⟨p, f⟩ := entry
    simp only [updateFile]
    by_cases here : p = path
    · subst here
      rw [if_pos rfl, List.lookup_cons, List.lookup_cons]
      by_cases same : other = p
      · simp [same]
      · have differs : (other == p) = false := beq_false_of_ne same
        simp [differs, same]
    · rw [if_neg here, List.lookup_cons, List.lookup_cons, ih]
      by_cases same : other = p
      · subst same
        simp [here]
      · have differs : (other == p) = false := beq_false_of_ne same
        simp [differs]

/-- A change that keeps the readings of files keeps that of the store. -/
theorem map_reading_updateFile (path : Path) {change : File → File}
    (keeps : ∀ f : File, (change f).reading = f.reading) (files : List (Path × File)) :
    (updateFile path change files).map (fun (p, f) => (p, f.reading)) =
      files.map fun (p, f) => (p, f.reading) := by
  induction files with
  | nil => rfl
  | cons entry rest ih =>
    obtain ⟨p, f⟩ := entry
    simp only [updateFile]
    split
    · simp [keeps]
    · simp only [List.map_cons, ih]

/-- A mark leaves the reading of a store alone. -/
@[simp] theorem reading_mark (s : Store) (p : Position) (count : Nat) (mask : Mask) :
    (s.mark p count mask).reading = s.reading :=
  map_reading_updateFile p.file (fun f => File.reading_markRange f _ mask count) s.files

/-- Marks leave the reading of a store alone. -/
@[simp] theorem reading_markAll (s : Store) (marks : List Mark) :
    (s.markAll marks).reading = s.reading := by
  induction marks generalizing s with
  | nil => rfl
  | cons m rest ih =>
    have first := reading_mark s m.position m.count m.bits
    rw [← first]
    exact ih _

/-- A store with the same reading has the same bytes. -/
theorem has_congr {s t : Store} (same : s.reading = t.reading) (p : Position) :
    s.Has p ↔ t.Has p := by
  unfold Has sizes
  rw [same]

/-- A mark adds its bits to the bytes that it reaches and leaves the others alone. -/
theorem byteAt_mark {s : Store} {q : Position} (present : s.Has q) (m : Mark) :
    (s.mark m.position m.count m.bits).byteAt q =
      if m.Reaches q then s.byteAt q ||| m.bits else s.byteAt q := by
  obtain ⟨size, sized, start, stop⟩ := present
  rw [lookup_sizes, Option.map_eq_some_iff] at sized
  obtain ⟨f, found, rfl⟩ := sized
  have inside : q.offset.toNat < f.size := by omega
  have marked : (s.mark m.position m.count m.bits).file? q.file =
      if q.file = m.position.file then
        some (f.markRange m.position.offset.toNat m.bits m.count)
      else some f := by
    unfold mark file?
    rw [lookup_updateFile, show s.files.lookup q.file = some f from found]
    rfl
  have before : s.byteAt q = f.byte q.offset.toNat := by
    unfold byteAt
    rw [found]
  rw [before]
  unfold byteAt Mark.Reaches
  rw [marked]
  by_cases here : q.file = m.position.file
  · rw [if_pos here]
    simp only [File.byte_markRange, here, inside, and_true, true_and]
  · simp only [here, if_false, false_and]

/-- Marks add their bits to a byte of the store. -/
theorem byteAt_markAll {s : Store} {q : Position} (present : s.Has q) (marks : List Mark) :
    (s.markAll marks).byteAt q = s.byteAt q ||| Mark.bitsAt marks q := by
  induction marks generalizing s with
  | nil => simp [markAll, Mark.bitsAt]
  | cons m rest ih =>
    have later := (has_congr (reading_mark s m.position m.count m.bits) q).mpr present
    have step := ih later
    simp only [markAll, List.foldl_cons] at step ⊢
    rw [step, byteAt_mark present]
    simp only [Mark.bitsAt, List.foldr_cons]
    split
    · rw [UInt8.or_assoc]
    · rfl

/-- Claims and marks are apart: marks leave the claims alone and do not look at them. -/
theorem markAll_with_claims (s : Store) (claims : Registry Position) (marks : List Mark) :
    ({ s with claims } : Store).markAll marks = { s.markAll marks with claims } := by
  induction marks generalizing s with
  | nil => rfl
  | cons m rest ih => exact ih (s.mark m.position m.count m.bits)

/-- Stores with the same buffers have the same bytes. -/
theorem byteAt_congr {s t : Store} (same : s.buffers = t.buffers) (p : Position) :
    s.byteAt p = t.byteAt p := by
  have byte : ∀ store : Store, store.byteAt p =
      ((store.buffers.lookup p.file).map (·.getD p.offset.toNat 0)).getD 0 := by
    intro store
    unfold buffers
    rw [lookup_mapValues fun f : File => f.buffer.toArray]
    unfold byteAt file?
    cases store.files.lookup p.file <;> rfl
  rw [byte, byte, same]

/-- Files of the same sizes whose bytes agree path by path have the same buffers. -/
theorem map_buffer_eq {files others : List (Path × File)}
    (same : files.map (fun (p, f) => (p, f.size)) = others.map fun (p, f) => (p, f.size))
    (unique : (files.map Prod.fst).Nodup)
    (agree : ∀ path f g, files.lookup path = some f → others.lookup path = some g →
      f.buffer.toArray = g.buffer.toArray) :
    files.map (fun (p, f) => (p, f.buffer.toArray)) =
      others.map fun (p, f) => (p, f.buffer.toArray) := by
  induction files generalizing others with
  | nil =>
    cases others with
    | nil => rfl
    | cons => simp at same
  | cons entry rest ih =>
    cases others with
    | nil => simp at same
    | cons other others =>
      obtain ⟨p, f⟩ := entry
      obtain ⟨q, g⟩ := other
      simp only [List.map_cons, List.cons.injEq, Prod.mk.injEq] at same
      obtain ⟨⟨rfl, _⟩, tails⟩ := same
      rw [List.map_cons, List.nodup_cons] at unique
      have heads : f.buffer.toArray = g.buffer.toArray :=
        agree p f g (List.lookup_cons_self) (List.lookup_cons_self)
      have behind : ∀ path f' g', rest.lookup path = some f' → others.lookup path = some g' →
          f'.buffer.toArray = g'.buffer.toArray := by
        intro path f' g' found found'
        have differs : (path == p) = false := by
          apply beq_false_of_ne
          rintro rfl
          apply unique.1
          obtain ⟨front, back, split, _⟩ := List.lookup_eq_some_iff.mp found
          exact List.mem_map.mpr ⟨(path, f'), by simp [split], rfl⟩
        apply agree path f' g'
        · rw [List.lookup_cons, differs, found]
        · rw [List.lookup_cons, differs, found']
      rw [List.map_cons, List.map_cons, ih tails unique.2 behind]
      simp [heads]

/-- Stores with the same sizes that agree on every byte have the same buffers. -/
theorem buffers_eq {s t : Store} (same : s.sizes = t.sizes) (unique : s.paths.Nodup)
    (agree : ∀ q, s.Has q → s.byteAt q = t.byteAt q) : s.buffers = t.buffers := by
  rw [sizes_eq_map, sizes_eq_map] at same
  apply map_buffer_eq same unique
  intro path f g found found'
  have here : s.file? path = some f := found
  have there : t.file? path = some g := found'
  have sized : s.sizes.lookup path = some f.size := by
    rw [lookup_sizes, here]
    rfl
  have sizes : f.size = g.size := by
    have other := sized
    rw [sizes_eq_map, same, ← sizes_eq_map, lookup_sizes, there] at other
    exact (Option.some.inj other).symm
  apply Array.ext
  · simp [sizes]
  · intro i left right
    have inside : i < f.size := by simpa using left
    have inside' : i < g.size := by simpa using right
    have present : s.Has ⟨path, i⟩ :=
      ⟨f.size, sized, Int.natCast_nonneg i, Int.ofNat_lt.mpr inside⟩
    have bytes := agree ⟨path, i⟩ present
    simp only [byteAt, here, there, File.byte, Int.toNat_natCast] at bytes
    simpa [inside, inside'] using bytes

end Store

end BankTrace.Cdl
