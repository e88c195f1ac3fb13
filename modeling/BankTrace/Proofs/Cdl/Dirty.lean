import BankTrace.Proofs.Cdl.Marks

/-!
# What marks change

A mark changes a byte when it has a bit that the byte lacks, and the byte is dirty from then on. So
a byte that is not dirty is the one that was last read or written, and marks that have been made
before change neither bytes nor what is dirty.
-/

namespace BankTrace.Cdl

/-- A byte that has all bits of a union has those of its first part. -/
theorem or_eq_self_of_or_or {byte left right : UInt8} (marked : byte ||| (left ||| right) = byte) :
    byte ||| left = byte :=
  calc byte ||| left = byte ||| (left ||| right) ||| left := by rw [marked]
    _ = byte ||| (left ||| right) := by
      rw [UInt8.or_assoc, UInt8.or_comm (left ||| right), ← UInt8.or_assoc left, UInt8.or_self]
    _ = byte := marked

/-- A byte that has all bits of a union has those of its second part. -/
theorem or_eq_self_of_or_or' {byte left right : UInt8} (marked : byte ||| (left ||| right) = byte) :
    byte ||| right = byte :=
  or_eq_self_of_or_or (by rw [UInt8.or_comm right]; exact marked)

/-- A byte that has the only bit of a mask has all its bits. -/
theorem or_eq_self_of_hasAny {byte bit : UInt8} {i : Nat}
    (single : bit.toBitVec = BitVec.twoPow 8 i) (marked : hasAny bit byte = true) :
    byte ||| bit = byte := by
  unfold hasAny at marked
  rw [bne_iff_ne, ne_eq, ← UInt8.toBitVec_inj, UInt8.toBitVec_and, single,
    BitVec.and_twoPow] at marked
  rw [← UInt8.toBitVec_inj, UInt8.toBitVec_or, single]
  by_cases set : byte.toBitVec.getLsbD i = true
  · apply BitVec.eq_of_getLsbD_eq
    intro j inside
    rw [BitVec.getLsbD_or, BitVec.getLsbD_twoPow]
    grind
  · rw [if_neg set] at marked
    exact absurd rfl marked

/-- A byte that has all bits of every mark that reaches it has those of all marks together. -/
theorem Mark.or_bitsAt_eq_self {byte : UInt8} {marks : List Mark} {q : Position}
    (each : ∀ m ∈ marks, m.Reaches q → byte ||| m.bits = byte) :
    byte ||| bitsAt marks q = byte := by
  induction marks with
  | nil => exact UInt8.or_zero
  | cons m rest ih =>
    have others := ih fun m member => each m (List.mem_cons_of_mem _ member)
    rw [bitsAt, List.foldr_cons]
    by_cases reached : m.Reaches q
    · rw [if_pos reached, ← UInt8.or_assoc, each m List.mem_cons_self reached]
      exact others
    · rw [if_neg reached]
      exact others

namespace File

/-- The byte at an offset is dirty; behind the end there is none. -/
def isDirtyAt (f : File) (offset : Nat) : Bool := f.dirty.toArray.getD offset false

/-- A file is dirty when one of its bytes is. -/
theorem isDirty_eq_true_iff {f : File} :
    f.isDirty = true ↔ ∃ offset, f.isDirtyAt offset = true := by
  unfold isDirty isDirtyAt
  rw [Vector.any_eq_true]
  constructor
  · rintro ⟨i, inside, dirty⟩
    exact ⟨i, by simpa [inside] using dirty⟩
  · rintro ⟨i, dirty⟩
    by_cases inside : i < f.size
    · exact ⟨i, inside, by simpa [inside] using dirty⟩
    · simp [inside] at dirty

/-- A mark whose bits the byte has changes nothing. -/
theorem mark_eq_self {f : File} {offset : Nat} {mask : Mask}
    (marked : offset < f.size → f.byte offset ||| mask = f.byte offset) :
    f.mark offset mask = f := by
  obtain ⟨size, buffer, dirty, loaded⟩ := f
  simp only [mark]
  by_cases inside : offset < size
  · have same : buffer[offset] ||| mask = buffer[offset] := by
      simpa [byte, inside] using marked inside
    rw [dif_pos inside, if_pos same]
  · rw [dif_neg inside]

/-- A stretch of marks whose bits the bytes have changes nothing. -/
theorem markRange_eq_self {f : File} {offset count : Nat} {mask : Mask}
    (marked : ∀ i, offset ≤ i → i < offset + count → i < f.size →
      f.byte i ||| mask = f.byte i) :
    f.markRange offset mask count = f := by
  induction count generalizing offset with
  | zero => rfl
  | succ count ih =>
    have first : f.mark offset mask = f :=
      mark_eq_self fun inside => marked offset (Nat.le_refl _) (by omega) inside
    rw [markRange, first]
    exact ih fun i lower upper inside => marked i (by omega) (by omega) inside

/-- A byte that a mark leaves clean was clean, and the mark left it alone. -/
theorem byte_of_clean_mark {f : File} {offset i : Nat} {mask : Mask}
    (clean : (f.mark offset mask).isDirtyAt i = false) :
    f.isDirtyAt i = false ∧ (f.mark offset mask).byte i = f.byte i := by
  obtain ⟨size, buffer, dirty, loaded⟩ := f
  simp only [mark] at clean ⊢
  by_cases inside : offset < size
  · rw [dif_pos inside] at clean ⊢
    by_cases same : buffer[offset] ||| mask = buffer[offset]
    · rw [if_pos same] at clean ⊢
      exact ⟨clean, rfl⟩
    · rw [if_neg same] at clean ⊢
      have other : offset ≠ i := by
        rintro rfl
        simp [isDirtyAt, inside] at clean
      refine ⟨?_, ?_⟩
      · simpa [isDirtyAt, other] using clean
      · simp [byte, other]
  · rw [dif_neg inside] at clean ⊢
    exact ⟨clean, rfl⟩

/-- A byte that a stretch of marks leaves clean was clean, and the marks left it alone. -/
theorem byte_of_clean_markRange {f : File} {offset i count : Nat} {mask : Mask}
    (clean : (f.markRange offset mask count).isDirtyAt i = false) :
    f.isDirtyAt i = false ∧ (f.markRange offset mask count).byte i = f.byte i := by
  induction count generalizing f offset with
  | zero => exact ⟨clean, rfl⟩
  | succ count ih =>
    rw [markRange] at clean ⊢
    obtain ⟨behind, bytes⟩ := ih clean
    obtain ⟨first, byte⟩ := byte_of_clean_mark behind
    exact ⟨first, bytes.trans byte⟩

end File

namespace Store

/-- The byte at a position is dirty; outside the files there is none. -/
def dirtyAt (s : Store) (p : Position) : Bool :=
  match s.file? p.file with
  | some f => f.isDirtyAt p.offset.toNat
  | none => false

/-- A change that leaves the file of the path alone changes nothing. -/
theorem updateFile_eq_self {path : Path} {change : File → File} {files : List (Path × File)}
    (stays : ∀ f, files.lookup path = some f → change f = f) :
    updateFile path change files = files := by
  induction files with
  | nil => rfl
  | cons entry rest ih =>
    obtain ⟨p, f⟩ := entry
    rw [updateFile]
    by_cases here : p = path
    · subst here
      rw [if_pos rfl, stays f List.lookup_cons_self]
    · have differs : (path == p) = false := beq_false_of_ne (Ne.symm here)
      rw [if_neg here, ih]
      intro g found
      apply stays
      rw [List.lookup_cons, differs, found]

/-- The file that a mark leaves at a path. -/
theorem file?_mark (s : Store) (p : Position) (count : Nat) (mask : Mask) (path : Path) :
    (s.mark p count mask).file? path =
      if path = p.file then (s.file? path).map (·.markRange p.offset.toNat mask count)
      else s.file? path :=
  lookup_updateFile p.file path _ s.files

/-- A mark whose bits all bytes that it reaches have changes nothing. -/
theorem mark_eq_self {s : Store} {m : Mark}
    (marked : ∀ q, s.Has q → m.Reaches q → s.byteAt q ||| m.bits = s.byteAt q) :
    s.mark m.position m.count m.bits = s := by
  have files : updateFile m.position.file
      (·.markRange m.position.offset.toNat m.bits m.count) s.files = s.files := by
    apply updateFile_eq_self
    intro f found
    apply File.markRange_eq_self
    intro i lower upper inside
    have here : s.file? m.position.file = some f := found
    have present : s.Has ⟨m.position.file, i⟩ := by
      refine ⟨f.size, ?_, Int.natCast_nonneg i, Int.ofNat_lt.mpr inside⟩
      rw [lookup_sizes, here]
      rfl
    have bits := marked ⟨m.position.file, i⟩ present ⟨rfl, lower, upper⟩
    simpa only [byteAt, here, Int.toNat_natCast] using bits
  unfold mark
  rw [files]

/-- Marks whose bits all bytes of a store have change nothing. -/
theorem markAll_eq_self {s : Store} {marks : List Mark}
    (marked : ∀ q, s.Has q → s.byteAt q ||| Mark.bitsAt marks q = s.byteAt q) :
    s.markAll marks = s := by
  induction marks with
  | nil => rfl
  | cons m rest ih =>
    have first : s.mark m.position m.count m.bits = s := by
      apply mark_eq_self
      intro q present reached
      have bits := marked q present
      rw [Mark.bitsAt, List.foldr_cons, if_pos reached] at bits
      exact or_eq_self_of_or_or bits
    rw [markAll, List.foldl_cons, first]
    apply ih
    intro q present
    have bits := marked q present
    rw [Mark.bitsAt, List.foldr_cons] at bits
    split at bits
    · exact or_eq_self_of_or_or' bits
    · exact bits

/-- Marks that have just been made change nothing when they are made again. -/
theorem markAll_markAll (s : Store) (marks : List Mark) :
    (s.markAll marks).markAll marks = s.markAll marks := by
  apply markAll_eq_self
  intro q present
  have before := (has_congr (reading_markAll s marks) q).mp present
  rw [byteAt_markAll before, UInt8.or_assoc, UInt8.or_self]

/-- A byte that a mark leaves clean was clean, and the mark left it alone. -/
theorem byteAt_of_clean_mark {s : Store} {p q : Position} {count : Nat} {mask : Mask}
    (clean : (s.mark p count mask).dirtyAt q = false) :
    s.dirtyAt q = false ∧ (s.mark p count mask).byteAt q = s.byteAt q := by
  unfold dirtyAt byteAt at *
  rw [file?_mark] at clean ⊢
  by_cases here : q.file = p.file
  · rw [if_pos here] at clean ⊢
    cases found : s.file? q.file with
    | none => exact ⟨rfl, rfl⟩
    | some f =>
      rw [found] at clean
      exact File.byte_of_clean_markRange clean
  · rw [if_neg here] at clean ⊢
    exact ⟨clean, rfl⟩

/-- A byte that marks leave clean was clean, and the marks left it alone. -/
theorem byteAt_of_clean_markAll {s : Store} {marks : List Mark} {q : Position}
    (clean : (s.markAll marks).dirtyAt q = false) :
    s.dirtyAt q = false ∧ (s.markAll marks).byteAt q = s.byteAt q := by
  induction marks generalizing s with
  | nil => exact ⟨clean, rfl⟩
  | cons m rest ih =>
    obtain ⟨behind, bytes⟩ := ih clean
    obtain ⟨first, byte⟩ := byteAt_of_clean_mark behind
    exact ⟨first, bytes.trans byte⟩

end Store

end BankTrace.Cdl
