import BankTrace.Proofs.Cdl.Account

/-!
# Marks in any order

Marks that are made in another order leave the same files. The bytes are the same because a byte
gets the union of the bits that reach it. The dirty bytes are the same because a byte is dirty when
it was before or when it differs from what it was, however many marks have had a part in that.
-/

namespace BankTrace.Cdl

/-- Bits that are added in two steps change a byte when one of the steps does. -/
theorem or_or_ne_iff {byte left right : UInt8} :
    byte ||| left ||| right ≠ byte ↔
      byte ||| left ≠ byte ∨ byte ||| left ||| right ≠ byte ||| left := by
  constructor
  · intro changed
    by_contra same
    rw [not_or, not_not, not_not] at same
    exact changed (same.2.trans same.1)
  · rintro (first | second) same
    · rw [UInt8.or_assoc] at same
      exact first (or_eq_self_of_or_or same)
    · have all : byte ||| (left ||| right) = byte := by rw [← UInt8.or_assoc, same]
      rw [same, or_eq_self_of_or_or all] at second
      exact second rfl

/-- The bits of two lists of marks are those of each. -/
theorem Mark.bitsAt_append (left right : List Mark) (q : Position) :
    bitsAt (left ++ right) q = bitsAt left q ||| bitsAt right q := by
  induction left with
  | nil => exact UInt8.zero_or.symm
  | cons m rest ih =>
    simp only [List.cons_append, bitsAt, List.foldr_cons] at ih ⊢
    rw [ih]
    split
    · rw [UInt8.or_assoc]
    · rfl

/-- The bits of several lists of marks are the union of those of each. -/
theorem Mark.bitsAt_flatMap {α : Type} (marks : α → List Mark) (list : List α) (q : Position) :
    bitsAt (list.flatMap marks) q =
      (list.map fun x => bitsAt (marks x) q).foldr (· ||| ·) 0 := by
  induction list with
  | nil => rfl
  | cons x rest ih => rw [List.flatMap_cons, bitsAt_append, ih, List.map_cons, List.foldr_cons]

namespace File

/-- A file in memory has got bits: its bytes have them added, and those that they change are dirty
beside those that were. -/
structure Gains (bits : Nat → UInt8) (before after : File) : Prop where
  /-- What was last read is the same. -/
  reading : after.reading = before.reading
  /-- The bits are added. -/
  byte : ∀ i, after.byte i = before.byte i ||| bits i
  /-- The changed bytes are dirty, and so are those that were. -/
  dirty : ∀ i, after.isDirtyAt i = true ↔
    before.isDirtyAt i = true ∨ after.byte i ≠ before.byte i

/-- A file gets no bits by staying what it is. -/
theorem Gains.refl (f : File) : Gains (fun _ => 0) f f where
  reading := rfl
  byte := fun _ => UInt8.or_zero.symm
  dirty := by simp

/-- Bits that are got one after the other are got together. -/
theorem Gains.trans {bits others : Nat → UInt8} {f g h : File} (first : Gains bits f g)
    (second : Gains others g h) : Gains (fun i => bits i ||| others i) f h where
  reading := second.reading.trans first.reading
  byte := by
    intro i
    rw [second.byte, first.byte, UInt8.or_assoc]
  dirty := by
    intro i
    rw [second.dirty, first.dirty, or_assoc, second.byte, first.byte]
    exact or_congr_right or_or_ne_iff.symm

/-- What a file becomes by getting bits is fixed by the bits. -/
theorem Gains.unique {bits : Nat → UInt8} {f g h : File} (first : Gains bits f g)
    (second : Gains bits f h) : g = h := by
  obtain ⟨size, buffer, changed, loaded⟩ := g
  obtain ⟨size', buffer', changed', loaded'⟩ := h
  obtain ⟨sizes, texts⟩ := Prod.mk.inj (first.reading.trans second.reading.symm)
  dsimp only at sizes texts
  subst sizes
  have bytes : ∀ i, File.byte ⟨size, buffer, changed, loaded⟩ i =
      File.byte ⟨size, buffer', changed', loaded'⟩ i := by
    intro i
    rw [first.byte, second.byte]
  have dirty : ∀ i, isDirtyAt ⟨size, buffer, changed, loaded⟩ i =
      isDirtyAt ⟨size, buffer', changed', loaded'⟩ i := by
    intro i
    rw [Bool.eq_iff_iff, first.dirty, second.dirty, bytes]
  have buffers : buffer = buffer' := by
    apply Vector.ext
    intro i inside
    simpa [File.byte, inside] using bytes i
  have changes : changed = changed' := by
    apply Vector.ext
    intro i inside
    simpa [isDirtyAt, inside] using dirty i
  have loads : loaded = loaded' :=
    Option.map_injective (fun _ _ => Vector.toArray_inj.mp) texts
  rw [buffers, changes, loads]

/-- The bits that a stretch of marks has for the bytes of a file of some size. -/
def stretchBits (size offset : Nat) (mask : Mask) (count i : Nat) : UInt8 :=
  if offset ≤ i ∧ i < offset + count ∧ i < size then mask else 0

/-- A stretch has a first byte and those behind it. -/
theorem stretchBits_succ (size offset count i : Nat) (mask : Mask) :
    stretchBits size offset mask (count + 1) i =
      stretchBits size offset mask 1 i ||| stretchBits size (offset + 1) mask count i := by
  unfold stretchBits
  by_cases first : offset ≤ i ∧ i < offset + 1 ∧ i < size
  · rw [if_pos first, if_pos (by omega), if_neg (by omega), UInt8.or_zero]
  · rw [if_neg first, UInt8.zero_or]
    exact if_congr (by omega) rfl rfl

/-- A mark gives a file its bits. -/
theorem gains_mark (f : File) (offset : Nat) (mask : Mask) :
    Gains (stretchBits f.size offset mask 1) f (f.mark offset mask) where
  reading := f.reading_mark offset mask
  byte := by
    intro i
    have here : (offset ≤ i ∧ i < offset + 1 ∧ i < f.size) ↔ i = offset ∧ i < f.size := by omega
    rw [byte_mark, stretchBits, if_congr here rfl rfl]
    split
    · rfl
    · exact UInt8.or_zero.symm
  dirty := fun i => f.isDirtyAt_mark offset i mask

/-- A stretch of marks gives a file its bits. -/
theorem gains_markRange (f : File) (offset count : Nat) (mask : Mask) :
    Gains (stretchBits f.size offset mask count) f (f.markRange offset mask count) := by
  induction count generalizing f offset with
  | zero =>
    have none : stretchBits f.size offset mask 0 = fun _ => 0 :=
      funext fun i => if_neg (by omega)
    rw [none]
    exact .refl f
  | succ count ih =>
    have others := ih (f.mark offset mask) (offset + 1)
    rw [size_mark] at others
    rw [funext (stretchBits_succ f.size offset count · mask)]
    exact (f.gains_mark offset mask).trans others

/-- Two stretches of marks can be made in either order. -/
theorem markRange_comm (f : File) (offset offset' count count' : Nat) (mask mask' : Mask) :
    (f.markRange offset mask count).markRange offset' mask' count' =
      (f.markRange offset' mask' count').markRange offset mask count := by
  have size : ∀ offset mask count, (f.markRange offset mask count).size = f.size :=
    fun offset mask count => congrArg Prod.fst (f.reading_markRange offset mask count)
  have first := (f.gains_markRange offset count mask).trans
    ((f.markRange offset mask count).gains_markRange offset' count' mask')
  have second := (f.gains_markRange offset' count' mask').trans
    ((f.markRange offset' mask' count').gains_markRange offset count mask)
  rw [size] at first second
  refine first.unique ?_
  rw [show (fun i => stretchBits f.size offset mask count i |||
      stretchBits f.size offset' mask' count' i) = fun i =>
        stretchBits f.size offset' mask' count' i ||| stretchBits f.size offset mask count i from
    funext fun i => UInt8.or_comm ..]
  exact second

end File

namespace Store

/-- Changes of two files can be made in either order, and so can changes of one file that
commute. -/
theorem updateFile_comm {path other : Path} {change change' : File → File}
    (commute : ∀ f, change (change' f) = change' (change f)) (files : List (Path × File)) :
    updateFile path change (updateFile other change' files) =
      updateFile other change' (updateFile path change files) := by
  induction files with
  | nil => rfl
  | cons entry rest ih =>
    obtain ⟨p, f⟩ := entry
    by_cases here : p = path
    · subst here
      by_cases there : p = other
      · subst there
        simp only [updateFile, if_true, commute]
      · simp only [updateFile, if_true, if_neg there]
    · by_cases there : p = other
      · subst there
        simp only [updateFile, if_true, if_neg here]
      · simp only [updateFile, if_neg here, if_neg there, ih]

/-- Two marks can be made in either order. -/
theorem mark_comm (s : Store) (p q : Position) (count count' : Nat) (mask mask' : Mask) :
    (s.mark p count mask).mark q count' mask' = (s.mark q count' mask').mark p count mask := by
  unfold mark
  dsimp only
  rw [updateFile_comm fun f => File.markRange_comm f ..]

/-- Marks in another order leave the same store. -/
theorem markAll_perm {left right : List Mark} (same : left.Perm right) (s : Store) :
    s.markAll left = s.markAll right :=
  same.foldl_eq' (fun m _ n _ s => s.mark_comm m.position n.position m.count n.count ..) s

/-- A store has got bits: the bytes that it has have them added, and those that they change are
dirty beside those that were. -/
structure Gains (bits : Position → UInt8) (before after : Store) : Prop where
  /-- The files are the same, and so is what was last read from them. -/
  reading : after.reading = before.reading
  /-- The bits are added. -/
  byte : ∀ p, before.Has p → after.byteAt p = before.byteAt p ||| bits p
  /-- The changed bytes are dirty, and so are those that were. -/
  dirty : ∀ p, before.Has p → (after.dirtyAt p = true ↔
    before.dirtyAt p = true ∨ after.byteAt p ≠ before.byteAt p)

/-- A store gets no bits by staying what it is. -/
theorem Gains.refl (s : Store) : Gains (fun _ => 0) s s where
  reading := rfl
  byte := fun _ _ => UInt8.or_zero.symm
  dirty := by simp

/-- Bits that are got one after the other are got together. -/
theorem Gains.trans {bits others : Position → UInt8} {s t u : Store} (first : Gains bits s t)
    (second : Gains others t u) : Gains (fun p => bits p ||| others p) s u where
  reading := second.reading.trans first.reading
  byte := by
    intro p present
    rw [second.byte p ((has_congr first.reading p).mpr present), first.byte p present,
      UInt8.or_assoc]
  dirty := by
    intro p present
    have present' := (has_congr first.reading p).mpr present
    rw [second.dirty p present', first.dirty p present, or_assoc, second.byte p present',
      first.byte p present]
    exact or_congr_right or_or_ne_iff.symm

/-- Claims have no part in the bits that a store gets. -/
theorem Gains.of_files {bits : Position → UInt8} {s t u : Store} (gains : Gains bits s t)
    (files : u.files = t.files) : Gains bits s u := by
  obtain ⟨_, claims⟩ := u
  dsimp only at files
  subst files
  exact ⟨gains.reading, gains.byte, gains.dirty⟩

/-- A mark gives a store its bits. -/
theorem gains_mark (s : Store) (m : Mark) :
    s.Gains (Mark.bitsAt [m]) (s.mark m.position m.count m.bits) where
  reading := s.reading_mark m.position m.count m.bits
  byte := fun _ present => byteAt_markAll present [m]
  dirty := by
    intro p _
    unfold dirtyAt byteAt
    rw [file?_mark]
    by_cases here : p.file = m.position.file
    · rw [if_pos here]
      cases s.file? p.file with
      | none => simp
      | some f => exact (f.gains_markRange m.position.offset.toNat m.count m.bits).dirty _
    · rw [if_neg here]
      simp

/-- Marks give a store their bits. -/
theorem gains_markAll (s : Store) (marks : List Mark) :
    s.Gains (Mark.bitsAt marks) (s.markAll marks) := by
  induction marks generalizing s with
  | nil => exact .refl s
  | cons m rest ih =>
    rw [← List.singleton_append, funext (Mark.bitsAt_append [m] rest)]
    exact (s.gains_mark m).trans (ih (s.mark m.position m.count m.bits))

end Store

end BankTrace.Cdl
