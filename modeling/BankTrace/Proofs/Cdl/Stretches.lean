import Mathlib.Tactic.ByContra
import BankTrace.Proofs.Cdl.Marks

/-!
# Stretches

The stretches of a window are the longest ones where a test holds. They are found by one scan that
remembers where the stretch under way began; they come in their order, with a gap between any two.
The stretches of loaded bytes are a matter of what was last read from the file.
-/

namespace BankTrace.Cdl

namespace File

/-- The test holds from the start of the stretch that is under way up to an offset. -/
def Underway (test : Nat → Bool) (offset : Nat) (first : Option Nat) : Prop :=
  ∀ start, first = some start → start < offset ∧ ∀ i, start ≤ i → i < offset → test i = true

/-- The test holds in a stretch of a window, and the stretch cannot be made longer. -/
structure IsStretch (test : Nat → Bool) (lower upper start length : Nat) : Prop where
  /-- The stretch is not empty. -/
  length_pos : 0 < length
  /-- The window begins there or in front of it. -/
  lower_le : lower ≤ start
  /-- The window ends there or behind it. -/
  le_upper : start + length ≤ upper
  /-- The test holds in all of it. -/
  holds : ∀ i, start ≤ i → i < start + length → test i = true
  /-- It does not hold at the offset of the window in front of it. -/
  front : ∀ i, lower ≤ i → i + 1 = start → test i = false
  /-- It does not hold at the offset of the window behind it. -/
  back : start + length < upper → test (start + length) = false

section

variable {test : Nat → Bool} {offset : Nat} {first : Option Nat}

/-- Where no stretch is under way there is nothing to test. -/
theorem underway_none (test : Nat → Bool) (offset : Nat) : Underway test offset none := by
  intro start absurdity
  contradiction

/-- Where the test holds, a stretch goes on or begins. -/
theorem Underway.next (held : Underway test offset first) (here : test offset = true) :
    Underway test (offset + 1) (some (first.getD offset)) := by
  intro begun same
  obtain rfl := Option.some.inj same
  cases first with
  | none =>
    rw [Option.getD_none]
    refine ⟨by omega, ?_⟩
    intro i lower upper
    rw [show i = offset by omega]
    exact here
  | some begun =>
    obtain ⟨before, all⟩ := held begun rfl
    rw [Option.getD_some]
    refine ⟨by omega, ?_⟩
    intro i lower upper
    by_cases last : i = offset
    · rw [last]
      exact here
    · exact all i lower (by omega)

/-- The test holds where a stretch starts. -/
theorem IsStretch.holds_start {lower upper start length : Nat}
    (stretch : IsStretch test lower upper start length) : test start = true :=
  stretch.holds start (Nat.le_refl _) (Nat.lt_add_of_pos_right stretch.length_pos)

/-- Behind an offset where the test does not hold, a window and its rest have the same
stretches. -/
theorem isStretch_succ_iff {lower upper start length : Nat} (inside : lower ≤ offset)
    (here : test offset = false) :
    IsStretch test (offset + 1) upper start length ↔
      IsStretch test lower upper start length ∧ offset < start := by
  constructor
  · intro stretch
    have later := stretch.lower_le
    refine ⟨{ stretch with lower_le := by omega, front := ?_ }, later⟩
    intro i _ before
    by_cases last : i = offset
    · rw [last]
      exact here
    · exact stretch.front i (by omega) before
  · rintro ⟨stretch, later⟩
    refine { stretch with lower_le := later, front := ?_ }
    intro i lower before
    exact stretch.front i (by omega) before

/-- A stretch that begins where the test holds up to an offset, and not there, ends there. -/
theorem isStretch_of_underway {begun upper : Nat} (held : Underway test offset (some begun))
    (here : offset < upper → test offset = false) (inside : offset ≤ upper) (start length : Nat) :
    IsStretch test begun upper start length ∧ start ≤ offset ↔
      start = begun ∧ length = offset - begun := by
  obtain ⟨before, all⟩ := held begun rfl
  constructor
  · rintro ⟨stretch, early⟩
    have nonempty := stretch.length_pos
    have bound := stretch.le_upper
    have start_lt : start < offset := by
      by_contra late
      have same : start = offset := by omega
      have tested := stretch.holds start (Nat.le_refl _) (by omega)
      rw [same, here (by omega)] at tested
      contradiction
    have start_eq : start = begun := by
      by_contra later
      have begins := stretch.lower_le
      have tested := stretch.front (start - 1) (by omega) (by omega)
      rw [all (start - 1) (by omega) (by omega)] at tested
      contradiction
    have stop_le : start + length ≤ offset := by
      by_contra beyond
      have tested := stretch.holds offset (by omega) (by omega)
      rw [here (by omega)] at tested
      contradiction
    have le_stop : offset ≤ start + length := by
      by_contra short
      have tested := stretch.back (by omega)
      rw [all (start + length) (by omega) (by omega)] at tested
      contradiction
    omega
  · rintro ⟨rfl, rfl⟩
    have stop : start + (offset - start) = offset := by omega
    refine ⟨⟨by omega, Nat.le_refl _, by omega, ?_, ?_, ?_⟩, by omega⟩
    · intro i lower below
      exact all i lower (by omega)
    · intro i lower before
      omega
    · rw [stop]
      exact here

/-- The scan finds the stretches of the window. -/
theorem mem_stretches_iff {count : Nat} (held : Underway test offset first) {start length : Nat} :
    (start, length) ∈ stretches test offset first count ↔
      IsStretch test (first.getD offset) (offset + count) start length := by
  induction count generalizing offset first with
  | zero =>
    have nothing : ∀ lower, IsStretch test lower (offset + 0) start length → start ≤ offset := by
      intro lower stretch
      have bound := stretch.le_upper
      omega
    cases first with
    | none =>
      simp only [stretches, List.not_mem_nil, Option.getD_none, false_iff]
      intro stretch
      have nonempty := stretch.length_pos
      have bound := stretch.le_upper
      have begins := stretch.lower_le
      omega
    | some begun =>
      have ended := isStretch_of_underway held (fun below => absurd below (Nat.lt_irrefl _))
        (Nat.le_refl (offset + 0)) start length
      simp only [stretches, List.mem_singleton, Prod.mk.injEq, Option.getD_some, ← ended]
      exact ⟨fun stretch => stretch.1, fun stretch => ⟨stretch, nothing _ stretch⟩⟩
  | succ count ih =>
    have window : offset + (count + 1) = offset + 1 + count := by omega
    unfold stretches
    rw [window]
    by_cases here : test offset = true
    · rw [if_pos here, ih (held.next here), Option.getD_some]
    · rw [if_neg here]
      rw [Bool.not_eq_true] at here
      cases first with
      | none =>
        dsimp only
        rw [ih (underway_none test _), Option.getD_none, Option.getD_none,
          isStretch_succ_iff (Nat.le_refl _) here]
        refine ⟨And.left, fun stretch => ⟨stretch, ?_⟩⟩
        apply Nat.lt_of_le_of_ne stretch.lower_le
        rintro rfl
        rw [stretch.holds_start] at here
        contradiction
      | some begun =>
        have before := (held begun rfl).1
        have inside : offset ≤ offset + 1 + count := by omega
        have ended := isStretch_of_underway held (fun _ => here) inside start length
        dsimp only
        rw [List.mem_cons, ih (underway_none test _), Option.getD_none, Option.getD_some,
          Prod.mk.injEq, ← ended, isStretch_succ_iff (Nat.le_of_lt before) here, ← and_or_left]
        exact ⟨And.left, fun stretch => ⟨stretch, Nat.lt_or_ge offset start |>.symm⟩⟩

/-- The stretches come in their order, and there is a gap between any two. -/
theorem pairwise_stretches (held : Underway test offset first) (count : Nat) :
    (stretches test offset first count).Pairwise fun x y => x.1 + x.2 < y.1 := by
  induction count generalizing offset first with
  | zero =>
    cases first with
    | none => exact List.Pairwise.nil
    | some begun => exact List.pairwise_singleton _ _
  | succ count ih =>
    unfold stretches
    by_cases here : test offset = true
    · rw [if_pos here]
      exact ih (held.next here)
    · rw [if_neg here]
      cases first with
      | none => exact ih (underway_none test _)
      | some begun =>
        have before := (held begun rfl).1
        refine List.pairwise_cons.mpr ⟨?_, ih (underway_none test _)⟩
        rintro ⟨start, length⟩ later
        have begins := ((mem_stretches_iff (underway_none test _)).mp later).lower_le
        rw [Option.getD_none] at begins
        dsimp only
        omega

/-- From an offset where the test holds it holds up to the end of the window or up to an offset
where it does not hold. -/
theorem exists_length {start upper : Nat} (here : test start = true) (inside : start < upper) :
    ∃ length, 0 < length ∧ start + length ≤ upper ∧
      (∀ i, start ≤ i → i < start + length → test i = true) ∧
      (start + length < upper → test (start + length) = false) := by
  obtain ⟨rest, rfl⟩ : ∃ rest, upper = start + 1 + rest := ⟨upper - (start + 1), by omega⟩
  clear inside
  induction rest generalizing start with
  | zero =>
    refine ⟨1, Nat.one_pos, Nat.le_refl _, ?_, fun below => absurd below (Nat.lt_irrefl _)⟩
    intro i lower below
    rw [show i = start by omega]
    exact here
  | succ rest ih =>
    by_cases next : test (start + 1) = true
    · obtain ⟨length, nonempty, bound, all, back⟩ := ih next
      have stop : start + (length + 1) = start + 1 + length := by omega
      refine ⟨length + 1, by omega, by omega, ?_, ?_⟩
      · intro i lower below
        by_cases first : i = start
        · rw [first]
          exact here
        · exact all i (by omega) (by omega)
      · rw [stop]
        intro below
        exact back (by omega)
    · rw [Bool.not_eq_true] at next
      refine ⟨1, Nat.one_pos, by omega, ?_, fun _ => next⟩
      intro i lower below
      rw [show i = start by omega]
      exact here

/-- A stretch starts where the test holds and does not hold in front of it. -/
theorem exists_isStretch {lower upper start : Nat} (begins : lower ≤ start) (inside : start < upper)
    (here : test start = true) (front : ∀ i, lower ≤ i → i + 1 = start → test i = false) :
    ∃ length, IsStretch test lower upper start length := by
  obtain ⟨length, nonempty, bound, all, back⟩ := exists_length here inside
  exact ⟨length, nonempty, begins, bound, all, front, back⟩

/-- Every offset of a window where the test holds lies in a stretch. -/
theorem exists_isStretch_around {lower upper i : Nat} (begins : lower ≤ i) (inside : i < upper)
    (here : test i = true) :
    ∃ start length, IsStretch test lower upper start length ∧ start ≤ i ∧ i < start + length := by
  induction begins with
  | refl =>
    have found := exists_isStretch (Nat.le_refl lower) inside here fun i above next => by omega
    obtain ⟨length, stretch⟩ := found
    exact ⟨lower, length, stretch, Nat.le_refl lower, Nat.lt_add_of_pos_right stretch.length_pos⟩
  | @step i begins ih =>
    by_cases before : test i = true
    · obtain ⟨start, length, stretch, above, below⟩ := ih (by omega) before
      refine ⟨start, length, stretch, by omega, ?_⟩
      -- The stretch in front does not end here, since the test holds here as well.
      by_contra ended
      have stop : start + length = i + 1 := by omega
      have gap := stretch.back (by omega)
      rw [stop, here] at gap
      contradiction
    · have front : ∀ j, lower ≤ j → j + 1 = i + 1 → test j = false := by
        intro j _ next
        have same : j = i := by omega
        rw [same]
        simpa using before
      obtain ⟨length, stretch⟩ := exists_isStretch (Nat.le_succ_of_le begins) inside here front
      exact ⟨i + 1, length, stretch, Nat.le_refl _, Nat.lt_add_of_pos_right stretch.length_pos⟩

/-- No two stretches of a window share an offset. -/
theorem IsStretch.start_eq {lower upper start length start' length' i : Nat}
    (first : IsStretch test lower upper start length)
    (second : IsStretch test lower upper start' length')
    (inside : start ≤ i ∧ i < start + length) (inside' : start' ≤ i ∧ i < start' + length') :
    start = start' := by
  have begins := first.lower_le
  have begins' := second.lower_le
  apply Nat.le_antisymm
  · by_contra later
    have front := first.front (start - 1) (by omega) (by omega)
    rw [second.holds (start - 1) (by omega) (by omega)] at front
    contradiction
  · by_contra later
    have front := second.front (start' - 1) (by omega) (by omega)
    rw [first.holds (start' - 1) (by omega) (by omega)] at front
    contradiction

end

/-! ## Loaded bytes -/

/-- Where a test never holds there are no stretches. -/
theorem stretches_eq_nil {test : Nat → Bool} (never : ∀ i, test i = false) (offset count : Nat) :
    stretches test offset none count = [] := by
  apply List.eq_nil_iff_forall_not_mem.mpr
  rintro ⟨start, length⟩ member
  have held := ((mem_stretches_iff (underway_none test offset)).mp member).holds_start
  rw [never] at held
  contradiction

/-- The loaded stretches are a matter of the loaded bytes, which are zero when none were read. -/
theorem loadedRuns_eq_stretches (f : File) (mask : Mask) (start size : Nat) :
    f.loadedRuns mask start size =
      stretches (fun i => hasAny mask (f.loadedByte i)) start none size := by
  unfold loadedRuns
  cases unread : f.loaded with
  | some bytes => rfl
  | none =>
    dsimp only
    rw [stretches_eq_nil]
    intro i
    unfold loadedByte
    rw [unread]
    exact hasAny_zero mask

end File

namespace Store

/-- Loaded stretches are those of the loaded bytes when the store has the window. -/
theorem loadedRuns_eq (s : Store) (spelt : Path.Spelling) (mask : Mask) (start size : Int) :
    s.loadedRuns spelt mask start size =
      match s.file? spelt.path with
      | none => .error (.read (.unknownFile spelt.text))
      | some f =>
        if start < 0 ∨ start + size > f.size then
          .error (.read (.outsideFile start size spelt.text f.size))
        else .ok (File.stretches (fun i => hasAny mask (s.loadedAt ⟨spelt.path, i⟩)) start.toNat
          none size.toNat) := by
  unfold loadedRuns checkRange file
  cases found : s.file? spelt.path with
  | none => rfl
  | some f =>
    have bytes : ∀ i : Nat, s.loadedAt ⟨spelt.path, i⟩ = f.loadedByte i := by
      intro i
      unfold loadedAt
      rw [found]
      rfl
    by_cases outside : start < 0 ∨ start + size > f.size
    · simp only [bind, Except.bind, outside, if_true]
      rfl
    · simp only [bind, Except.bind, outside, if_false, bytes]
      rw [← File.loadedRuns_eq_stretches]
      rfl

/-- Stores that were read alike have the same loaded stretches. -/
theorem loadedRuns_congr {s t : Store} (alike : s.ReadAlike t) (spelt : Path.Spelling)
    (mask : Mask) (start size : Int) :
    s.loadedRuns spelt mask start size = t.loadedRuns spelt mask start size := by
  rw [loadedRuns_eq, loadedRuns_eq]
  rcases alike.files spelt.path with ⟨left, right⟩ | ⟨f, g, left, right, sizes, bytes⟩
  · rw [left, right]
  · rw [left, right]
    simp only [sizes, alike.loaded]

end Store

end BankTrace.Cdl
