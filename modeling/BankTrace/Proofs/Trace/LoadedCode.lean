import Mathlib.Tactic.ByContra
import BankTrace.Proofs.Cdl.Sizes
import BankTrace.Proofs.Cdl.Stretches
import BankTrace.Proofs.MemoryMap.Resolution
import BankTrace.Trace.Sweep

/-!
# The loaded code

The starts that a sweep recovers lie in mapped banks with an image: one where each stretch of loaded
code begins, and one behind every other as long as the code goes on. They come in ascending order.
They are found in every store that was made for the banks, and they are a matter of what was last
read from the log files: marks that were made since have no say.
-/

namespace BankTrace

namespace LoadedBank

/-- The byte of the log at an offset of the bank was loaded as code. -/
def loadedCode (b : LoadedBank) (store : Cdl.Store) (offset : Nat) : Bool :=
  Cdl.hasAny Cdl.code (store.loadedAt ⟨b.cdl, (b.cdlOffset + offset : Nat)⟩)

/-- The offsets that a sweep from `first` on comes to. -/
inductive Sweeps (b : LoadedBank) (first : Nat) : Nat → Prop
  /-- It begins at the first one. -/
  | start : Sweeps b first first
  /-- It goes on behind the instruction that it finds. -/
  | next {offset : Nat} (swept : Sweeps b first offset) :
    Sweeps b first (offset + Opcode.length (b.byte offset))

/-- An instruction of the loaded code starts at an offset of the bank. -/
inductive IsStart (b : LoadedBank) (code : Nat → Bool) : Nat → Prop
  /-- One starts where code begins. -/
  | first {offset : Nat} (inside : offset < b.size) (coded : code offset = true)
    (front : ∀ i, i + 1 = offset → code i = false) : IsStart b code offset
  /-- One starts behind another one when the code goes on without a gap. -/
  | next {offset : Nat} (begun : IsStart b code offset)
    (inside : offset + Opcode.length (b.byte offset) < b.size)
    (coded : ∀ i, offset ≤ i → i ≤ offset + Opcode.length (b.byte offset) → code i = true) :
    IsStart b code (offset + Opcode.length (b.byte offset))

section

variable {b : LoadedBank} {code : Nat → Bool} {first offset stop : Nat}

/-- A start is an offset of the bank, and its byte is code. -/
theorem IsStart.coded (start : b.IsStart code offset) :
    offset < b.size ∧ code offset = true := by
  cases start with
  | first inside coded front => exact ⟨inside, coded⟩
  | next begun inside coded => exact ⟨inside, coded _ (Nat.le_add_right _ _) (Nat.le_refl _)⟩

/-- A sweep does not go back. -/
theorem Sweeps.le (swept : b.Sweeps first offset) : first ≤ offset := by
  induction swept with
  | start => exact Nat.le_refl _
  | next _ ih => exact Nat.le_add_right_of_le ih

/-- A sweep goes on as one that begins behind its first instruction. -/
theorem sweeps_iff : b.Sweeps first offset ↔
    offset = first ∨ b.Sweeps (first + Opcode.length (b.byte first)) offset := by
  constructor
  · intro swept
    induction swept with
    | start => exact .inl rfl
    | next _ ih =>
      rcases ih with rfl | later
      · exact .inr .start
      · exact .inr later.next
  · rintro (rfl | later)
    · exact .start
    · induction later with
      | start => exact Sweeps.start.next
      | next _ ih => exact ih.next

/-- Of two offsets that a sweep comes to, the later one is one that a sweep from the earlier one
comes to. -/
theorem Sweeps.of_le {later : Nat} (swept : b.Sweeps first offset) (swept' : b.Sweeps first later)
    (order : offset ≤ later) : b.Sweeps offset later := by
  induction swept with
  | start => exact swept'
  | @next offset _ ih =>
    have nonempty := Opcode.length_pos (b.byte offset)
    have earlier := ih (by omega)
    cases sweeps_iff.mp earlier with
    | inl same => omega
    | inr behind => exact behind

/-- A sweep comes to nothing between the first byte of an instruction and its end. -/
theorem Sweeps.end_le {later : Nat} (swept : b.Sweeps first offset) (swept' : b.Sweeps first later)
    (order : offset < later) : offset + Opcode.length (b.byte offset) ≤ later := by
  have behind := swept.of_le swept' (Nat.le_of_lt order)
  cases sweeps_iff.mp behind with
  | inl same => omega
  | inr next => exact next.le

/-- A sweep lists the addresses of the offsets that it comes to before its end. -/
theorem mem_sweep_iff {addr : Int} : addr ∈ b.sweep first stop ↔
    ∃ offset, b.Sweeps first offset ∧ offset < stop ∧ addr = ((b.start + offset : Nat) : Int) := by
  fun_induction sweep b first stop with
  | case1 first inside ih =>
    rw [List.mem_cons, ih]
    constructor
    · rintro (here | ⟨offset, swept, before, address⟩)
      · exact ⟨first, .start, inside, here⟩
      · exact ⟨offset, sweeps_iff.mpr (.inr swept), before, address⟩
    · rintro ⟨offset, swept, before, address⟩
      rcases sweeps_iff.mp swept with rfl | later
      · exact .inl address
      · exact .inr ⟨offset, later, before, address⟩
  | case2 first ended =>
    simp only [List.not_mem_nil, false_iff]
    rintro ⟨offset, swept, before, _⟩
    have begins := swept.le
    omega

/-- A sweep lists its addresses in ascending order. -/
theorem pairwise_sweep (b : LoadedBank) (first stop : Nat) :
    (b.sweep first stop).Pairwise (· < ·) := by
  fun_induction sweep b first stop with
  | case1 first inside ih =>
    refine List.pairwise_cons.mpr ⟨?_, ih⟩
    intro addr later
    obtain ⟨offset, swept, _, rfl⟩ := mem_sweep_iff.mp later
    have begins := swept.le
    have nonempty := Opcode.length_pos (b.byte first)
    omega
  | case2 => exact List.Pairwise.nil

/-- What a sweep comes to inside a stretch of code are starts. -/
theorem Sweeps.isStart {length : Nat} (swept : b.Sweeps first offset)
    (stretch : Cdl.File.IsStretch code 0 b.size first length) (before : offset < first + length) :
    b.IsStart code offset := by
  have bound := stretch.le_upper
  induction swept with
  | start =>
    exact .first (by omega) stretch.holds_start fun i next => stretch.front i (Nat.zero_le i) next
  | next swept ih =>
    have begins := swept.le
    refine .next (ih (by omega)) (by omega) ?_
    intro i lower upper
    exact stretch.holds i (by omega) (by omega)

/-- Every start is one that a sweep of a stretch of code comes to. -/
theorem IsStart.exists_sweeps (start : b.IsStart code offset) :
    ∃ first length, Cdl.File.IsStretch code 0 b.size first length ∧ b.Sweeps first offset ∧
      offset < first + length := by
  induction start with
  | @first offset inside coded front =>
    obtain ⟨length, stretch⟩ :=
      Cdl.File.exists_isStretch (Nat.zero_le offset) inside coded fun i _ next => front i next
    exact ⟨offset, length, stretch, .start, Nat.lt_add_of_pos_right stretch.length_pos⟩
  | @next offset _ inside coded ih =>
    obtain ⟨first, length, stretch, swept, before⟩ := ih
    refine ⟨first, length, stretch, swept.next, ?_⟩
    by_contra ended
    have bound := stretch.le_upper
    have gap := stretch.back (by omega)
    rw [coded (first + length) (by omega) (by omega)] at gap
    contradiction

/-- Inside a stretch of code, what starts is what a sweep of the stretch comes to. -/
theorem isStart_iff_sweeps {length : Nat}
    (stretch : Cdl.File.IsStretch code 0 b.size first length) (begins : first ≤ offset)
    (before : offset < first + length) : b.IsStart code offset ↔ b.Sweeps first offset := by
  constructor
  · intro start
    obtain ⟨first', length', stretch', swept, before'⟩ := start.exists_sweeps
    have same := stretch'.start_eq stretch ⟨swept.le, before'⟩ ⟨begins, before⟩
    rw [← same]
    exact swept
  · intro swept
    exact swept.isStart stretch before

end

/-- Instructions of a bank tile its code: each byte of code belongs to exactly one of them, and all
their bytes are code. -/
structure Tiles (b : LoadedBank) (code : Nat → Bool) (starts : Nat → Prop) : Prop where
  /-- Every instruction ends in the bank. -/
  fits : ∀ offset, starts offset → offset + Opcode.length (b.byte offset) ≤ b.size
  /-- The code consists of the bytes of the instructions. -/
  code_iff : ∀ i < b.size, code i = true ↔
    ∃ offset, starts offset ∧ offset ≤ i ∧ i < offset + Opcode.length (b.byte offset)
  /-- Every instruction ends where the next one starts, or in front of it. -/
  apart : ∀ offset later, starts offset → starts later → offset < later →
    offset + Opcode.length (b.byte offset) ≤ later

/-- Where instructions tile the code, a sweep finds them and no others. -/
theorem Tiles.isStart_iff {b : LoadedBank} {code : Nat → Bool} {starts : Nat → Prop}
    (tiles : b.Tiles code starts) {offset : Nat} : b.IsStart code offset ↔ starts offset := by
  constructor
  · intro start
    induction start with
    | @first offset inside coded front =>
      obtain ⟨o, begun, lower, upper⟩ := (tiles.code_iff offset inside).mp coded
      rcases Nat.lt_or_eq_of_le lower with before | rfl
      · have inner : code (offset - 1) = true :=
          (tiles.code_iff _ (by omega)).mpr ⟨o, begun, by omega, by omega⟩
        rw [front (offset - 1) (by omega)] at inner
        contradiction
      · exact begun
    | @next offset _ inside coded ih =>
      have behind := coded _ (Nat.le_add_right _ _) (Nat.le_refl _)
      obtain ⟨o, begun, lower, upper⟩ := (tiles.code_iff _ inside).mp behind
      -- An instruction that starts in front of its byte would overlap the one that ends there.
      rcases Nat.lt_trichotomy o offset with before | rfl | after
      · have ends := tiles.apart o offset begun ih before
        omega
      · omega
      · have ends := tiles.apart offset o ih begun after
        rw [show offset + Opcode.length (b.byte offset) = o by omega]
        exact begun
  · intro begun
    induction offset using Nat.strongRecOn with
    | ind offset ih =>
      have ends := tiles.fits offset begun
      have nonempty := Opcode.length_pos (b.byte offset)
      have inside : offset < b.size := by omega
      have coded : code offset = true :=
        (tiles.code_iff offset inside).mpr ⟨offset, begun, Nat.le_refl _, by omega⟩
      by_cases gap : ∀ i, i + 1 = offset → code i = false
      · exact .first inside coded gap
      · simp only [not_forall, Bool.not_eq_false] at gap
        obtain ⟨i, rfl, before⟩ := gap
        obtain ⟨o, earlier, lower, upper⟩ := (tiles.code_iff i (by omega)).mp before
        have stop : o + Opcode.length (b.byte o) = i + 1 := by
          have ends := tiles.apart o (i + 1) earlier begun (by omega)
          omega
        have next := (ih o (by omega) earlier).next (by omega) (by
          intro j lower' upper'
          by_cases last : j = i + 1
          · rw [last]
            exact coded
          · exact (tiles.code_iff j (by omega)).mpr ⟨o, earlier, lower', by omega⟩)
        rw [stop] at next
        exact next

/-- The stretches of code of a bank, by their offsets in the log, are those of its own offsets. -/
theorem isStretch_iff {b : LoadedBank} {store : Cdl.Store} {first length : Nat} :
    Cdl.File.IsStretch (fun i => Cdl.hasAny Cdl.code (store.loadedAt ⟨b.cdl, i⟩)) b.cdlOffset
        (b.cdlOffset + b.size) (b.cdlOffset + first) length ↔
      Cdl.File.IsStretch (b.loadedCode store) 0 b.size first length := by
  have shift : ∀ i, b.cdlOffset ≤ i → ∃ j, i = b.cdlOffset + j :=
    fun i inside => ⟨i - b.cdlOffset, by omega⟩
  constructor
  · rintro ⟨nonempty, begins, bound, all, front, back⟩
    refine ⟨nonempty, Nat.zero_le _, by omega, ?_, ?_, ?_⟩
    · intro i lower upper
      exact all (b.cdlOffset + i) (by omega) (by omega)
    · intro i _ before
      exact front (b.cdlOffset + i) (by omega) (by omega)
    · intro below
      have behind := back (by omega)
      rw [Nat.add_assoc] at behind
      exact behind
  · rintro ⟨nonempty, begins, bound, all, front, back⟩
    refine ⟨nonempty, Nat.le_add_right _ _, by omega, ?_, ?_, ?_⟩
    · intro i lower upper
      obtain ⟨j, rfl⟩ := shift i (by omega)
      exact all j (by omega) (by omega)
    · intro i lower before
      obtain ⟨j, rfl⟩ := shift i lower
      exact front j (Nat.zero_le j) (by omega)
    · intro below
      rw [Nat.add_assoc]
      exact back (by omega)

/-- The starts in the loaded code of a bank, given that the store has its stretch of the log. -/
theorem loadedStarts_eq {b : LoadedBank} {store : Cdl.Store} {starts : List Int}
    (done : b.loadedStarts store = .ok starts) :
    starts = (Cdl.File.stretches (fun i => Cdl.hasAny Cdl.code (store.loadedAt ⟨b.cdl, i⟩))
      b.cdlOffset none b.size).flatMap fun (offset, length) =>
        b.sweep (offset - b.cdlOffset) (offset - b.cdlOffset + length) := by
  unfold loadedStarts at done
  rw [Cdl.Store.loadedRuns_eq] at done
  cases found : store.file? b.cdl with
  | none =>
    rw [found] at done
    contradiction
  | some f =>
    rw [found] at done
    dsimp only at done
    split at done
    · contradiction
    · exact (Except.ok.inj done).symm

/-- The starts in the loaded code of a bank are the addresses where an instruction of it starts. -/
theorem mem_loadedStarts_iff {b : LoadedBank} {store : Cdl.Store} {starts : List Int}
    (done : b.loadedStarts store = .ok starts) {addr : Int} :
    addr ∈ starts ↔
      ∃ l : Location, l.bank = b ∧ (l.address : Int) = addr ∧
        b.IsStart (b.loadedCode store) l.offset := by
  have stretches : ∀ offset length, (offset, length) ∈ Cdl.File.stretches
      (fun i => Cdl.hasAny Cdl.code (store.loadedAt ⟨b.cdl, i⟩)) b.cdlOffset none b.size ↔
        ∃ first, offset = b.cdlOffset + first ∧
          Cdl.File.IsStretch (b.loadedCode store) 0 b.size first length := by
    intro offset length
    rw [Cdl.File.mem_stretches_iff (Cdl.File.underway_none _ _), Option.getD_none]
    constructor
    · intro stretch
      obtain ⟨first, rfl⟩ : ∃ first, offset = b.cdlOffset + first :=
        ⟨offset - b.cdlOffset, (Nat.add_sub_cancel' stretch.lower_le).symm⟩
      exact ⟨first, rfl, isStretch_iff.mp stretch⟩
    · rintro ⟨first, rfl, stretch⟩
      exact isStretch_iff.mpr stretch
  rw [loadedStarts_eq done, List.mem_flatMap]
  constructor
  · rintro ⟨⟨offset, length⟩, member, swept⟩
    obtain ⟨first, rfl, stretch⟩ := (stretches offset length).mp member
    dsimp only at swept
    rw [Nat.add_sub_cancel_left] at swept
    obtain ⟨o, come, before, rfl⟩ := mem_sweep_iff.mp swept
    have start := come.isStart stretch before
    exact ⟨⟨b, ⟨o, start.coded.1⟩⟩, rfl, rfl, start⟩
  · rintro ⟨l, rfl, rfl, start⟩
    obtain ⟨first, length, stretch, come, before⟩ := start.exists_sweeps
    refine ⟨(l.bank.cdlOffset + first, length), (stretches _ _).mpr ⟨first, rfl, stretch⟩, ?_⟩
    dsimp only
    rw [Nat.add_sub_cancel_left]
    exact mem_sweep_iff.mpr ⟨l.offset, come, before, rfl⟩

/-- The starts in the loaded code of a bank are listed in ascending order. -/
theorem pairwise_loadedStarts {b : LoadedBank} {store : Cdl.Store} {starts : List Int}
    (done : b.loadedStarts store = .ok starts) : starts.Pairwise (· < ·) := by
  rw [loadedStarts_eq done, List.pairwise_flatMap]
  have held := Cdl.File.underway_none
    (fun i => Cdl.hasAny Cdl.code (store.loadedAt ⟨b.cdl, i⟩)) b.cdlOffset
  refine ⟨fun _ _ => pairwise_sweep b _ _, ?_⟩
  refine (Cdl.File.pairwise_stretches held b.size).imp_of_mem ?_
  rintro ⟨offset, length⟩ ⟨later, _⟩ member _ gap x swept y swept'
  have begins := ((Cdl.File.mem_stretches_iff held).mp member).lower_le
  rw [Option.getD_none] at begins
  obtain ⟨o, _, before, rfl⟩ := mem_sweep_iff.mp swept
  obtain ⟨o', come, _, rfl⟩ := mem_sweep_iff.mp swept'
  have from_later := come.le
  dsimp only at gap before from_later
  omega

/-- The starts are found in a store that was made for banks among which the bank is. -/
theorem exists_loadedStarts {banks : List Bank} {store : Cdl.Store} (made : store.MadeFor banks)
    {b : LoadedBank} (member : b.toBank ∈ banks) : ∃ starts, b.loadedStarts store = .ok starts := by
  have start : (0 : Int) ≤ b.cdlOffset := Int.natCast_nonneg _
  have stop : (b.cdlOffset : Int) + b.size ≤ (b.cdlOffset + b.size : Nat) := by omega
  obtain ⟨f, _, granted⟩ := Cdl.Store.exists_checkRange b.cdl (made.room member) start stop
  unfold loadedStarts Cdl.Store.loadedRuns
  rw [granted]
  exact ⟨_, rfl⟩

end LoadedBank

namespace MemoryMap

/-- Stores that were read alike have the same starts in their loaded code. -/
theorem loadedStarts_congr {s t : Cdl.Store} (alike : s.ReadAlike t) (map : MemoryMap) :
    map.loadedStarts s = map.loadedStarts t := by
  have each : (fun b : LoadedBank => b.loadedStarts s) = fun b => b.loadedStarts t := by
    funext b
    unfold LoadedBank.loadedStarts
    rw [Cdl.Store.loadedRuns_congr alike]
  unfold loadedStarts
  rw [each]

/-- The mapped banks come in ascending order, each behind the end of the one in front of it. -/
theorem pairwise_activeBanks (map : MemoryMap) :
    map.activeBanks.Pairwise fun a b => a.endAddress ≤ b.start := by
  have sorted : map.activeBanks.Pairwise fun a b => decide (a.start ≤ b.start) = true := by
    apply List.pairwise_mergeSort
    · intro a b c first second
      rw [decide_eq_true_eq] at *
      exact Nat.le_trans first second
    · intro a b
      rw [Bool.or_eq_true, decide_eq_true_eq, decide_eq_true_eq]
      exact Nat.le_total _ _
  have disjoint : map.activeBanks.Pairwise fun a b => a.overlaps b.toBank = false := by
    refine (List.mergeSort_perm ..).symm.pairwise map.disjoint ?_
    intro a b apart
    rw [Bank.overlaps_comm]
    exact apart
  refine sorted.imp₂ ?_ disjoint
  intro a b order apart
  have nonempty := b.size_pos
  rw [decide_eq_true_eq] at order
  rw [← Bool.not_eq_true, Bank.overlaps_iff] at apart
  unfold Bank.endAddress at *
  omega

/-- The starts in the loaded code of a map are those of its banks with an image, one bank after the
other. -/
theorem loadedStarts_eq {map : MemoryMap} {store : Cdl.Store} {starts : List Int}
    (done : map.loadedStarts store = .ok starts) :
    ∃ each : LoadedBank → List Int,
      (∀ b ∈ map.activeBanks.filter LoadedBank.isAnalyzable, b.loadedStarts store = .ok (each b)) ∧
        starts = (map.activeBanks.filter LoadedBank.isAnalyzable).flatMap each := by
  unfold loadedStarts at done
  cases all : (map.activeBanks.filter LoadedBank.isAnalyzable).mapM fun b =>
      b.loadedStarts store with
  | error e =>
    rw [all] at done
    contradiction
  | ok lists =>
    rw [all] at done
    refine ⟨fun b => (b.loadedStarts store).toOption.getD [], ?_, ?_⟩
    · intro b member
      obtain ⟨starts, answer⟩ := exists_answer_of_mapM all member
      dsimp only
      rw [answer]
      rfl
    · have each : lists = (map.activeBanks.filter LoadedBank.isAnalyzable).map fun b =>
          (b.loadedStarts store).toOption.getD [] := by
        refine eq_map_of_mapM ?_ all
        intro b starts answer
        rw [answer]
        rfl
      rw [List.flatMap_def, ← each]
      exact (Except.ok.inj done).symm

/-- The starts in the loaded code are the addresses where an instruction starts in the loaded code
of a mapped bank with an image. -/
theorem mem_loadedStarts_iff {map : MemoryMap} {store : Cdl.Store} {starts : List Int}
    (done : map.loadedStarts store = .ok starts) {addr : Int} :
    addr ∈ starts ↔
      ∃ l : Location, l.bank ∈ map.active ∧ l.bank.isAnalyzable = true ∧ (l.address : Int) = addr ∧
        l.bank.IsStart (l.bank.loadedCode store) l.offset := by
  obtain ⟨each, found, rfl⟩ := loadedStarts_eq done
  have active : ∀ b, b ∈ map.activeBanks.filter LoadedBank.isAnalyzable ↔
      b ∈ map.active ∧ b.isAnalyzable = true := by
    intro b
    rw [List.mem_filter]
    exact and_congr_left fun _ => (List.mergeSort_perm ..).mem_iff
  rw [List.mem_flatMap]
  constructor
  · rintro ⟨b, member, listed⟩
    obtain ⟨l, rfl, address, start⟩ := (LoadedBank.mem_loadedStarts_iff (found b member)).mp listed
    obtain ⟨mapped, analyzable⟩ := (active _).mp member
    exact ⟨l, mapped, analyzable, address, start⟩
  · rintro ⟨l, mapped, analyzable, address, start⟩
    have member := (active l.bank).mpr ⟨mapped, analyzable⟩
    exact ⟨l.bank, member,
      (LoadedBank.mem_loadedStarts_iff (found _ member)).mpr ⟨l, rfl, address, start⟩⟩

/-- An address of a mapped bank with an image is listed exactly where an instruction starts at its
offset. -/
theorem address_mem_loadedStarts_iff {map : MemoryMap} {store : Cdl.Store} {starts : List Int}
    (done : map.loadedStarts store = .ok starts) {l : Location} (mapped : l.bank ∈ map.active)
    (analyzable : l.bank.isAnalyzable = true) :
    (l.address : Int) ∈ starts ↔ l.bank.IsStart (l.bank.loadedCode store) l.offset := by
  rw [mem_loadedStarts_iff done]
  constructor
  · intro ⟨m, mapped', _, address, start⟩
    have addresses : m.address = l.address := Int.natCast_inj.mp address
    have same := Location.eq_of_bank_eq (bank_eq_of_address_eq mapped' mapped addresses) addresses
    rw [same] at start
    exact start
  · intro start
    exact ⟨l, mapped, analyzable, rfl, start⟩

/-- The starts in the loaded code are listed in ascending order. -/
theorem pairwise_loadedStarts {map : MemoryMap} {store : Cdl.Store} {starts : List Int}
    (done : map.loadedStarts store = .ok starts) : starts.Pairwise (· < ·) := by
  obtain ⟨each, found, rfl⟩ := loadedStarts_eq done
  rw [List.pairwise_flatMap]
  refine ⟨fun b member => LoadedBank.pairwise_loadedStarts (found b member), ?_⟩
  refine (map.pairwise_activeBanks.filter _).imp_of_mem ?_
  intro a b member member' order x listed y listed'
  obtain ⟨l, rfl, rfl, _⟩ := (LoadedBank.mem_loadedStarts_iff (found a member)).mp listed
  obtain ⟨m, rfl, rfl, _⟩ := (LoadedBank.mem_loadedStarts_iff (found b member')).mp listed'
  have inside := l.offset.isLt
  unfold Bank.endAddress at order
  unfold Location.address
  omega

/-- A start in the loaded code resolves to a location, in a bank with an image, whose byte was
loaded as code. -/
theorem mem_loadedStarts {map : MemoryMap} {store : Cdl.Store} {starts : List Int}
    (done : map.loadedStarts store = .ok starts) {addr : Int} (member : addr ∈ starts) :
    ∃ l, map.resolve addr = some l ∧ l.bank.isAnalyzable = true ∧
      Cdl.hasAny Cdl.code (store.loadedAt l.position) = true := by
  obtain ⟨l, mapped, analyzable, rfl, start⟩ := (mem_loadedStarts_iff done).mp member
  exact ⟨l, resolve_address mapped, analyzable, start.coded.2⟩

/-- Where nothing has been read for the mapped banks there are no starts in the loaded code. -/
theorem loadedStarts_eq_nil {map : MemoryMap} {store : Cdl.Store}
    (unread : ∀ l : Location, l.bank ∈ map.active → store.loadedAt l.position = 0)
    {starts : List Int} (done : map.loadedStarts store = .ok starts) : starts = [] := by
  apply List.eq_nil_iff_forall_not_mem.mpr
  intro addr member
  obtain ⟨l, found, _, code⟩ := mem_loadedStarts done member
  rw [unread l (resolve_eq_some_iff.mp found).1, Cdl.hasAny_zero] at code
  exact Bool.false_ne_true code

/-- The starts in the loaded code are found in a store that was made for the banks. -/
theorem exists_loadedStarts {map : MemoryMap} {banks : List Bank} {store : Cdl.Store}
    (made : store.MadeFor banks) (mapped : ∀ b ∈ map.active, b.toBank ∈ banks) :
    ∃ starts, map.loadedStarts store = .ok starts := by
  have each : ∀ b ∈ map.activeBanks.filter LoadedBank.isAnalyzable,
      ∃ starts, b.loadedStarts store = .ok starts := by
    intro b member
    have ordered := (List.mem_filter.mp member).1
    have active : b ∈ map.active := (List.mergeSort_perm ..).mem_iff.mp ordered
    exact LoadedBank.exists_loadedStarts made (mapped b active)
  obtain ⟨lists, done⟩ := exists_mapM each
  unfold loadedStarts
  rw [done]
  exact ⟨_, rfl⟩

end MemoryMap

end BankTrace
