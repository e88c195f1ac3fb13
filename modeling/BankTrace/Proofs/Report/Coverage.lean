import BankTrace.Proofs.Cdl.Sizes
import BankTrace.Proofs.Failures
import BankTrace.Proofs.MemoryMap.Positions
import BankTrace.Report.Coverage

/-!
# Coverage adds up

The coverage of a bank is counted over its own stretch of the log, three times: the bytes with the
bit of code, those with the bit of data, and those with either of them. A byte may have both bits,
and two banks may share bytes of one file. The counts of a bank differ from its size by the bytes
with both bits alone, whatever has been read and marked.
-/

namespace BankTrace

/-- The elements with the one property and those with the other are those with either and those with
both. -/
theorem countP_add_countP {α : Type} (p q : α → Bool) (xs : List α) :
    xs.countP p + xs.countP q =
      (xs.countP fun x => p x || q x) + xs.countP fun x => p x && q x := by
  induction xs with
  | nil => rfl
  | cons x rest ih =>
    simp only [List.countP_cons]
    cases p x
    all_goals
      cases q x
      all_goals
        simp
        omega

/-- A stretch inside an array has the elements behind its first position. -/
theorem Slice.between_eq_map {α : Type} {xs : Array α} {first count : Nat} (other : α)
    (inside : first + count ≤ xs.size) :
    (Slice.between xs first (first + count : Nat)).toList =
      (List.range count).map fun i => xs.getD (first + i) other := by
  have begins : position xs.size first = first := position_of_le (by omega)
  have ends : position xs.size (first + count : Nat) = first + count := position_of_le inside
  rw [between, begins, ends]
  apply List.ext_getElem
  · simp only [Array.length_toList, Array.size_extract, List.length_map, List.length_range]
    omega
  · intro i here there
    simp only [List.length_map, List.length_range] at there
    have bound : first + i < xs.size := by omega
    simp only [Array.getElem_toList, Array.getElem_extract, List.getElem_map, List.getElem_range]
    simp only [Array.getD, bound, dif_pos]
    rfl

/-- A byte has one of the bits of two masks when it has one of either. -/
theorem Cdl.hasAny_mask_or (left right byte : UInt8) :
    hasAny (left ||| right) byte = (hasAny left byte || hasAny right byte) := by
  have swapped : ∀ mask, hasAny mask byte = hasAny byte mask := by
    intro mask
    unfold hasAny
    rw [UInt8.and_comm]
  rw [swapped, swapped left, swapped right]
  exact hasAny_or byte left right

namespace Bank

/-- The number of bytes of the bank whose bytes in the log pass a test. -/
def countLog (b : Bank) (store : Cdl.Store) (test : UInt8 → Bool) : Nat :=
  (List.range b.size).countP fun offset =>
    test (store.byteAt ⟨b.cdl, (b.cdlOffset + offset : Nat)⟩)

variable {b : Bank} {banks : List Bank} {store : Cdl.Store}

/-- No more bytes are counted than the bank has. -/
theorem countLog_le (b : Bank) (store : Cdl.Store) (test : UInt8 → Bool) :
    b.countLog store test ≤ b.size := by
  have counted := List.countP_le_length (l := List.range b.size)
    (p := fun offset => test (store.byteAt ⟨b.cdl, (b.cdlOffset + offset : Nat)⟩))
  rw [List.length_range] at counted
  exact counted

/-- Two tests together count no more than each of them. -/
theorem countLog_and_le (b : Bank) (store : Cdl.Store) (p q : UInt8 → Bool) :
    (b.countLog store fun byte => p byte && q byte) ≤ b.countLog store p ∧
      (b.countLog store fun byte => p byte && q byte) ≤ b.countLog store q := by
  constructor
  · apply List.countP_mono_left
    intro offset _ both
    exact (Bool.and_eq_true_iff.mp both).1
  · apply List.countP_mono_left
    intro offset _ both
    exact (Bool.and_eq_true_iff.mp both).2

/-- The bytes with bits of the one mask and those with bits of the other are those with bits of
either and those with bits of both. -/
theorem countLog_add_countLog (b : Bank) (store : Cdl.Store) (left right : Cdl.Mask) :
    b.countLog store (Cdl.hasAny left) + b.countLog store (Cdl.hasAny right) =
      b.countLog store (Cdl.hasAny (left ||| right)) +
        b.countLog store fun byte => Cdl.hasAny left byte && Cdl.hasAny right byte := by
  simp only [countLog, Cdl.hasAny_mask_or]
  exact countP_add_countP _ _ _

/-- The log of a store that was made for banks is counted over the bytes of the bank. -/
theorem count_eq (made : store.MadeFor banks) (member : b ∈ banks) (mask : Cdl.Mask) :
    store.count b.cdl mask b.cdlOffset (some b.size) =
      .ok (b.countLog store (Cdl.hasAny mask)) := by
  have room := made.room member
  obtain ⟨size, sized, enough⟩ := room
  rw [Cdl.Store.lookup_sizes, Option.map_eq_some_iff] at sized
  obtain ⟨f, found, rfl⟩ := sized
  have inside : b.cdlOffset + b.size ≤ f.buffer.toArray.size := by
    rw [Vector.size_toArray]
    exact enough
  have counted : f.count mask b.cdlOffset (b.cdlOffset + b.size : Nat) =
      b.countLog store (Cdl.hasAny mask) := by
    rw [Cdl.File.count, ← Array.countP_toList, Slice.between_eq_map 0 inside, List.countP_map]
    simp only [countLog, Cdl.Store.byteAt, found]
    rfl
  simp only [Cdl.Store.count, Cdl.Store.file, found, bind, Except.bind]
  exact congrArg Except.ok counted

end Bank

namespace Coverage

/-- What is said of a bank adds up with the bytes of its stretch of the log. -/
structure Reconciles (c : Coverage) (store : Cdl.Store) : Prop where
  /-- The bytes with the bit of code are counted. -/
  code_eq : c.code = c.bank.countLog store (Cdl.hasAny Cdl.code)
  /-- The bytes with the bit of data are counted. -/
  data_eq : c.data = c.bank.countLog store (Cdl.hasAny Cdl.data)
  /-- The others are unknown; they are what is left of the bank, which is never less than none. -/
  unknown_eq : (c.unknown : Int) =
    c.bank.size - c.bank.countLog store (Cdl.hasAny (Cdl.code ||| Cdl.data))
  /-- There is no more code than bytes. -/
  code_le : c.code ≤ c.bank.size
  /-- There is no more data than bytes. -/
  data_le : c.data ≤ c.bank.size
  /-- What is code and what is data is not unknown. -/
  max_le : ((max c.code c.data : Nat) : Int) ≤ c.bank.size - c.unknown
  /-- What is not unknown is code or data. -/
  le_add : (c.bank.size - c.unknown : Int) ≤ c.code + c.data
  /-- All three together are the size, and the bytes with both bits once more. -/
  add_eq : c.code + c.data + c.unknown = c.bank.size + c.bank.countLog store fun byte =>
    Cdl.hasAny Cdl.code byte && Cdl.hasAny Cdl.data byte

/-- What is said of a bank. -/
def ofCounts (store : Cdl.Store) (b : LoadedBank) : Coverage :=
  ⟨b.toBank, b.isAnalyzable, b.countLog store (Cdl.hasAny Cdl.code),
    b.countLog store (Cdl.hasAny Cdl.data),
    b.size - b.countLog store (Cdl.hasAny (Cdl.code ||| Cdl.data))⟩

/-- The counts of a bank reconcile. -/
theorem reconciles (store : Cdl.Store) (b : LoadedBank) : (ofCounts store b).Reconciles store := by
  have bounded := b.countLog_le store (Cdl.hasAny (Cdl.code ||| Cdl.data))
  have sum := b.countLog_add_countLog store Cdl.code Cdl.data
  have both := b.countLog_and_le store (Cdl.hasAny Cdl.code) (Cdl.hasAny Cdl.data)
  constructor
  case code_eq => rfl
  case data_eq => rfl
  all_goals
    simp only [ofCounts]
    omega

/-- The coverage of the banks that a store was made for has one row for each of them, and every row
reconciles. -/
theorem exists_ofSet {set : BankSet} {store : Cdl.Store} (made : store.MadeFor set.declared) :
    ∃ rows, ofSet store set = .ok rows ∧ rows.map bank = set.declared ∧
      ∀ c ∈ rows, c.Reconciles store := by
  have each : ∀ b ∈ set.banks, ofBank store b = .ok (ofCounts store b) := by
    intro b member
    have declared : b.toBank ∈ set.declared := List.mem_map_of_mem member
    simp only [ofBank, Bank.count_eq made declared, bind, Except.bind]
    rfl
  refine ⟨set.banks.map (ofCounts store), mapM_eq_ok_map each, ?_, ?_⟩
  · rw [List.map_map]
    rfl
  · intro c member
    obtain ⟨b, _, rfl⟩ := List.mem_map.mp member
    exact reconciles store b

end Coverage

end BankTrace
