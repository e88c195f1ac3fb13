import BankTrace.Proofs.MemoryMap.Admission

/-!
# Banks that share addresses

The length of a bank is a power of two and its start a multiple of the length. Of two banks the
shorter one therefore fits between two starts of the longer one, and banks that share an address lie
one inside the other. A layout is checked bank against bank, by the ends of their windows; it is
accepted exactly when no address lies in a fixed bank and in another bank of the list.
-/

namespace BankTrace

namespace Bank

/-- All addresses of a bank lie in another one. -/
def Within (a b : Bank) : Prop := ∀ addr, a.contains addr = true → b.contains addr = true

/-- The banks have an address of the address space in common. -/
def SharesAddress (a b : Bank) : Prop :=
  ∃ addr, IsAddress addr ∧ a.contains addr = true ∧ b.contains addr = true

variable {a b : Bank}

/-- The first address of a bank is an address, and it lies in the bank. -/
theorem contains_start (b : Bank) : IsAddress b.start ∧ b.contains b.start = true := by
  have nonempty := b.size_pos
  have fits := b.endAddress_le
  simp only [IsAddress, contains_iff, endAddress] at *
  omega

/-- A bank holds addresses only. -/
theorem isAddress_of_contains {addr : Int} (inside : b.contains addr = true) : IsAddress addr := by
  have fits := b.endAddress_le
  simp only [IsAddress, contains_iff] at *
  omega

/-- Banks share an address exactly when the test of their ends says so. -/
theorem overlaps_iff_sharesAddress : a.overlaps b = true ↔ a.SharesAddress b := by
  rw [overlaps_iff_exists]
  constructor
  · intro ⟨addr, first, second⟩
    exact ⟨addr, isAddress_of_contains first, first, second⟩
  · intro ⟨addr, _, both⟩
    exact ⟨addr, both⟩

/-- The shorter one of two lengths divides the other one. -/
theorem size_dvd_size (shorter : a.size ≤ b.size) : a.size ∣ b.size := by
  have first := a.size_power
  have second := b.size_power
  obtain ⟨j, first⟩ := first
  obtain ⟨k, second⟩ := second
  rw [first, second] at shorter ⊢
  have exponents : j ≤ k := (Nat.pow_le_pow_iff_right (by decide)).mp shorter
  exact Nat.pow_dvd_pow 2 exponents

/-- Of two banks that overlap, the shorter one lies in the other one. -/
theorem within_of_overlaps (share : a.overlaps b = true) (shorter : a.size ≤ b.size) :
    a.Within b := by
  have divides := size_dvd_size shorter
  have start : a.size ∣ b.start := Nat.dvd_trans divides b.size_dvd
  have stop : a.size ∣ b.start + b.size := (Nat.dvd_add_iff_right start).mp divides
  simp only [overlaps_iff, endAddress] at share
  -- Both ends of the longer bank are multiples of the shorter length, as is the shorter start.
  have low : b.start ≤ a.start := Nat.le_of_lt_add_of_dvd share.2 start a.size_dvd
  have high : a.start + a.size ≤ b.start + b.size := by
    apply Nat.le_of_lt_add_of_dvd (n := a.size) _ _ stop
    · omega
    · exact (Nat.dvd_add_iff_right a.size_dvd).mp (Nat.dvd_refl a.size)
  intro addr inside
  simp only [contains_iff, endAddress] at *
  omega

/-- A bank that lies in another one shares its first address with it. -/
theorem Within.sharesAddress (within : a.Within b) : a.SharesAddress b := by
  have first := a.contains_start
  exact ⟨a.start, first.1, first.2, within a.start first.2⟩

/-- Sharing an address is mutual. -/
theorem SharesAddress.symm (share : a.SharesAddress b) : b.SharesAddress a := by
  obtain ⟨addr, inside, first, second⟩ := share
  exact ⟨addr, inside, second, first⟩

/-- Banks share an address exactly when one of them lies in the other one. -/
theorem sharesAddress_iff_within : a.SharesAddress b ↔ a.Within b ∨ b.Within a := by
  constructor
  · intro share
    have overlap := overlaps_iff_sharesAddress.mpr share
    cases Nat.le_total a.size b.size with
    | inl shorter => exact .inl (within_of_overlaps overlap shorter)
    | inr shorter =>
      rw [overlaps_comm] at overlap
      exact .inr (within_of_overlaps overlap shorter)
  · intro nested
    cases nested with
    | inl within => exact within.sharesAddress
    | inr within => exact within.sharesAddress.symm

end Bank

namespace Layout

/-- An address lies in a fixed bank of a list and in another bank of the list. -/
def Contested (banks : List Bank) (addr : Int) : Prop :=
  ∃ i j : Fin banks.length, i ≠ j ∧ banks[i].fixed = true ∧
    banks[i].contains addr = true ∧ banks[j].contains addr = true

/-- Banks can be declared together unless one of them is fixed and they share an address. -/
theorem compatible_eq_false_iff {a b : Bank} :
    compatible a b = false ↔ (a.fixed = true ∨ b.fixed = true) ∧ a.SharesAddress b := by
  rw [← Bank.overlaps_iff_sharesAddress]
  simp only [compatible, Bool.not_eq_false', Bool.and_eq_true, Bool.or_eq_true]

/-- All pairs of a list can be declared together exactly when no address is contested. -/
theorem pairwise_compatible_iff {banks : List Bank} :
    (banks.Pairwise fun a b => compatible a b = true) ↔
      ¬∃ addr, IsAddress addr ∧ Contested banks addr := by
  rw [List.pairwise_iff_getElem]
  constructor
  · intro together ⟨addr, inside, i, j, differ, fixed, first, second⟩
    have refused : compatible banks[i] banks[j] = false :=
      compatible_eq_false_iff.mpr ⟨.inl fixed, addr, inside, first, second⟩
    -- The fixed bank may stand in front of the other one or behind it.
    have order : i.val < j.val ∨ j.val < i.val := by omega
    cases order with
    | inl before =>
      have accepted : compatible banks[i] banks[j] = true := together _ _ i.isLt j.isLt before
      rw [accepted] at refused
      contradiction
    | inr behind =>
      have accepted : compatible banks[j] banks[i] = true := together _ _ j.isLt i.isLt behind
      rw [compatible_comm, accepted] at refused
      contradiction
  · intro uncontested i j hi hj before
    have differ : (⟨i, hi⟩ : Fin banks.length) ≠ ⟨j, hj⟩ := by
      simp only [ne_eq, Fin.mk.injEq]
      omega
    rw [← Bool.not_eq_false]
    intro refused
    have conflict := compatible_eq_false_iff.mp refused
    obtain ⟨fixed, addr, inside, first, second⟩ := conflict
    apply uncontested
    cases fixed with
    | inl fixed => exact ⟨addr, inside, ⟨i, hi⟩, ⟨j, hj⟩, differ, fixed, first, second⟩
    | inr fixed => exact ⟨addr, inside, ⟨j, hj⟩, ⟨i, hi⟩, differ.symm, fixed, second, first⟩

/-- A list of banks is accepted as a layout exactly when their names are different and no address
lies in a fixed bank and in another one. What the check compares is meant by it: banks overlap
mutually, exactly when they share an address, and then one of them lies in the other. -/
theorem check_exact (banks : List Bank) (a b : Bank) :
    (check banks = .ok () ↔
      (banks.map Bank.name).Nodup ∧ ¬∃ addr, IsAddress addr ∧ Contested banks addr) ∧
    a.overlaps b = b.overlaps a ∧
    (a.overlaps b = true ↔ a.SharesAddress b) ∧
    (a.SharesAddress b ↔ a.Within b ∨ b.Within a) := by
  have accepted : check banks = .ok () ↔
      (banks.map Bank.name).Nodup ∧ ¬∃ addr, IsAddress addr ∧ Contested banks addr := by
    rw [check_eq_ok_iff, pairwise_compatible_iff]
  exact ⟨accepted, Bank.overlaps_comm a b, Bank.overlaps_iff_sharesAddress,
    Bank.sharesAddress_iff_within⟩

end Layout

end BankTrace
