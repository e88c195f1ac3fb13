import Mathlib.Data.List.Pairwise
import BankTrace.MemoryMap
import BankTrace.Proofs.Failures

/-!
# What an address resolves to

An address resolves to the one location, among those of the mapped banks, that has its wrapped
value as its address. The banks that a snapshot maps are banks of the set, and which ones they are
is decided by the declarations of the banks and the selection alone: neither images nor the number
of the snapshot have a say.
-/

namespace BankTrace

/-- A wrapped address is an address. -/
theorem wrapAddress_bounds (addr : Int) : 0 ≤ wrapAddress addr ∧ wrapAddress addr < 0x10000 := by
  unfold wrapAddress
  omega

/-- An address stays when it is wrapped. -/
theorem wrapAddress_of_bounds {addr : Int} (start : 0 ≤ addr) (stop : addr < 0x10000) :
    wrapAddress addr = addr := by
  unfold wrapAddress
  omega

/-- Wrapping twice is wrapping once. -/
theorem wrapAddress_wrapAddress (addr : Int) : wrapAddress (wrapAddress addr) = wrapAddress addr :=
  wrapAddress_of_bounds (wrapAddress_bounds addr).1 (wrapAddress_bounds addr).2

/-- Sharing an address is mutual. -/
theorem Bank.overlaps_comm (a b : Bank) : a.overlaps b = b.overlaps a := by
  unfold overlaps
  rw [Bool.and_comm]

namespace Location

/-- Every location has an address of the address space. -/
theorem address_lt (l : Location) : l.address < 0x10000 := by
  have inside := l.offset.isLt
  have fits := l.bank.endAddress_le
  unfold Bank.endAddress at fits
  unfold address
  omega

/-- Two locations of one bank with one address are the same. -/
theorem eq_of_bank_eq {l m : Location} (banks : l.bank = m.bank)
    (addresses : l.address = m.address) : l = m := by
  obtain ⟨b, offset⟩ := l
  obtain ⟨c, other⟩ := m
  dsimp only at banks
  subst banks
  simp only [address] at addresses
  have offsets : offset = other := Fin.ext (by omega)
  rw [offsets]

end Location

namespace MemoryMap

/-- The location of an address in a bank has that address. -/
theorem locationIn?_eq_some_iff {addr : Int} {b : LoadedBank} {l : Location} :
    locationIn? addr b = some l ↔ l.bank = b ∧ (l.address : Int) = wrapAddress addr := by
  have bounds := wrapAddress_bounds addr
  constructor
  · intro found
    unfold locationIn? at found
    dsimp only at found
    split at found
    case isTrue inside =>
      obtain rfl := Option.some.inj found
      refine ⟨rfl, ?_⟩
      unfold Location.address
      dsimp only
      omega
    case isFalse => contradiction
  · rintro ⟨rfl, address⟩
    have inside := l.offset.isLt
    unfold Location.address at address
    have seen : l.bank.start ≤ (wrapAddress addr).toNat ∧
        (wrapAddress addr).toNat - l.bank.start < l.bank.size := by
      omega
    unfold locationIn?
    dsimp only
    rw [dif_pos seen, Option.some_inj]
    apply Location.eq_of_bank_eq
    · rfl
    · unfold Location.address
      dsimp only
      omega

/-- Two mapped banks that have locations of one address are the same bank. -/
theorem bank_eq_of_address_eq {map : MemoryMap} {l m : Location} (first : l.bank ∈ map.active)
    (second : m.bank ∈ map.active) (addresses : l.address = m.address) : l.bank = m.bank := by
  by_contra differ
  have : Std.Symm fun a b : LoadedBank => a.overlaps b.toBank = false :=
    ⟨fun a b apart => by rw [Bank.overlaps_comm]; exact apart⟩
  have apart := map.disjoint.forall first second differ
  have share : l.bank.overlaps m.bank.toBank = true := by
    rw [Bank.overlaps_iff]
    have inside := l.offset.isLt
    have inside' := m.offset.isLt
    unfold Location.address at addresses
    unfold Bank.endAddress
    omega
  rw [share] at apart
  contradiction

/-- An address resolves to the location of a mapped bank with the wrapped address. -/
theorem resolve_eq_some_iff {map : MemoryMap} {addr : Int} {l : Location} :
    map.resolve addr = some l ↔ l.bank ∈ map.active ∧ (l.address : Int) = wrapAddress addr := by
  unfold resolve
  constructor
  · intro found
    obtain ⟨b, member, located⟩ := List.exists_of_findSome?_eq_some found
    obtain ⟨rfl, address⟩ := locationIn?_eq_some_iff.mp located
    exact ⟨member, address⟩
  · rintro ⟨member, address⟩
    cases found : map.active.findSome? (locationIn? addr) with
    | none =>
      have nowhere := List.findSome?_eq_none_iff.mp found l.bank member
      have here : locationIn? addr l.bank = some l := locationIn?_eq_some_iff.mpr ⟨rfl, address⟩
      rw [here] at nowhere
      contradiction
    | some m =>
      obtain ⟨b, member', located⟩ := List.exists_of_findSome?_eq_some found
      obtain ⟨rfl, address'⟩ := locationIn?_eq_some_iff.mp located
      have addresses : m.address = l.address := by omega
      have banks := bank_eq_of_address_eq member' member addresses
      rw [Location.eq_of_bank_eq banks addresses]

/-- An address and its wrapped value resolve alike. -/
theorem resolve_wrapAddress (map : MemoryMap) (addr : Int) :
    map.resolve (wrapAddress addr) = map.resolve addr := by
  apply Option.ext
  intro l
  rw [resolve_eq_some_iff, resolve_eq_some_iff, wrapAddress_wrapAddress]

/-- The addresses behind one resolve to the offsets behind its own, up to the end of the bank. -/
theorem resolve_add {map : MemoryMap} {addr : Int} {l : Location}
    (found : map.resolve addr = some l) {i : Nat} (inside : l.offset + i < l.bank.size) :
    map.resolve (addr + i) = some ⟨l.bank, ⟨l.offset + i, inside⟩⟩ := by
  obtain ⟨member, address⟩ := resolve_eq_some_iff.mp found
  have fits := l.bank.endAddress_le
  unfold Bank.endAddress at fits
  refine resolve_eq_some_iff.mpr ⟨member, ?_⟩
  unfold Location.address wrapAddress at *
  dsimp only
  omega

/-- Every location of a mapped bank is resolved to by its address. -/
theorem resolve_address {map : MemoryMap} {l : Location} (member : l.bank ∈ map.active) :
    map.resolve l.address = some l := by
  have bound := l.address_lt
  refine resolve_eq_some_iff.mpr ⟨member, ?_⟩
  rw [wrapAddress_of_bounds (by omega) (by omega)]

/-! ## Which banks are mapped -/

/-- A selection succeeds when its first name is that of a bank at its start and the others are
selected. -/
theorem selected_cons_eq_ok_iff {set : BankSet} {start : Int} {name : String}
    {rest : List (Int × String)} {chosen : List LoadedBank} :
    selected set ((start, name) :: rest) = .ok chosen ↔
      ∃ b others, set.get? name = some b ∧ (b.start : Int) = start ∧
        selected set rest = .ok others ∧ chosen = if b.fixed then others else b :: others := by
  rw [selected]
  constructor
  · intro done
    split at done
    case h_1 => contradiction
    case h_2 b known =>
      split at done
      case isTrue => contradiction
      case isFalse here =>
        obtain ⟨others, later, done⟩ := bind_eq_ok_iff.mp done
        exact ⟨b, others, known, not_not.mp here, later, (Except.ok.inj done).symm⟩
  · rintro ⟨b, others, known, here, later, rfl⟩
    rw [known]
    dsimp only
    rw [if_neg (not_not.mpr here)]
    exact bind_eq_ok_iff.mpr ⟨others, later, rfl⟩

/-- Selected banks are banks of the set. -/
theorem mem_banks_of_mem_selected {set : BankSet} {selection : List (Int × String)}
    {chosen : List LoadedBank} (done : selected set selection = .ok chosen) {b : LoadedBank}
    (member : b ∈ chosen) : b ∈ set.banks := by
  induction selection generalizing chosen with
  | nil =>
    obtain rfl := Except.ok.inj done
    contradiction
  | cons pair rest ih =>
    obtain ⟨c, others, known, _, later, rfl⟩ := selected_cons_eq_ok_iff.mp done
    split at member
    · exact ih later member
    · rcases List.mem_cons.mp member with rfl | behind
      · exact List.mem_of_find?_eq_some known
      · exact ih later behind

/-- Mapped banks are banks of the set. -/
theorem mem_banks_of_mem_active {set : BankSet} {snapshot : Snapshot} {map : MemoryMap}
    (valid : ofSnapshot set snapshot = .ok map) {b : LoadedBank} (member : b ∈ map.active) :
    b ∈ set.banks := by
  unfold ofSnapshot at valid
  cases done : selected set snapshot.selection with
  | error e => simp [done] at valid
  | ok chosen =>
    rw [done] at valid
    dsimp only at valid
    split at valid
    · contradiction
    · obtain rfl := Except.ok.inj valid
      rcases List.mem_append.mp member with fixed | later
      · exact (List.mem_filter.mp fixed).1
      · exact mem_banks_of_mem_selected done later

/-- The number of a snapshot does not count. -/
theorem ofSnapshot_unversioned (set : BankSet) (snapshot : Snapshot) :
    ofSnapshot set snapshot.unversioned = ofSnapshot set snapshot := rfl

end MemoryMap

end BankTrace
