import Mathlib.Tactic.Push
import BankTrace.Proofs.MemoryMap.Resolution

/-!
# Positions of mapped banks

An address of a mapped bank has one log byte, and two banks may name the same stretch of a log file.
The addresses of a map have different log bytes exactly when no two mapped banks have a log byte in
common. Which banks are mapped, and where in the log, is decided by the declarations alone.
-/

namespace BankTrace

namespace Bank

/-- The stretches of two banks in the log have no byte in common. -/
def ApartInLog (a b : Bank) : Prop :=
  a.cdl = b.cdl → a.cdlOffset + a.size ≤ b.cdlOffset ∨ b.cdlOffset + b.size ≤ a.cdlOffset

instance (a b : Bank) : Decidable (a.ApartInLog b) :=
  inferInstanceAs (Decidable (_ → _))

/-- Having a log byte in common is mutual. -/
theorem ApartInLog.symm {a b : Bank} (apart : a.ApartInLog b) : b.ApartInLog a := by
  intro same
  exact (apart same.symm).symm

/-- A bank shares its addresses with itself. -/
theorem overlaps_self (b : Bank) : b.overlaps b = true := by
  have nonempty := b.size_pos
  rw [overlaps_iff]
  unfold endAddress
  omega

end Bank

/-- The banks of a set as they are declared. -/
def BankSet.declared (set : BankSet) : List Bank := set.banks.map LoadedBank.toBank

/-- A bank of the set is declared. -/
theorem BankSet.mem_declared {set : BankSet} {b : LoadedBank} (member : b ∈ set.banks) :
    b.toBank ∈ set.declared :=
  List.mem_map_of_mem member

namespace MemoryMap

/-- Different addresses in banks with an image have different log bytes. -/
def DistinctPositions (map : MemoryMap) : Prop :=
  ∀ x y l m, map.resolve x = some l → map.resolve y = some m → l.bank.isAnalyzable = true →
    m.bank.isAnalyzable = true → l.position = m.position → wrapAddress x = wrapAddress y

/-- No two mapped banks have a log byte in common. -/
def SlicesApart (map : MemoryMap) : Prop :=
  (map.active.map LoadedBank.toBank).Pairwise Bank.ApartInLog

instance (map : MemoryMap) : Decidable map.SlicesApart :=
  inferInstanceAs (Decidable (List.Pairwise _ _))

/-- Banks without a common log byte give every address a log byte of its own. -/
theorem SlicesApart.distinctPositions {map : MemoryMap} (apart : map.SlicesApart) :
    map.DistinctPositions := by
  intro x y l m found found' _ _ positions
  obtain ⟨member, address⟩ := resolve_eq_some_iff.mp found
  obtain ⟨member', address'⟩ := resolve_eq_some_iff.mp found'
  simp only [Location.position, Cdl.Position.mk.injEq] at positions
  obtain ⟨files, offsets⟩ := positions
  have banks : l.bank = m.bank := by
    by_contra differ
    have symmetric : Std.Symm fun a b : LoadedBank => a.toBank.ApartInLog b.toBank :=
      ⟨fun _ _ => Bank.ApartInLog.symm⟩
    have separate := (List.pairwise_map.mp apart).forall member member' differ files
    have inside := l.offset.isLt
    have inside' := m.offset.isLt
    omega
  have starts : l.bank.start = m.bank.start := by rw [banks]
  have logs : l.bank.cdlOffset = m.bank.cdlOffset := by rw [banks]
  unfold Location.address at address address'
  omega

/-- Where log bytes are shared, two banks at different addresses have one in common. -/
theorem exists_shared_byte {map : MemoryMap} (shared : ¬map.SlicesApart) :
    ∃ a b : Bank, a ∈ map.active.map LoadedBank.toBank ∧ b ∈ map.active.map LoadedBank.toBank ∧
      a.overlaps b = false ∧ a.cdl = b.cdl ∧
        ∃ i < a.size, ∃ j < b.size, a.cdlOffset + i = b.cdlOffset + j := by
  have disjoint : (map.active.map LoadedBank.toBank).Pairwise fun a b => a.overlaps b = false :=
    List.pairwise_map.mpr map.disjoint
  rw [List.pairwise_iff_getElem] at disjoint
  unfold SlicesApart at shared
  rw [List.pairwise_iff_getElem] at shared
  push Not at shared
  obtain ⟨i, j, left, right, order, common⟩ := shared
  have apart := disjoint i j left right order
  have member := List.getElem_mem left
  have member' := List.getElem_mem right
  generalize (map.active.map LoadedBank.toBank)[i] = a at common apart member
  generalize (map.active.map LoadedBank.toBank)[j] = b at common apart member'
  unfold Bank.ApartInLog at common
  push Not at common
  obtain ⟨files, before, behind⟩ := common
  have nonempty := a.size_pos
  have nonempty' := b.size_pos
  -- The later of the two beginnings is a byte of both stretches.
  exact ⟨a, b, member, member', apart, files, max a.cdlOffset b.cdlOffset - a.cdlOffset, by omega,
    max a.cdlOffset b.cdlOffset - b.cdlOffset, by omega, by omega⟩

/-! ## Sets with the same declarations -/

/-- Banks that are declared alike are found alike. -/
theorem map_get? (set : BankSet) (name : String) :
    (set.get? name).map LoadedBank.toBank = set.declared.find? fun b => b.name = name := by
  unfold BankSet.get? BankSet.declared
  rw [List.find?_map]
  rfl

/-- Banks that are declared alike are selected alike. -/
theorem selected_congr {set other : BankSet} (declared : set.declared = other.declared)
    {selection : List (Int × String)} {chosen : List LoadedBank}
    (done : selected set selection = .ok chosen) :
    ∃ others, selected other selection = .ok others ∧
      others.map LoadedBank.toBank = chosen.map LoadedBank.toBank := by
  induction selection generalizing chosen with
  | nil =>
    obtain rfl := Except.ok.inj done
    exact ⟨[], rfl, rfl⟩
  | cons pair rest ih =>
    obtain ⟨start, name⟩ := pair
    have alike : (other.get? name).map LoadedBank.toBank =
        (set.get? name).map LoadedBank.toBank := by
      rw [map_get?, map_get?, declared]
    obtain ⟨b, chosen', known, here, later, rfl⟩ := selected_cons_eq_ok_iff.mp done
    rw [known, Option.map_some, Option.map_eq_some_iff] at alike
    obtain ⟨c, known', same⟩ := alike
    obtain ⟨others, later', banks⟩ := ih later
    have here' : (c.start : Int) = start := by rw [← here, same]
    refine ⟨_, selected_cons_eq_ok_iff.mpr ⟨c, others, known', here', later', rfl⟩, ?_⟩
    rw [same]
    split
    · exact banks
    · rw [List.map_cons, List.map_cons, banks, same]

/-- Sets with the same declarations map the same banks, whatever their images are. -/
theorem ofSnapshot_congr {set other : BankSet} (declared : set.declared = other.declared)
    {snapshot : Snapshot} {map : MemoryMap} (valid : ofSnapshot set snapshot = .ok map) :
    ∃ map', ofSnapshot other snapshot = .ok map' ∧
      map'.active.map LoadedBank.toBank = map.active.map LoadedBank.toBank := by
  have fixed : other.fixed.map LoadedBank.toBank = set.fixed.map LoadedBank.toBank := by
    have each : ∀ s : BankSet,
        s.fixed.map LoadedBank.toBank = s.declared.filter fun b => b.fixed := by
      intro s
      unfold BankSet.fixed BankSet.declared
      rw [List.filter_map]
      rfl
    rw [each, each, declared]
  unfold ofSnapshot at valid
  cases done : selected set snapshot.selection with
  | error e => simp [done] at valid
  | ok chosen =>
    obtain ⟨others, done', banks⟩ := selected_congr declared done
    have active : (other.fixed ++ others).map LoadedBank.toBank =
        (set.fixed ++ chosen).map LoadedBank.toBank := by
      rw [List.map_append, List.map_append, fixed, banks]
    rw [done] at valid
    dsimp only at valid
    split at valid
    · contradiction
    case h_2 disjoint =>
      obtain rfl := Except.ok.inj valid
      have alike : ∀ list : List LoadedBank, firstOverlap list = none ↔
          (list.map LoadedBank.toBank).Pairwise fun a b => a.overlaps b = false := by
        intro list
        rw [firstOverlap_eq_none_iff, List.pairwise_map]
      have disjoint' : firstOverlap (other.fixed ++ others) = none := by
        rw [alike, active, ← alike]
        exact disjoint
      unfold ofSnapshot
      rw [done']
      dsimp only
      split
      case h_1 pair => simp [disjoint'] at pair
      case h_2 => exact ⟨_, rfl, active⟩

end MemoryMap

end BankTrace
