import Mathlib.Data.List.Induction
import BankTrace.Proofs.MemoryMap.Requests

/-!
# What regions declare

Regions are declared one after the other and may cover the same addresses. An address has the
permission of the last region that covers it, and none when no region does: painting the regions in
their order comes to the same as looking for the last one. A table of bit masks that is written
slice by slice keeps its size and becomes the same address space.

A stretch may be executed exactly when each of its addresses is answered to be executable on its
own.
-/

namespace BankTrace

/-- The address is one of the region. -/
def Region.Contains (r : Region) (addr : Int) : Prop := r.start ≤ addr ∧ addr < r.start + r.size

instance (r : Region) (addr : Int) : Decidable (r.Contains addr) :=
  inferInstanceAs (Decidable (_ ∧ _))

/-- A region covers the addresses that it contains. -/
theorem Region.covers_iff {r : Region} {addr : Nat} : r.covers addr = true ↔ r.Contains addr := by
  unfold covers Contains
  rw [Bool.and_eq_true, decide_eq_true_iff, decide_eq_true_iff]
  omega

/-- The region is the last one of a list that contains an address. -/
def Region.IsLastOver (r : Region) (regions : List Region) (addr : Int) : Prop :=
  ∃ front back, regions = front ++ r :: back ∧ r.Contains addr ∧ ∀ s ∈ back, ¬s.Contains addr

/-- What regions declare for an address. -/
inductive Declares (regions : List Region) (addr : Int) : Permission → Prop
  | region {r : Region} (last : r.IsLastOver regions addr) : Declares regions addr r.permission
  | nothing (uncovered : ∀ r ∈ regions, ¬r.Contains addr) : Declares regions addr {}

section

variable {regions : List Region} {r : Region} {addr : Int} {p : Permission}

/-- A region that is declared last decides for the addresses that it contains. -/
theorem declares_concat_of_contains (inside : r.Contains addr) :
    Declares (regions ++ [r]) addr p ↔ p = r.permission := by
  constructor
  · intro declared
    cases declared with
    | @region s last =>
      obtain ⟨front, back, split, _, behind⟩ := last
      -- Anything behind the last region that contains the address would be the region itself.
      obtain rfl | ⟨others, t, rfl⟩ := back.eq_nil_or_concat'
      · have ends : r = s := (List.append_singleton_inj.mp split).2
        rw [ends]
      · rw [← List.cons_append, ← List.append_assoc] at split
        have ends : r = t := (List.append_singleton_inj.mp split).2
        have outside := behind t (List.mem_append_right others List.mem_cons_self)
        rw [← ends] at outside
        contradiction
    | nothing uncovered =>
      have outside := uncovered r (List.mem_append_right regions List.mem_cons_self)
      contradiction
  · rintro rfl
    have last : r.IsLastOver (regions ++ [r]) addr := by
      refine ⟨regions, [], rfl, inside, ?_⟩
      intro s absent
      contradiction
    exact .region last

/-- A region that is declared last leaves the addresses alone that it does not contain. -/
theorem declares_concat_of_not_contains (outside : ¬r.Contains addr) :
    Declares (regions ++ [r]) addr p ↔ Declares regions addr p := by
  constructor
  · intro declared
    cases declared with
    | @region s last =>
      obtain ⟨front, back, split, inside, behind⟩ := last
      obtain rfl | ⟨others, t, rfl⟩ := back.eq_nil_or_concat'
      · have ends : r = s := (List.append_singleton_inj.mp split).2
        rw [← ends] at inside
        contradiction
      · rw [← List.cons_append, ← List.append_assoc] at split
        have fronts : regions = front ++ s :: others := (List.append_singleton_inj.mp split).1
        apply Declares.region
        refine ⟨front, others, fronts, inside, ?_⟩
        intro u later
        exact behind u (List.mem_append_left [t] later)
    | nothing uncovered =>
      apply Declares.nothing
      intro s member
      exact uncovered s (List.mem_append_left [r] member)
  · intro declared
    cases declared with
    | region last =>
      obtain ⟨front, back, rfl, inside, behind⟩ := last
      apply Declares.region
      refine ⟨front, back ++ [r], by simp, inside, ?_⟩
      intro s later
      rcases List.mem_append.mp later with old | new
      · exact behind s old
      · rw [List.mem_singleton.mp new]
        exact outside
    | nothing uncovered =>
      apply Declares.nothing
      intro s member
      rcases List.mem_append.mp member with old | new
      · exact uncovered s old
      · rw [List.mem_singleton.mp new]
        exact outside

end

namespace AddressSpace

/-- Painting a region gives its permission to the addresses that it contains, and to no other. -/
theorem getElem_paint (space : AddressSpace) (r : Region) {addr : Nat} (inside : addr < 0x10000) :
    (space.paint r).table[addr] = if r.covers addr then r.permission else space.table[addr] :=
  Vector.getElem_mapIdx inside

/-- Regions are painted in the order of their declaration. -/
theorem ofRegions_concat (regions : List Region) (r : Region) :
    ofRegions (regions ++ [r]) = (ofRegions regions).paint r :=
  List.foldl_concat ..

/-- The table holds what the regions declare, and nothing else. -/
theorem declares_iff (regions : List Region) {addr : Nat} (inside : addr < 0x10000)
    {p : Permission} : Declares regions addr p ↔ p = (ofRegions regions).table[addr] := by
  induction regions using List.reverseRecOn generalizing p with
  | nil =>
    have blank : (ofRegions []).table[addr] = {} := Vector.getElem_replicate inside
    rw [blank]
    constructor
    · intro declared
      cases declared with
      | region last =>
        obtain ⟨front, back, split, _⟩ := last
        simp at split
      | nothing => rfl
    · rintro rfl
      apply Declares.nothing
      intro r absent
      contradiction
  | append_singleton regions r ih =>
    rw [ofRegions_concat, getElem_paint _ r inside]
    by_cases covered : r.covers addr = true
    · rw [if_pos covered, declares_concat_of_contains (Region.covers_iff.mp covered)]
    · rw [if_neg covered, declares_concat_of_not_contains (mt Region.covers_iff.mpr covered), ih]

/-! ## The table written by slices -/

/-- Write the bit mask of a region over the slice of a table that the region covers. -/
def overwrite (flags : Array UInt8) (r : Region) : Array UInt8 :=
  flags.extract 0 r.start ++ Array.replicate r.size r.permission.flags ++
    flags.extract (r.start + r.size) flags.size

/-- The table of an address space has a mask for every address. -/
theorem size_flags (space : AddressSpace) : space.flags.size = 0x10000 := Vector.size_toArray _

/-- The mask of an address is that of its permission. -/
theorem getElem_flags (space : AddressSpace) {addr : Nat} (present : addr < space.flags.size)
    (inside : addr < 0x10000) : space.flags[addr] = space.table[addr].flags := by
  simp [flags]

/-- A slice is replaced by one of the same length, so the masks are those of the painted space. -/
theorem overwrite_flags (space : AddressSpace) (r : Region) :
    overwrite space.flags r = (space.paint r).flags := by
  have fits : r.start + r.size ≤ 0x10000 := r.end_le
  apply Array.ext
  · simp only [overwrite, Array.size_append, Array.size_extract, Array.size_replicate, size_flags]
    omega
  · intro addr _ bound
    have inside : addr < 0x10000 := size_flags (space.paint r) ▸ bound
    have present : addr < space.flags.size := space.size_flags.symm ▸ inside
    have before : min r.start 0x10000 - 0 = r.start := by omega
    rw [getElem_flags _ bound inside, getElem_paint space r inside]
    simp only [overwrite, Array.getElem_append, Array.size_append, Array.size_extract,
      Array.size_replicate, Array.getElem_extract, Array.getElem_replicate, size_flags, before]
    -- The address is in the slice in front of the region, in the region or in the slice behind it.
    by_cases ahead : addr < r.start
    · have uncovered : ¬r.covers addr = true := by
        rw [Region.covers_iff]
        unfold Region.Contains
        omega
      rw [dif_pos (by omega), dif_pos ahead, if_neg uncovered,
        ← getElem_flags space present inside]
      congr 1
      omega
    · by_cases reached : addr < r.start + r.size
      · have covered : r.covers addr = true := by
          rw [Region.covers_iff]
          unfold Region.Contains
          omega
        rw [dif_pos reached, dif_neg ahead, if_pos covered]
      · have uncovered : ¬r.covers addr = true := by
          rw [Region.covers_iff]
          unfold Region.Contains
          omega
        rw [dif_neg reached, if_neg uncovered, ← getElem_flags space present inside]
        congr 1
        omega

/-- The masks of the space that permits nothing are all zero. -/
theorem flags_closed : closed.flags = Array.replicate 0x10000 0 := by
  unfold flags closed
  rw [Vector.map_replicate]
  rfl

/-- Writing all regions slice by slice makes the masks of the space that they declare. -/
theorem foldl_overwrite (regions : List Region) :
    regions.foldl overwrite (Array.replicate 0x10000 0) = (ofRegions regions).flags := by
  induction regions using List.reverseRecOn with
  | nil => exact flags_closed.symm
  | append_singleton regions r ih =>
    rw [List.foldl_concat, ih, overwrite_flags, ofRegions_concat]

/-- The masks of an address space stand for it. -/
theorem ofFlags_flags (space : AddressSpace) : ofFlags space.flags = .ok space := by
  unfold ofFlags
  rw [dif_pos space.size_flags]
  congr 2
  apply Vector.ext
  intro addr inside
  simp [flags, Permission.ofFlags_flags]

/-! ## Single addresses and stretches -/

/-- An address may be executed when it is inside the space and the table says so. -/
theorem isExecutable_eq_ok_true_iff {space : AddressSpace} {addr : Int} :
    space.isExecutable addr = .ok true ↔ (space.permissionAt addr).executable = true := by
  by_cases inside : IsAddress addr
  · rw [space.isExecutable_eq inside, Except.ok.injEq]
  · have outside : ¬(0 ≤ addr ∧ addr < 0x10000) := inside
    have refused : space.isExecutable addr = .error (.address addr) := by
      unfold isExecutable permission
      rw [dif_neg outside]
      rfl
    rw [refused, permissionAt_of_outside space outside]
    constructor
    · intro absurdity
      contradiction
    · intro absurdity
      contradiction

/-- The last region that contains an address decides for it: regions that are written slice by slice
into a blank table of masks make an address space, each of its addresses has exactly the permission
that the regions declare, and a stretch may be executed exactly when it is inside the address space
and each of its addresses may be executed on its own. -/
theorem last_region_decides (regions : List Region) :
    ofFlags (regions.foldl overwrite (Array.replicate 0x10000 0)) = .ok (ofRegions regions) ∧
      (∀ addr, IsAddress addr →
        ∃ p, (ofRegions regions).permission addr = .ok p ∧
          ∀ q, Declares regions addr q ↔ q = p) ∧
      ∀ (space : AddressSpace) (addr : Int) (count : Nat),
        space.allExecutable addr count = true ↔
          0 ≤ addr ∧ addr + count ≤ 0x10000 ∧
            ∀ i < count, space.isExecutable (addr + i) = .ok true := by
  refine ⟨?_, ?_, ?_⟩
  · rw [foldl_overwrite, ofFlags_flags]
  · intro addr inside
    obtain ⟨n, rfl⟩ := Int.eq_ofNat_of_zero_le inside.1
    have bound : n < 0x10000 := by
      have upper := inside.2
      omega
    refine ⟨(ofRegions regions).table[n], ?_, ?_⟩
    · rw [permission_eq _ inside, permissionAt_of_lt _ bound]
    · intro q
      exact declares_iff regions bound
  · intro space addr count
    rw [allExecutable_eq_true_iff]
    simp only [isExecutable_eq_ok_true_iff]

/-- Memory that may be written, a program over its upper half and two bytes in the program that may
only be read: the byte behind them still belongs to the program. -/
def layeredRegions : List Region :=
  [⟨0, 0x10000, { readable := true, writable := true }, by decide, by decide⟩,
    ⟨0x8000, 0x8000, { readable := true, executable := true }, by decide, by decide⟩,
    ⟨0xFFFD, 2, { readable := true }, by decide, by decide⟩]

/-- The last address is still that of the program, and the stretch of the last two may not be
executed, as the first of them may not. -/
theorem last_region_decides_layered :
    IsAddress 0xFFFF ∧
      (ofRegions layeredRegions).permission 0xFFFF =
        .ok { readable := true, executable := true } ∧
      (ofRegions layeredRegions).allExecutable 0xFFFE 2 = false := by
  have inside : IsAddress 0xFFFF := ⟨by decide, by decide⟩
  have above : IsAddress 0xFFFE := ⟨by decide, by decide⟩
  obtain ⟨_, single, stretch⟩ := last_region_decides layeredRegions
  obtain ⟨p, granted, only⟩ := single 0xFFFF inside
  obtain ⟨q, granted', only'⟩ := single 0xFFFE above
  have program : Declares layeredRegions 0xFFFF { readable := true, executable := true } := by
    refine .region ⟨layeredRegions.take 1, layeredRegions.drop 2, rfl, by decide, ?_⟩
    decide
  have constant : Declares layeredRegions 0xFFFE { readable := true } :=
    .region ⟨layeredRegions.take 2, [], rfl, by decide, by decide⟩
  refine ⟨inside, ?_, ?_⟩
  · rw [granted, (only _).mp program]
  · apply Bool.eq_false_iff.mpr
    intro executable
    have first := ((stretch _ 0xFFFE 2).mp executable).2.2 0 (by decide)
    unfold isExecutable at first
    rw [Int.natCast_zero, Int.add_zero, granted', ← (only' _).mp constant] at first
    exact absurd (Except.ok.inj first) (by decide)

end AddressSpace

end BankTrace
