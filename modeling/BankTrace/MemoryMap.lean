import BankTrace.Bank.Set
import BankTrace.Cdl.Position

/-!
# Memory maps

A memory map is what the processor sees under one snapshot: the fixed banks and those that the
snapshot selects. They share no address, so an address lies in one of them at most, at one offset.
-/

namespace BankTrace

/-- An offset of a bank. -/
structure Location where
  bank : LoadedBank
  offset : Fin bank.size

namespace Location

/-- The address that the location is mapped at. -/
def address (l : Location) : Nat := l.bank.start + l.offset

/-- The byte of the log that belongs to the location. -/
def position (l : Location) : Cdl.Position := ⟨l.bank.cdl, (l.bank.cdlOffset + l.offset : Nat)⟩

/-- Up to `count` bytes from the location on, never behind the end of the bank; nothing when the
bank has no image. -/
def bytes (l : Location) (count : Nat) : List UInt8 :=
  match l.bank.image with
  | some image => (image.toArray.extract l.offset (l.offset + count)).toList
  | none => []

/-- The word at the location, the lower byte first, when both bytes are in the bank and known. -/
def word? (l : Location) : Option Nat :=
  match l.bank.image with
  | some image =>
    if h : l.offset + 1 < l.bank.size then
      some (image[l.offset].toNat + 256 * (image[l.offset.val + 1]).toNat)
    else none
  | none => none

end Location

/-- The banks that are mapped together. -/
structure MemoryMap where
  /-- The fixed banks, then the selected ones in the order of the snapshot. -/
  active : List LoadedBank
  /-- No two of them share an address. -/
  disjoint : active.Pairwise fun a b => a.overlaps b.toBank = false

namespace MemoryMap

/-- The first two banks of a list that share an address. -/
def firstOverlap : List LoadedBank → Option (LoadedBank × LoadedBank)
  | [] => none
  | a :: rest =>
    match rest.find? fun b => a.overlaps b.toBank with
    | some b => some (a, b)
    | none => firstOverlap rest

theorem firstOverlap_eq_none_iff {banks : List LoadedBank} :
    firstOverlap banks = none ↔ banks.Pairwise fun a b => a.overlaps b.toBank = false := by
  induction banks with
  | nil => simp [firstOverlap]
  | cons a rest ih =>
    simp only [firstOverlap, List.pairwise_cons]
    cases h : rest.find? fun b => a.overlaps b.toBank with
    | none => simp_all [List.find?_eq_none]
    | some b =>
      have := List.find?_some h
      have := List.mem_of_find?_eq_some h
      simp only [reduceCtorEq, false_iff, not_and]
      intro all
      simp_all

/-- The switchable banks that a selection names, in its order. Every name must be that of a bank
and every start the start of that bank, also where the bank is fixed. -/
def selected (set : BankSet) : List (Int × String) → Except ConfigError (List LoadedBank)
  | [] => .ok []
  | (start, name) :: rest =>
    match set.get? name with
    | none => .error (.unknownBank name)
    | some b =>
      if (b.start : Int) ≠ start then .error (.wrongWindow name start)
      else do
        let others ← selected set rest
        return if b.fixed then others else b :: others

/-- What the processor sees under a snapshot, or why the snapshot is refused. -/
def ofSnapshot (set : BankSet) (snapshot : Snapshot) : Except ConfigError MemoryMap :=
  match selected set snapshot.selection with
  | .error e => .error e
  | .ok chosen =>
    match h : firstOverlap (set.fixed ++ chosen) with
    | some (a, b) => .error (.windowOverlap a.name b.name)
    | none => .ok ⟨set.fixed ++ chosen, firstOverlap_eq_none_iff.1 h⟩

/-- The location of an address in a bank. -/
def locationIn? (addr : Int) (b : LoadedBank) : Option Location :=
  let seen := (wrapAddress addr).toNat
  if h : b.start ≤ seen ∧ seen - b.start < b.size then some ⟨b, ⟨seen - b.start, h.2⟩⟩ else none

/-- Where an address lies; an address past either end of the address space wraps. -/
def resolve (map : MemoryMap) (addr : Int) : Option Location :=
  map.active.findSome? (locationIn? addr)

/-- The mapped banks in ascending order of their starts. -/
def activeBanks (map : MemoryMap) : List LoadedBank :=
  map.active.mergeSort fun a b => a.start ≤ b.start

/-- The word at an address, when both bytes lie in one bank and are known. -/
def readWord (map : MemoryMap) (addr : Int) : Option Nat :=
  (map.resolve addr).bind Location.word?

end MemoryMap

end BankTrace
