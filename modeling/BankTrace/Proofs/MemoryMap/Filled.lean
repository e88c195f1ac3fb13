import Mathlib.Data.List.Nodup
import BankTrace.Proofs.Cpu.Decoding
import BankTrace.Proofs.MemoryMap.Positions

/-!
# Filled banks

Any declared banks can be given images that repeat one byte each. Together with an address space
that permits everything they show what a layout allows to happen.
-/

namespace BankTrace

/-- The address space that permits everything. -/
def AddressSpace.unrestricted : AddressSpace := ⟨Vector.replicate 0x10000 ⟨true, true, true⟩⟩

/-- An address space that permits everything permits to execute every address. -/
theorem AddressSpace.permissionAt_unrestricted {addr : Nat} (inside : addr < 0x10000) :
    unrestricted.permissionAt addr = ⟨true, true, true⟩ := by
  rw [permissionAt_of_lt _ inside]
  exact Vector.getElem_replicate inside

/-- A bank whose image repeats one byte. -/
def LoadedBank.filled (b : Bank) (byte : UInt8) : LoadedBank :=
  ⟨b, some (Vector.replicate b.size byte)⟩

namespace BankSet

/-- The declared banks of a set, each with an image that repeats one byte. -/
def filled (set : BankSet) (fill : Bank → UInt8) : BankSet where
  banks := set.declared.map fun b => .filled b (fill b)
  layout := by
    rw [List.map_map]
    exact (congrArg Layout.check (List.map_id _)).trans set.layout

/-- Filling banks keeps their declarations. -/
theorem declared_filled (set : BankSet) (fill : Bank → UInt8) :
    (set.filled fill).declared = set.declared := by
  unfold declared filled
  rw [List.map_map]
  exact List.map_id _

/-- Every bank of a filled set is filled. -/
theorem eq_filled_of_mem {set : BankSet} {fill : Bank → UInt8} {b : LoadedBank}
    (member : b ∈ (set.filled fill).banks) : b = .filled b.toBank (fill b.toBank) := by
  obtain ⟨declared, _, rfl⟩ := List.mem_map.mp member
  rfl

/-- Two banks of a set with one name are declared alike. -/
theorem toBank_eq_of_name_eq {set : BankSet} {a b : LoadedBank} (first : a ∈ set.banks)
    (second : b ∈ set.banks) (names : a.name = b.name) : a.toBank = b.toBank := by
  have unique := (Layout.check_eq_ok_iff.mp set.layout).1
  exact List.inj_on_of_nodup_map unique (mem_declared first) (mem_declared second) names

end BankSet

/-- The bytes at a location of a filled bank repeat the one that fills it, up to the end of the
bank. -/
theorem Location.bytes_eq_of_filled {l : Location} {byte : UInt8}
    (filled : l.bank = .filled l.bank.toBank byte) (count : Nat) :
    l.bytes count = List.replicate (min count (l.bank.size - l.offset)) byte := by
  obtain ⟨b, offset⟩ := l
  dsimp only at filled ⊢
  have inside := offset.isLt
  have image : b.image = some (Vector.replicate b.size byte) := by
    rw [filled]
    rfl
  unfold bytes
  rw [image]
  dsimp only
  rw [Vector.toArray_replicate, Array.extract_replicate, Array.toList_replicate]
  congr 1
  omega

/-- The first byte at a location of a filled bank is the one that fills it. -/
theorem Location.bytes_of_filled {l : Location} {byte : UInt8}
    (filled : l.bank = .filled l.bank.toBank byte) : ∃ rest, l.bytes 3 = byte :: rest := by
  have inside := l.offset.isLt
  rw [bytes_eq_of_filled filled]
  cases room : min 3 (l.bank.size - l.offset) with
  | zero => omega
  | succ count => exact ⟨List.replicate count byte, rfl⟩

end BankTrace
