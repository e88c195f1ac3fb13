import BankTrace.Bank.Snapshot
import BankTrace.Cpu.Instruction
import BankTrace.Registry

/-!
# Journals

A journal keeps every instruction that some traversal has believed, by the snapshot and the address.
The number of a snapshot does not count. An instruction that is already there is not kept twice.
-/

namespace BankTrace

/-- The believed instructions of every snapshot that has been traversed. -/
structure Journal where
  /-- Snapshots, their numbers left out, with their instructions in the order of the visits. -/
  chapters : List (Snapshot × List Instruction) := []

namespace Journal

/-- The instructions of a list whose addresses are not among those of another list. -/
def unseen (known new : List Instruction) : List Instruction :=
  let addresses := Registry.ofList (known.map Instruction.address)
  new.filter fun insn => !addresses.contains insn.address

/-- Add instructions to the chapter of a snapshot. -/
def extend (snapshot : Snapshot) (insns : List Instruction) :
    List (Snapshot × List Instruction) → List (Snapshot × List Instruction)
  | [] => [(snapshot, insns)]
  | (s, known) :: rest =>
    if s = snapshot then (s, known ++ unseen known insns) :: rest
    else (s, known) :: extend snapshot insns rest

/-- Add the instructions of a traversal under a snapshot, one for each address. -/
def record (j : Journal) (snapshot : Snapshot) (insns : List Instruction) : Journal :=
  ⟨extend snapshot.unversioned insns j.chapters⟩

/-- All instructions with their snapshots. -/
def entries (j : Journal) : List (Snapshot × Instruction) :=
  j.chapters.flatMap fun (snapshot, insns) => insns.map fun insn => (snapshot, insn)

theorem mem_unseen {known new : List Instruction} {insn : Instruction} :
    insn ∈ unseen known new ↔
      insn ∈ new ∧ ∀ other ∈ known, other.address ≠ insn.address := by
  rw [unseen, List.mem_filter, Registry.contains_ofList]
  simp only [Bool.not_eq_true', decide_eq_false_iff_not, List.mem_map, not_exists, not_and]

end Journal

end BankTrace
