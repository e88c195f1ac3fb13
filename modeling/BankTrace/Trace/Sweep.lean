import BankTrace.Cdl.Store
import BankTrace.MemoryMap

/-!
# Sweeps

A log file that was read from disk marks whole instructions as code, but not where each of them
starts. A sweep recovers the starts: from the first byte of every stretch of code it goes on by the
length of the instruction that it finds, up to the end of the stretch.
-/

namespace BankTrace

namespace LoadedBank

/-- The byte at an offset of the image, zero without an image. -/
def byte (b : LoadedBank) (offset : Nat) : UInt8 :=
  match b.image with
  | some image => image.toArray.getD offset 0
  | none => 0

/-- The addresses of the instructions from one offset up to another. -/
def sweep (b : LoadedBank) (offset stop : Nat) : List Int :=
  if offset < stop then
    ((b.start + offset : Nat) : Int) :: b.sweep (offset + Opcode.length (b.byte offset)) stop
  else []
termination_by stop - offset
decreasing_by
  have := Opcode.length_pos (b.byte offset)
  omega

/-- The addresses of the instructions in the code that the log had when it was read. -/
def loadedStarts (b : LoadedBank) (store : Cdl.Store) : Except Error (List Int) := do
  let runs ← store.loadedRuns b.cdl Cdl.code b.cdlOffset b.size
  return runs.flatMap fun (offset, length) =>
    b.sweep (offset - b.cdlOffset) (offset - b.cdlOffset + length)

end LoadedBank

namespace MemoryMap

/-- The addresses of the instructions in the loaded code of all mapped banks with an image. -/
def loadedStarts (map : MemoryMap) (store : Cdl.Store) : Except Error (List Int) := do
  let starts ← (map.activeBanks.filter LoadedBank.isAnalyzable).mapM fun b => b.loadedStarts store
  return starts.flatten

end MemoryMap

end BankTrace
