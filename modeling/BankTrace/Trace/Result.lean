import BankTrace.Trace.Traversal

/-!
# Results

The result of a traversal is where it started, what it visited, and whether it ended early. All
counts follow from the visits.
-/

namespace BankTrace

/-- What a traversal did. -/
structure Result where
  /-- What was mapped. -/
  snapshot : Snapshot
  /-- The handlers and the further addresses that it started from. -/
  seeds : List Int
  /-- The addresses from the loaded log that it started from. -/
  loadedSeeds : List Int
  /-- The visits in their order. -/
  visits : List Visit
  /-- Addresses still waited when it ended. -/
  limitReached : Bool

namespace Result

/-- What the visits found, in their order. -/
def outcomes (r : Result) : List Outcome := r.visits.map Visit.outcome

/-- The number of visits. -/
def steps (r : Result) : Nat := r.visits.length

/-- The believed instructions in the order of the visits. -/
def instructions (r : Result) : List Instruction := r.outcomes.filterMap Outcome.accepted?

/-- The instructions that are not believed, each with the reason, in the order of the visits. -/
def refusals (r : Result) : List (Instruction × Refusal) := r.outcomes.filterMap Outcome.refused?

/-- The number of instructions that were read. -/
def decoded (r : Result) : Nat := (r.outcomes.filterMap Outcome.instruction?).length

/-- The number of believed instructions. -/
def accepted (r : Result) : Nat := r.instructions.length

/-- The number of instructions that are not believed. -/
def rejected (r : Result) : Nat := r.refusals.length

/-- The number of visits to an address that had been visited. -/
def skipped (r : Result) : Nat := r.outcomes.countP Outcome.isSkipped

/-- The number of visits that found nothing to execute. -/
def discarded (r : Result) : Nat := r.outcomes.countP Outcome.isDiscarded

/-- The number of visits that found no instruction. -/
def decodeErrors (r : Result) : Nat := r.outcomes.countP Outcome.isUndecodable

/-- The lines that the visits are worth, in their order. -/
def events (r : Result) : List Event := r.outcomes.flatMap Outcome.events

end Result

end BankTrace
