import BankTrace.Trace.Visit
import BankTrace.Trace.Worklist

/-!
# Traversals

A traversal visits the waiting addresses one after the other; those where execution goes on behind a
believed instruction wait in their turn. It ends when nothing waits, or early when it has made as
many steps as it may. Every instruction claims its position, and there is one position for every
address, so there is an allowance of steps that no traversal uses up.

One worker takes the addresses in the order of the worklist. Several workers take them in that order
as well, but one may be held up with its address while others go on, so that the next visit can be
that of any address. As a position is claimed by one of them only, their visits have the effect of
visits that are made one after the other.
-/

namespace BankTrace

/-- How far a traversal has come. -/
structure Traversal where
  /-- The addresses that wait. -/
  waiting : Worklist
  /-- The positions that are claimed. -/
  claims : Registry Cdl.Position := .empty
  /-- The visits so far, the last one in front. -/
  visits : List Visit := []

/-- What decides on the next visit, given those so far, the last one in front: how many of the
waiting addresses are passed over. -/
def Schedule : Type := List Visit → Nat

namespace Schedule

/-- The order of the worklist. -/
def inOrder : Schedule := fun _ => 0

/-- In the order of the worklist the next address is taken. -/
theorem take?_inOrder (w : Worklist) (visits : List Visit) :
    w.take? (inOrder visits) = w.pop? := rfl

/-- The order of the visits of so many workers: a single one keeps to that of the worklist. -/
def ofWorkers (schedule : Schedule) (workers : Int) : Schedule :=
  if workers = 1 then inOrder else schedule

end Schedule

namespace Traversal

/-- Visit an address; `rest` is what waits behind it. -/
def visit (scene : Scene) (addr : Int) (rest : Worklist) : Traversal → Traversal
  | ⟨_, claims, visits⟩ =>
    let outcome := scene.visit claims addr
    { waiting := rest.push outcome.successors
      claims :=
        match outcome.claim? with
        | some position => claims.insert position
        | none => claims
      visits := ⟨addr, outcome⟩ :: visits }

/-- Visit addresses as long as any wait, and at most as many as the allowance says. -/
def advance (scene : Scene) (schedule : Schedule) : (allowance : Nat) → Traversal → Traversal
  | 0, t => t
  | allowance + 1, t =>
    match t.waiting.take? (schedule t.visits) with
    | none => t
    | some (addr, rest) => advance scene schedule allowance (t.visit scene addr rest)

/-- More steps than a traversal from `starts` addresses can make: each address is believed to hold
an instruction once at most, and is followed by two others at most. -/
def ceiling (starts : Nat) : Nat := starts + 2 * addressCount + 1

/-- The traversal from addresses, up to a limit of steps if there is one. -/
def run (scene : Scene) (order : Order) (schedule : Schedule) (starts : List Int)
    (limit : Option Int) : Traversal :=
  advance scene schedule ((limit.map Int.toNat).getD (ceiling starts.length))
    { waiting := Worklist.ofList order starts }

/-- Some addresses still wait. -/
def isUnfinished (t : Traversal) : Bool := t.waiting.size ≠ 0

/-- The outcomes in the order of the visits. -/
def outcomes (t : Traversal) : List Outcome := t.visits.reverse.map Visit.outcome

end Traversal

end BankTrace
