/-!
# Slices

A slice asks for the elements from one bound up to another. A negative bound counts from the end,
and a bound outside the sequence stands for its nearer end, so every pair of integers selects a
stretch, which may be empty.
-/

namespace BankTrace.Slice

/-- The position that a bound means in a sequence of `length` elements. -/
def position (length : Nat) (bound : Int) : Nat :=
  if bound < 0 then (bound + length).toNat else min bound.toNat length

/-- The elements from `first` up to `last`. -/
def between {α : Type} (xs : Array α) (first last : Int) : Array α :=
  xs.extract (position xs.size first) (position xs.size last)

/-- A bound inside the sequence is its own position. -/
theorem position_of_le {length bound : Nat} (h : bound ≤ length) :
    position length bound = bound := by
  have : ¬(bound : Int) < 0 := by omega
  simp [position, this, Nat.min_eq_left h]

/-- A bound means a position of the sequence or its end. -/
theorem position_le (length : Nat) (bound : Int) : position length bound ≤ length := by
  unfold position
  split <;> omega

end BankTrace.Slice
