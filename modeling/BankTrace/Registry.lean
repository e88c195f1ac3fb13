import Std.Data.ExtHashSet

/-!
# Registries

A registry keeps values, each of them once, and tells quickly whether a value has been entered. Two
registries with the same values are equal, whatever was entered first.
-/

namespace BankTrace

/-- The values that have been entered. -/
structure Registry (α : Type) [DecidableEq α] [Hashable α] where
  /-- The values as a set. -/
  values : Std.ExtHashSet α

namespace Registry

variable {α : Type} [DecidableEq α] [Hashable α]

/-- The registry without values. -/
def empty : Registry α := ⟨∅⟩

/-- The value has been entered. -/
def contains (r : Registry α) (a : α) : Bool := r.values.contains a

/-- Enter a value, which may be there already. -/
def insert (r : Registry α) (a : α) : Registry α := ⟨r.values.insert a⟩

/-- The number of different values. -/
def size (r : Registry α) : Nat := r.values.size

/-- The values of a list. -/
def ofList (values : List α) : Registry α := ⟨.ofList values⟩

@[simp] theorem contains_empty (a : α) : (empty : Registry α).contains a = false := by
  simp [empty, contains]

/-- Entering a value adds that value and no other. -/
theorem contains_insert (r : Registry α) (a b : α) :
    (r.insert a).contains b = (decide (b = a) || r.contains b) := by
  unfold insert contains
  rw [Std.ExtHashSet.contains_insert]
  by_cases h : b = a
  · simp [h]
  · simp [h, Ne.symm h]

@[simp] theorem size_empty : (empty : Registry α).size = 0 := by simp [empty, size]

/-- A value counts once, however often it is entered. -/
theorem size_insert (r : Registry α) (a : α) :
    (r.insert a).size = if r.contains a then r.size else r.size + 1 := by
  unfold insert contains size
  rw [Std.ExtHashSet.size_insert]
  simp only [Std.ExtHashSet.contains_iff_mem]

theorem contains_ofList (values : List α) (a : α) :
    (ofList values).contains a = decide (a ∈ values) := by
  unfold ofList contains
  rw [Std.ExtHashSet.contains_ofList, List.contains_eq_mem]

end Registry

end BankTrace
