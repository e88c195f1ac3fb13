import BankTrace.Bank.Basic

/-!
# Layouts

A list of banks is a layout when every name stands for one bank and no fixed bank shares an address
with another bank: then the fixed banks can be mapped together, and each of them beside any
switchable bank.
-/

namespace BankTrace.Layout

/-- Every name stands for one bank; `seen` are the names further in front. -/
def checkNames (seen : List String) : List Bank → Except ConfigError Unit
  | [] => .ok ()
  | b :: rest =>
    if b.name ∈ seen then .error (.duplicateBank b.name) else checkNames (b.name :: seen) rest

/-- Two banks can be declared together: they share no address or are both switchable. -/
def compatible (a b : Bank) : Bool := !((a.fixed || b.fixed) && a.overlaps b)

/-- The first pair of banks that cannot be declared together. -/
def firstConflict : List Bank → Option (Bank × Bank)
  | [] => none
  | a :: rest =>
    match rest.find? fun b => !compatible a b with
    | some b => some (a, b)
    | none => firstConflict rest

/-- The banks form a layout, or the first rule that they break. -/
def check (banks : List Bank) : Except ConfigError Unit :=
  match checkNames [] banks with
  | .error e => .error e
  | .ok _ =>
    match firstConflict banks with
    | some (a, b) => .error (.fixedOverlap a.name b.name)
    | none => .ok ()

/-- Names are checked against those in front and against each other. -/
theorem checkNames_eq_ok_iff {seen : List String} {banks : List Bank} :
    checkNames seen banks = .ok () ↔
      (banks.map Bank.name).Nodup ∧ ∀ b ∈ banks, b.name ∉ seen := by
  induction banks generalizing seen with
  | nil => simp [checkNames]
  | cons b rest ih =>
    by_cases h : b.name ∈ seen
    · simp [checkNames, h]
    · simp only [checkNames, h, if_false, ih, List.map_cons, List.nodup_cons, List.mem_map,
        List.mem_cons, not_or, forall_eq_or_imp, not_exists, not_and]
      grind

/-- There is no conflict when all pairs are compatible. -/
theorem firstConflict_eq_none_iff {banks : List Bank} :
    firstConflict banks = none ↔ banks.Pairwise fun a b => compatible a b := by
  induction banks with
  | nil => simp [firstConflict]
  | cons a rest ih =>
    simp only [firstConflict, List.pairwise_cons]
    cases h : rest.find? fun b => !compatible a b with
    | none => simp_all [List.find?_eq_none]
    | some b =>
      have := List.find?_some h
      have := List.mem_of_find?_eq_some h
      simp only [reduceCtorEq, false_iff, not_and]
      intro all
      simp_all

/-- The rules of a layout in one statement. -/
theorem check_eq_ok_iff {banks : List Bank} :
    check banks = .ok () ↔
      (banks.map Bank.name).Nodup ∧ banks.Pairwise fun a b => compatible a b := by
  unfold check
  have names := @checkNames_eq_ok_iff [] banks
  simp only [List.not_mem_nil, not_false_eq_true, implies_true, and_true] at names
  cases h : checkNames [] banks with
  | error e => simp_all
  | ok u =>
    rw [← firstConflict_eq_none_iff]
    cases hc : firstConflict banks <;> simp_all

end BankTrace.Layout
