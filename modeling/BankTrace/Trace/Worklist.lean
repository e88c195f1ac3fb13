import BankTrace.Trace.Settings

/-!
# Worklists

The addresses that wait for a visit. New ones come to one end; the order says from which end the
next one is taken. Where several workers take addresses, any of them may be visited first.
-/

namespace BankTrace

/-- Waiting addresses. -/
structure Worklist where
  /-- The end that addresses are taken from. -/
  order : Order
  /-- The addresses that are taken first, the next one in front. -/
  front : List Int
  /-- The addresses behind them, the last one in front. -/
  back : List Int

namespace Worklist

/-- The waiting addresses, the next one first. -/
def toList (w : Worklist) : List Int := w.front ++ w.back.reverse

/-- The number of waiting addresses. -/
def size (w : Worklist) : Nat := w.front.length + w.back.length

/-- Add addresses in their order. -/
def push (w : Worklist) (addrs : List Int) : Worklist :=
  match w.order with
  | .fifo => { w with back := addrs.reverse ++ w.back }
  | .lifo => { w with front := addrs.reverse ++ w.front }

/-- The worklist of addresses that come in their order. -/
def ofList (order : Order) (addrs : List Int) : Worklist := push ⟨order, [], []⟩ addrs

/-- The next address and those that still wait. -/
def pop? (w : Worklist) : Option (Int × Worklist) :=
  match w.front with
  | addr :: rest => some (addr, { w with front := rest })
  | [] =>
    match w.back.reverse with
    | addr :: rest => some (addr, ⟨w.order, rest, []⟩)
    | [] => none

/-- An address that waits behind so many others, counted around where there are not so many, and
those that wait on. -/
def take? (w : Worklist) : Nat → Option (Int × Worklist)
  | 0 => w.pop?
  | passed + 1 =>
    let index := (passed + 1) % w.size
    w.toList[index]?.map fun addr => (addr, ⟨w.order, w.toList.eraseIdx index, []⟩)

@[simp] theorem length_toList (w : Worklist) : w.toList.length = w.size := by
  simp [toList, size]

/-- Nothing is taken from a worklist only when nothing waits. -/
theorem pop?_eq_none_iff {w : Worklist} : w.pop? = none ↔ w.toList = [] := by
  unfold pop? toList
  cases hf : w.front with
  | cons addr rest => simp
  | nil => cases hb : w.back.reverse <;> simp

/-- What is taken is the first of the waiting addresses; the others stay in their order. -/
theorem toList_of_pop? {w rest : Worklist} {addr : Int} (h : w.pop? = some (addr, rest)) :
    w.toList = addr :: rest.toList ∧ rest.order = w.order := by
  unfold pop? at h
  unfold toList
  cases hf : w.front with
  | cons first others => simp_all; grind
  | nil =>
    cases hb : w.back.reverse with
    | nil => simp_all
    | cons first others =>
      simp only [hf, hb, Option.some.injEq, Prod.mk.injEq] at h
      obtain ⟨rfl, rfl⟩ := h
      simp

/-- With nothing passed over, the first of the waiting addresses is taken. -/
@[simp] theorem take?_zero (w : Worklist) : w.take? 0 = w.pop? := rfl

/-- Nothing is taken, whatever is passed over, only when nothing waits. -/
theorem take?_eq_none_iff {w : Worklist} {passed : Nat} :
    w.take? passed = none ↔ w.toList = [] := by
  cases passed with
  | zero => exact pop?_eq_none_iff
  | succ passed =>
    rw [take?, Option.map_eq_none_iff, List.getElem?_eq_none_iff, length_toList]
    constructor
    · intro beyond
      rw [← List.length_eq_zero_iff, length_toList]
      apply Nat.eq_zero_of_not_pos
      intro positive
      have inside := Nat.mod_lt (passed + 1) positive
      omega
    · intro empty
      have none : w.size = 0 := by rw [← length_toList, empty, List.length_nil]
      omega

/-- The address that waits longest comes first, so new addresses go behind the others. -/
theorem toList_push_fifo {w : Worklist} (h : w.order = .fifo) (addrs : List Int) :
    (w.push addrs).toList = w.toList ++ addrs := by
  simp [push, toList, h]

/-- The address that came last comes first, so new addresses go in front, the last one first. -/
theorem toList_push_lifo {w : Worklist} (h : w.order = .lifo) (addrs : List Int) :
    (w.push addrs).toList = addrs.reverse ++ w.toList := by
  simp [push, toList, h]

end Worklist

end BankTrace
