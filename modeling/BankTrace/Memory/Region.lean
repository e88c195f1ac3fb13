import BankTrace.Error

/-!
# Permissions and regions

A permission says whether an address may be read, written and executed. A region gives one
permission to a stretch of the address space; its bounds are checked when it is made, so a region
always lies inside the address space and is never empty.
-/

namespace BankTrace

/-- The number of addresses that the processor has. -/
def addressCount : Nat := 0x10000

/-- The address that the processor sees when a sum runs past either end of the address space. -/
def wrapAddress (addr : Int) : Int := addr % 0x10000

/-- What may be done at an address. -/
structure Permission where
  readable : Bool := false
  writable : Bool := false
  executable : Bool := false
  deriving DecidableEq, Inhabited

namespace Permission

/-- The permission as a bit mask: reading is bit 0, writing bit 1 and executing bit 2. -/
def flags (p : Permission) : UInt8 :=
  (if p.readable then 1 else 0) ||| (if p.writable then 2 else 0) |||
    (if p.executable then 4 else 0)

/-- The permission that a bit mask stands for; the other bits mean nothing. -/
def ofFlags (flags : UInt8) : Permission where
  readable := flags &&& 1 != 0
  writable := flags &&& 2 != 0
  executable := flags &&& 4 != 0

/-- The bit mask of a permission stands for that permission. -/
theorem ofFlags_flags (p : Permission) : ofFlags p.flags = p := by
  rcases p with ⟨_ | _, _ | _, _ | _⟩ <;> decide

end Permission

/-- A stretch of the address space with one permission. -/
structure Region where
  /-- The first address. -/
  start : Nat
  /-- The number of addresses. -/
  size : Nat
  /-- What may be done at each of them. -/
  permission : Permission
  /-- A region is not empty. -/
  size_pos : 0 < size
  /-- A region ends inside the address space. -/
  end_le : start + size ≤ addressCount

namespace Region

/-- The region with the given bounds, or the first rule that they break: the start is an address,
the length is positive, and the end is not behind the last address. -/
def ofBounds (start size : Int) (permission : Permission) : Except ConfigError Region :=
  if inside : 0 ≤ start ∧ start < addressCount then
    if positive : 1 ≤ size then
      if fits : start + size ≤ addressCount then
        .ok ⟨start.toNat, size.toNat, permission, by omega, by omega⟩
      else .error (.regionEnd start size)
    else .error (.regionLength start size)
  else .error (.regionStart start)

/-- The region covers the address. -/
def covers (r : Region) (addr : Nat) : Bool :=
  r.start ≤ addr && addr < r.start + r.size

end Region

end BankTrace
