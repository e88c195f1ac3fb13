import BankTrace.Memory.Region
import BankTrace.Slice

/-!
# The address space

An address space gives every address a permission. It is built from regions in the order in which
they are declared: each one repaints the addresses that it covers, so the last one decides, and an
address that no region covers permits nothing. Questions about a number that is no address are
errors, except for the question whether a whole stretch may be executed, which is then answered
with no.
-/

namespace BankTrace

/-- The permission of every address. -/
structure AddressSpace where
  /-- The permissions in ascending order of the addresses. -/
  table : Vector Permission 0x10000

namespace AddressSpace

/-- The address space that permits nothing. -/
def closed : AddressSpace := ⟨Vector.replicate 0x10000 {}⟩

/-- Give the addresses of a region its permission. -/
def paint (space : AddressSpace) (region : Region) : AddressSpace :=
  ⟨space.table.mapIdx fun addr old => if region.covers addr then region.permission else old⟩

/-- The address space that regions declare, later ones over earlier ones. -/
def ofRegions (regions : List Region) : AddressSpace :=
  regions.foldl paint closed

/-- The address space of a table of bit masks, one for every address. -/
def ofFlags (flags : Array UInt8) : Except ConfigError AddressSpace :=
  if h : flags.size = 0x10000 then
    .ok ⟨⟨flags.map Permission.ofFlags, by simp [h]⟩⟩
  else .error (.tableLength flags.size)

/-- The permission of an address. -/
def permission (space : AddressSpace) (addr : Int) : Except Error Permission :=
  if h : 0 ≤ addr ∧ addr < 0x10000 then
    have : addr.toNat < 0x10000 := by omega
    .ok space.table[addr.toNat]
  else .error (.address addr)

/-- The address may be read. -/
def isReadable (space : AddressSpace) (addr : Int) : Except Error Bool :=
  (space.permission addr).map Permission.readable

/-- The address may be written. -/
def isWritable (space : AddressSpace) (addr : Int) : Except Error Bool :=
  (space.permission addr).map Permission.writable

/-- The address may be executed. -/
def isExecutable (space : AddressSpace) (addr : Int) : Except Error Bool :=
  (space.permission addr).map Permission.executable

/-- What may be done at a number: the permission of that address, and nothing where there is no
address. -/
def permissionAt (space : AddressSpace) (addr : Int) : Permission :=
  (space.permission addr).toOption.getD {}

/-- All of `count` addresses from `addr` on are inside the address space and may be executed. A
negative count asks for the slice that ends that far before `addr`. -/
def allExecutable (space : AddressSpace) (addr count : Int) : Bool :=
  if addr < 0 ∨ addr + count > addressCount then false
  else (Slice.between space.table.toArray addr (addr + count)).all Permission.executable

/-- Some of the addresses passes a test; the first one that does ends the search. -/
def anyAddress (test : Int → Except Error Bool) : List Int → Except Error Bool
  | [] => .ok false
  | addr :: rest => do
    if ← test addr then return true
    anyAddress test rest

/-- Some of the addresses may be read. -/
def anyReadable (space : AddressSpace) (addrs : List Int) : Except Error Bool :=
  anyAddress space.isReadable addrs

/-- Some of the addresses may be written. -/
def anyWritable (space : AddressSpace) (addrs : List Int) : Except Error Bool :=
  anyAddress space.isWritable addrs

/-- The number of addresses that may be executed. -/
def executableCount (space : AddressSpace) : Nat :=
  space.table.countP Permission.executable

/-- The bit masks of all addresses in ascending order. -/
def flags (space : AddressSpace) : Array UInt8 :=
  (space.table.map Permission.flags).toArray

end AddressSpace

end BankTrace
