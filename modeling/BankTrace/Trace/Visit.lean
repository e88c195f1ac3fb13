import BankTrace.Trace.Policy
import BankTrace.Trace.Sweep

/-!
# Visits

A visit looks at one address and finds an instruction there or not. What it finds depends on the
setting of the traversal and on the address; that an address has been visited before is known from
the claims. The marks of a traversal have no influence on it: what counts is the log as it was last
read.
-/

namespace BankTrace

/-- What stays the same while addresses are visited. -/
structure Scene where
  /-- The permissions. -/
  space : AddressSpace
  /-- What is mapped. -/
  map : MemoryMap
  /-- What is believed. -/
  settings : Settings
  /-- The log as it was last read. -/
  log : Cdl.Store
  /-- Addresses of instructions that are believed without a check. -/
  trusted : Registry Int

/-- What a visit found. -/
inductive Outcome where
  /-- There is nothing to execute at the address. -/
  | discarded
  /-- The address has been visited. -/
  | skipped
  /-- There is no instruction at the location. -/
  | undecodable (location : Location) (error : Error)
  /-- The instruction at the location is not believed. -/
  | refused (location : Location) (insn : Instruction) (reason : Refusal)
  /-- The instruction at the location is believed, and execution goes on at the successors. -/
  | accepted (location : Location) (insn : Instruction) (warnings : List Event)
    (successors : List Int)

namespace Outcome

/-- The location that the visit claims. -/
def location? : Outcome → Option Location
  | discarded | skipped => none
  | undecodable location _ | refused location .. | accepted location .. => some location

/-- The position that the visit claims. -/
def claim? (o : Outcome) : Option Cdl.Position := o.location?.map Location.position

/-- The instruction that was read. -/
def instruction? : Outcome → Option Instruction
  | refused _ insn _ | accepted _ insn .. => some insn
  | _ => none

/-- The instruction that is believed. -/
def accepted? : Outcome → Option Instruction
  | accepted _ insn .. => some insn
  | _ => none

/-- The instruction that is not believed, with the reason. -/
def refused? : Outcome → Option (Instruction × Refusal)
  | refused _ insn reason => some (insn, reason)
  | _ => none

/-- Where execution goes on. -/
def successors : Outcome → List Int
  | accepted _ _ _ addrs => addrs
  | _ => []

/-- What is worth a line to the user. -/
def events : Outcome → List Event
  | undecodable _ error => [.undecodable error]
  | refused _ insn reason => [.refused insn reason]
  | accepted _ _ warnings _ => warnings
  | _ => []

/-- There was nothing to execute. -/
def isDiscarded : Outcome → Bool
  | discarded => true
  | _ => false

/-- The address had been visited. -/
def isSkipped : Outcome → Bool
  | skipped => true
  | _ => false

/-- There was no instruction. -/
def isUndecodable : Outcome → Bool
  | undecodable .. => true
  | _ => false

end Outcome

/-- An address and what a visit found there. -/
structure Visit where
  address : Int
  outcome : Outcome

namespace Scene

/-- A log byte says data and not code. -/
def isKnownData (byte : UInt8) : Bool := Cdl.hasAny Cdl.data byte && !Cdl.hasAny Cdl.code byte

/-- The location of an address where an instruction may be: mapped to a bank with an image,
executable, and not known to be data. -/
def candidate? (scene : Scene) (addr : Int) : Option Location :=
  (scene.map.resolve addr).filter fun location =>
    location.bank.isAnalyzable && (scene.space.permissionAt addr).executable &&
      !isKnownData (scene.log.loadedAt location.position)

/-- Why the instruction at an address is not believed. -/
def refusal? (scene : Scene) (addr : Int) (insn : Instruction) (bank : String) : Option Refusal :=
  if scene.trusted.contains addr then none
  else Policy.check scene.settings scene.space scene.map insn bank

/-- Read the instruction at an address and its location. -/
def inspect (scene : Scene) (addr : Int) (location : Location) : Outcome :=
  match Instruction.decode (location.bytes 3) addr (some scene.space) with
  | .error e => .undecodable location e
  | .ok insn =>
    match scene.refusal? addr insn location.bank.name with
    | some reason => .refused location insn reason
    | none =>
      let (warnings, successors) := insn.successors scene.map
      .accepted location insn warnings successors

/-- Visit an address, given the positions that are claimed. -/
def visit (scene : Scene) (claims : Registry Cdl.Position) (addr : Int) : Outcome :=
  match scene.candidate? addr with
  | none => .discarded
  | some location =>
    if claims.contains location.position then .skipped else scene.inspect addr location

end Scene

end BankTrace
