import BankTrace.Proofs.Cdl.Marks
import BankTrace.Proofs.Cpu.Decoding
import BankTrace.Trace.Visit

/-!
# What a visit finds

A scene accepts an instruction at an address for reasons that are independent of visits and claims:
where the address lies, what may be executed, what the log said when it was read, what the bytes
are and what is believed. A visit to an address that has not been claimed finds an instruction
worth following exactly when the scene accepts it there.
-/

namespace BankTrace

namespace Instruction

/-- Execution goes on at two addresses at most. -/
theorem length_successors_le (map : MemoryMap) (insn : Instruction) :
    (insn.successors map).2.length ≤ 2 := by
  unfold successors staticSuccessors?
  cases flow : insn.flow with
  | next =>
    dsimp only
    split <;> simp
  | branch target behind => simp
  | call target behind => simp
  | jump target => simp
  | back => simp
  | interruptReturn => simp
  | halt => simp
  | indirectJump pointer =>
    cases insn.pointerWraps with
    | true => simp
    | false =>
      simp only [loadedSuccessors, flow]
      cases map.readWord pointer <;> simp
  | softwareInterrupt =>
    simp only [loadedSuccessors, flow]
    cases (map.readVector Interrupt.irq.vector).2 <;> simp

end Instruction

/-- Under a snapshot that the banks admit the policy is that of its memory map. -/
theorem Policy.checkUnder_of_valid {set : BankSet} {snapshot : Snapshot} {map : MemoryMap}
    (valid : MemoryMap.ofSnapshot set snapshot = .ok map) (settings : Settings)
    (space : AddressSpace) (insn : Instruction) (bank : String) :
    checkUnder settings space set snapshot insn bank =
      .ok (check settings space map insn bank) := by
  unfold checkUnder check
  cases refusedAlone settings space insn with
  | some reason => rfl
  | none =>
    dsimp only
    cases settings.checkFallthrough with
    | false => rfl
    | true =>
      unfold staysInBank
      cases sequel? insn with
      | none => rfl
      | some addr =>
        simp only [Option.all_some, if_true]
        by_cases inside : 0 ≤ addr ∧ addr < addressCount
        · rw [if_pos inside, valid]
          by_cases lies : liesIn map bank addr = true
          · simp [lies, bind, Except.bind, pure, Except.pure]
          · simp [lies, bind, Except.bind, pure, Except.pure]
        · have outside : liesIn map bank addr = false := by
            rw [Bool.eq_false_iff]
            intro lies
            unfold liesIn at lies
            simp only [Bool.and_eq_true, decide_eq_true_eq] at lies
            exact inside lies.1
          simp [inside, outside]

namespace Outcome

/-- The believed instruction is that of the visit that accepted it. -/
theorem accepted?_eq_some_iff {o : Outcome} {insn : Instruction} :
    o.accepted? = some insn ↔
      ∃ location warnings successors, o = .accepted location insn warnings successors := by
  constructor
  · intro believed
    cases o with
    | accepted location other warnings successors =>
      obtain rfl := Option.some.inj believed
      exact ⟨location, warnings, successors, rfl⟩
    | discarded => contradiction
    | skipped => contradiction
    | undecodable => contradiction
    | refused => contradiction
  · rintro ⟨location, warnings, successors, rfl⟩
    rfl

/-- Where no instruction is believed, execution goes on nowhere. -/
theorem successors_of_accepted?_eq_none {o : Outcome} (unbelieved : o.accepted? = none) :
    o.successors = [] := by
  cases o with
  | accepted => contradiction
  | discarded => rfl
  | skipped => rfl
  | undecodable => rfl
  | refused => rfl

end Outcome

namespace Scene

/-- The instruction at an address is believed. -/
structure Accepts (scene : Scene) (addr : Int) (location : Location) (insn : Instruction) :
    Prop where
  /-- The address lies in a mapped bank. -/
  resolved : scene.map.resolve addr = some location
  /-- The bank has an image. -/
  analyzable : location.bank.isAnalyzable = true
  /-- The address may be executed. -/
  executable : (scene.space.permissionAt addr).executable = true
  /-- The byte was not read as data alone. -/
  notData : isKnownData (scene.log.loadedAt location.position) = false
  /-- There is an instruction. -/
  decoded : Instruction.decode (location.bytes 3) addr (some scene.space) = .ok insn
  /-- The address is trusted, or the policy has nothing against the instruction. -/
  believed : scene.trusted.contains addr = true ∨
    Policy.check scene.settings scene.space scene.map insn location.bank.name = none

/-- An address has a candidate where it lies in a mapped bank with an image, may be executed and is
not known to be data. -/
theorem candidate?_eq_some_iff {scene : Scene} {addr : Int} {location : Location} :
    scene.candidate? addr = some location ↔
      scene.map.resolve addr = some location ∧ location.bank.isAnalyzable = true ∧
        (scene.space.permissionAt addr).executable = true ∧
          isKnownData (scene.log.loadedAt location.position) = false := by
  unfold candidate?
  rw [Option.filter_eq_some_iff]
  simp only [Bool.and_eq_true, Bool.not_eq_true', and_assoc]

/-- Whatever is found at a location, the visit claims the location. -/
theorem location?_inspect (scene : Scene) (addr : Int) (location : Location) :
    (scene.inspect addr location).location? = some location := by
  unfold inspect
  split
  · rfl
  · split <;> rfl

/-- Whatever is found at a location, the visit claims the position of the location. -/
theorem claim?_inspect (scene : Scene) (addr : Int) (location : Location) :
    (scene.inspect addr location).claim? = some location.position := by
  unfold Outcome.claim?
  rw [location?_inspect]
  rfl

/-- An instruction is not refused when its address is trusted or the policy has nothing against
it. -/
theorem refusal?_eq_none_iff {scene : Scene} {addr : Int} {insn : Instruction} {bank : String} :
    scene.refusal? addr insn bank = none ↔ scene.trusted.contains addr = true ∨
      Policy.check scene.settings scene.space scene.map insn bank = none := by
  unfold refusal?
  split
  case isTrue trusted => simp [trusted]
  case isFalse untrusted => simp [untrusted]

/-- An instruction is found and believed at a location when it can be read there and is not
refused. -/
theorem inspect_eq_accepted_iff {scene : Scene} {addr : Int} {location found : Location}
    {insn : Instruction} {warnings : List Event} {successors : List Int} :
    scene.inspect addr location = .accepted found insn warnings successors ↔
      found = location ∧ insn.successors scene.map = (warnings, successors) ∧
        Instruction.decode (location.bytes 3) addr (some scene.space) = .ok insn ∧
          scene.refusal? addr insn location.bank.name = none := by
  unfold inspect
  cases read : Instruction.decode (location.bytes 3) addr (some scene.space) with
  | error e => simp
  | ok other =>
    cases refused : scene.refusal? addr other location.bank.name with
    | some reason =>
      dsimp only
      rw [refused]
      simp only [reduceCtorEq, Except.ok.injEq, false_iff, not_and]
      rintro - - rfl
      rw [refused]
      exact Option.some_ne_none reason
    | none =>
      dsimp only
      rw [refused]
      simp only [Outcome.accepted.injEq, Except.ok.injEq]
      constructor
      · rintro ⟨rfl, rfl, rfl, rfl⟩
        exact ⟨rfl, rfl, rfl, refused⟩
      · rintro ⟨rfl, goesOn, rfl, _⟩
        exact ⟨rfl, rfl, by rw [goesOn], by rw [goesOn]⟩

/-- A scene accepts what an inspection of a candidate believes. -/
theorem accepts_iff {scene : Scene} {addr : Int} {location : Location} {insn : Instruction} :
    scene.Accepts addr location insn ↔
      scene.candidate? addr = some location ∧
        scene.inspect addr location = .accepted location insn (insn.successors scene.map).1
          (insn.successors scene.map).2 := by
  rw [candidate?_eq_some_iff, inspect_eq_accepted_iff, refusal?_eq_none_iff]
  constructor
  · intro accepted
    exact ⟨⟨accepted.resolved, accepted.analyzable, accepted.executable, accepted.notData⟩,
      rfl, rfl, accepted.decoded, accepted.believed⟩
  · rintro ⟨⟨resolved, analyzable, executable, notData⟩, -, -, decoded, believed⟩
    exact ⟨resolved, analyzable, executable, notData, decoded, believed⟩

/-- An accepted instruction is at its address. -/
theorem Accepts.address_eq {scene : Scene} {addr : Int} {location : Location} {insn : Instruction}
    (accepted : scene.Accepts addr location insn) : insn.address = addr :=
  (Instruction.decode_eq_ok_iff.mp accepted.decoded).1

/-- At one address one instruction is accepted. -/
theorem Accepts.unique {scene : Scene} {addr : Int} {location other : Location}
    {insn second : Instruction} (accepted : scene.Accepts addr location insn)
    (again : scene.Accepts addr other second) : location = other ∧ insn = second := by
  have places := accepted.resolved.symm.trans again.resolved
  obtain rfl := Option.some.inj places
  have reads := accepted.decoded.symm.trans again.decoded
  exact ⟨rfl, Except.ok.inj reads⟩

/-- A visit finds no candidate, or a claimed one, or it inspects the candidate. -/
theorem visit_cases (scene : Scene) (claims : Registry Cdl.Position) (addr : Int) :
    scene.candidate? addr = none ∧ scene.visit claims addr = .discarded ∨
      ∃ location, scene.candidate? addr = some location ∧
        (claims.contains location.position = true ∧ scene.visit claims addr = .skipped ∨
          claims.contains location.position = false ∧
            scene.visit claims addr = scene.inspect addr location) := by
  unfold visit
  cases scene.candidate? addr with
  | none => exact .inl ⟨rfl, rfl⟩
  | some location =>
    right
    refine ⟨location, rfl, ?_⟩
    cases seen : claims.contains location.position with
    | true => exact .inl ⟨rfl, by simp [seen]⟩
    | false => exact .inr ⟨rfl, by simp [seen]⟩

/-- A claimed candidate is skipped. -/
theorem visit_of_claimed {scene : Scene} {claims : Registry Cdl.Position} {addr : Int}
    {location : Location} (candidate : scene.candidate? addr = some location)
    (claimed : claims.contains location.position = true) :
    scene.visit claims addr = .skipped := by
  unfold visit
  rw [candidate]
  dsimp only
  rw [if_pos claimed]

/-- A candidate that is not claimed is inspected. -/
theorem visit_of_unclaimed {scene : Scene} {claims : Registry Cdl.Position} {addr : Int}
    {location : Location} (candidate : scene.candidate? addr = some location)
    (free : claims.contains location.position = false) :
    scene.visit claims addr = scene.inspect addr location := by
  unfold visit
  rw [candidate]
  dsimp only
  rw [free, if_neg Bool.false_ne_true]

/-- Of the log only the loaded bytes count for candidates. -/
theorem candidate?_with_log (scene : Scene) {log : Cdl.Store}
    (same : ∀ p, log.loadedAt p = scene.log.loadedAt p) (addr : Int) :
    ({ scene with log } : Scene).candidate? addr = scene.candidate? addr := by
  unfold candidate?
  simp only [same]

/-- Of the log only the loaded bytes count for visits. -/
theorem visit_with_log (scene : Scene) {log : Cdl.Store}
    (same : ∀ p, log.loadedAt p = scene.log.loadedAt p) (claims : Registry Cdl.Position)
    (addr : Int) :
    ({ scene with log } : Scene).visit claims addr = scene.visit claims addr := by
  unfold visit
  rw [candidate?_with_log scene same]
  rfl

end Scene

end BankTrace
