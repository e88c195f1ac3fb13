import BankTrace.Proofs.Cpu.Encodings
import BankTrace.Proofs.Cpu.Transfers
import BankTrace.Proofs.Trace.Checked
import BankTrace.Proofs.Trace.Run

/-!
# What a visit asks for

A checked visit requests the permission of its address, the byte of the log, the bytes of the
instruction, the permissions that the policy asks for and the words that tell where execution goes
on, and it marks the log by a request. At an address, in a store that was made for the banks, none
of them is refused: the operands that the policy looks at are addresses, the bytes of an instruction
are in its bank, and so are the bytes that it marks. Execution goes on at addresses only.
-/

namespace BankTrace

namespace Checked

/-! ## The policy -/

/-- There are candidates and none of them passes a test; each one is requested. -/
def lacks (test : List Int → Except Error Bool) : Option (List Int) → Except Error Bool
  | none => .ok false
  | some addrs => (test addrs).map (!·)

/-- The instruction accesses memory only where no access is allowed, or by a pointer that wraps. -/
def refusedAccess (space : AddressSpace) (insn : Instruction) : Except Error (Option Refusal) :=
  if insn.pointerWraps then .ok (some .pointerWraps)
  else do
    if ← lacks space.anyReadable insn.readCandidates then return some .unreadable
    if ← lacks space.anyWritable insn.writeCandidates then return some .unwritable
    return none

/-- Why the instruction is refused, wherever it stands. -/
def refusedAlone (settings : Settings) (space : AddressSpace) (insn : Instruction) :
    Except Error (Option Refusal) :=
  if insn.mnemonic = .brk ∧ !settings.allowBrk then .ok (some .brk)
  else if insn.mnemonic = .clv ∧ !settings.allowClv then .ok (some .clv)
  else if insn.mnemonic = .sed ∧ !settings.allowSed then .ok (some .sed)
  else if !insn.opcode.isDocumented ∧ !settings.allowUnofficial then .ok (some .undocumented)
  else if settings.checkOperandAccess then refusedAccess space insn
  else .ok none

/-- Why the instruction at an address is not believed. Resolving an address refuses nothing, so the
test that execution stays in the bank has no request. -/
def refusal (scene : Scene) (addr : Int) (insn : Instruction) (bank : String) :
    Except Error (Option Refusal) :=
  if scene.trusted.contains addr then .ok none
  else do
    match ← refusedAlone scene.settings scene.space insn with
    | some reason => return some reason
    | none =>
      return if scene.settings.checkFallthrough && !Policy.staysInBank scene.map insn bank then
        some .leavesBank
      else none

/-- The zero page consists of addresses. -/
theorem isAddress_of_mem_zeroPage {addr : Int} (member : addr ∈ Instruction.zeroPage) :
    IsAddress addr := by
  obtain ⟨i, listed, rfl⟩ := List.mem_map.mp member
  have small := List.mem_range.mp listed
  apply isAddress_natCast
  omega

/-- An index register reaches addresses. -/
theorem isAddress_of_mem_indexed {base addr : Int} (member : addr ∈ Instruction.indexed base) :
    IsAddress addr := by
  obtain ⟨i, _, rfl⟩ := List.mem_map.mp member
  apply isAddress_wrapAddress

section

variable {insn : Instruction} {addrs : List Int}

/-- An operand in memory is at addresses. -/
theorem isAddress_of_operandAddresses (found : insn.operandAddresses = some addrs) :
    ∀ addr ∈ addrs, IsAddress addr := by
  intro addr member
  unfold Instruction.operandAddresses at found
  split at found
  all_goals first | contradiction | obtain rfl := Option.some.inj found
  case h_1 | h_2 =>
    obtain rfl := List.mem_singleton.mp member
    exact isAddress_natCast insn.operand_lt
  case h_3 | h_4 => exact isAddress_of_mem_zeroPage member
  case h_5 | h_6 => exact isAddress_of_mem_indexed member

/-- What an instruction may read is at addresses. -/
theorem isAddress_of_readCandidates (found : insn.readCandidates = some addrs) :
    ∀ addr ∈ addrs, IsAddress addr := by
  have operand := insn.operand_lt
  unfold Instruction.readCandidates at found
  split at found
  case h_1 =>
    obtain rfl := Option.some.inj found
    intro addr member
    rcases List.mem_cons.mp member with rfl | second
    · exact isAddress_natCast operand
    · obtain rfl := List.mem_singleton.mp second
      apply isAddress_wrapAddress
  case h_2 =>
    obtain rfl := Option.some.inj found
    intro addr
    exact isAddress_of_mem_zeroPage
  case h_3 =>
    obtain rfl := Option.some.inj found
    intro addr member
    rcases List.mem_cons.mp member with rfl | second
    · exact isAddress_natCast operand
    · obtain rfl := List.mem_singleton.mp second
      unfold IsAddress
      omega
  case h_4 =>
    split at found
    · exact isAddress_of_operandAddresses found
    · contradiction

/-- What an instruction may write is at addresses. -/
theorem isAddress_of_writeCandidates (found : insn.writeCandidates = some addrs) :
    ∀ addr ∈ addrs, IsAddress addr := by
  unfold Instruction.writeCandidates at found
  split at found
  · exact isAddress_of_operandAddresses found
  · contradiction

end

/-- A test of candidates is granted when all of them are addresses. -/
theorem lacks_eq (space : AddressSpace) (test : Permission → Bool) {candidates : Option (List Int)}
    (inside : ∀ addrs, candidates = some addrs → ∀ addr ∈ addrs, IsAddress addr) :
    lacks (AddressSpace.anyAddress fun addr => (space.permission addr).map test) candidates =
      .ok (candidates.any fun addrs => !Policy.anyPermits space test addrs) := by
  cases candidates with
  | none => rfl
  | some addrs =>
    unfold lacks
    dsimp only
    rw [space.anyAddress_eq test (inside addrs rfl)]
    rfl

/-- The policy on accesses to memory is granted. -/
theorem refusedAccess_eq (space : AddressSpace) (insn : Instruction) :
    refusedAccess space insn = .ok (Policy.refusedAccess space insn) := by
  have reads : lacks space.anyReadable insn.readCandidates =
      .ok (insn.readCandidates.any fun addrs =>
        !Policy.anyPermits space Permission.readable addrs) :=
    lacks_eq space Permission.readable fun addrs => isAddress_of_readCandidates
  have writes : lacks space.anyWritable insn.writeCandidates =
      .ok (insn.writeCandidates.any fun addrs =>
        !Policy.anyPermits space Permission.writable addrs) :=
    lacks_eq space Permission.writable fun addrs => isAddress_of_writeCandidates
  unfold refusedAccess Policy.refusedAccess
  rw [reads, writes]
  cases insn.pointerWraps with
  | true => rfl
  | false =>
    cases insn.readCandidates.any fun addrs =>
      !Policy.anyPermits space Permission.readable addrs with
    | true => rfl
    | false =>
      cases insn.writeCandidates.any fun addrs =>
        !Policy.anyPermits space Permission.writable addrs with
      | true => rfl
      | false => rfl

/-- The policy is granted. -/
theorem refusedAlone_eq (settings : Settings) (space : AddressSpace) (insn : Instruction) :
    refusedAlone settings space insn = .ok (Policy.refusedAlone settings space insn) := by
  unfold refusedAlone Policy.refusedAlone
  rw [refusedAccess_eq]
  repeat' split
  all_goals rfl

/-- Whether an instruction is believed is granted. -/
theorem refusal_eq (scene : Scene) (addr : Int) (insn : Instruction) (bank : String) :
    refusal scene addr insn bank = .ok (scene.refusal? addr insn bank) := by
  unfold refusal Scene.refusal?
  split
  · rfl
  · unfold Policy.check
    rw [refusedAlone_eq]
    cases Policy.refusedAlone scene.settings scene.space insn with
    | some reason => rfl
    | none => rfl

/-! ## Successors -/

/-- Where execution goes on, and what is worth a warning on the way. -/
def successors (set : BankSet) (map : MemoryMap) (insn : Instruction) :
    Except Error (List Event × List Int) :=
  match insn.staticSuccessors? with
  | some addrs => .ok ([], addrs)
  | none =>
    match insn.flow with
    | .indirectJump pointer => do
      let target ← word set map pointer
      return ([], target.toList.map fun (n : Nat) => (n : Int))
    | .softwareInterrupt => do
      let handler ← word set map Interrupt.irq.vector
      return ((map.readVector Interrupt.irq.vector).1,
        handler.toList.map fun (n : Nat) => (n : Int))
    | _ => .ok ([], [])

/-- The successors are granted. -/
theorem successors_eq {set : BankSet} {map : MemoryMap}
    (mapped : ∀ b ∈ map.active, b ∈ set.banks) (insn : Instruction) :
    successors set map insn = .ok (insn.successors map) := by
  unfold successors Instruction.successors Instruction.loadedSuccessors
  cases insn.staticSuccessors? with
  | some addrs => rfl
  | none =>
    cases insn.flow with
    | indirectJump pointer =>
      dsimp only
      rw [word_eq mapped]
      rfl
    | softwareInterrupt =>
      dsimp only
      rw [word_eq mapped, ← MemoryMap.readVector_snd]
      rfl
    | next | branch | call | jump | back | interruptReturn | halt => rfl

/-- A word that is read is an address. -/
theorem isAddress_of_mem_words {word : Option Nat} (bound : ∀ n, word = some n → n < 0x10000)
    {addr : Int} (member : addr ∈ word.toList.map fun (n : Nat) => (n : Int)) :
    IsAddress addr := by
  obtain ⟨n, read, rfl⟩ := List.mem_map.mp member
  apply isAddress_natCast
  apply bound
  exact Option.mem_toList.mp read

/-- A transfer names an address. -/
theorem isAddress_of_target {insn : Instruction} {target : Int}
    (named : insn.flow.target? = some target) : IsAddress target := by
  have operand := isAddress_natCast insn.operand_lt
  unfold Instruction.flow at named
  split at named
  · obtain rfl := Option.some.inj named
    apply isAddress_wrapAddress
  · split at named
    case h_2 => exact Option.some.inj named ▸ operand
    case h_3 =>
      split at named
      · contradiction
      · exact Option.some.inj named ▸ operand
    all_goals contradiction

/-- Behind a branch or a call there is an address. -/
theorem isAddress_of_fallThrough {insn : Instruction} {behind : Int}
    (named : insn.flow.fallThrough? = some behind) : IsAddress behind := by
  rw [Instruction.behind_of_fallThrough? named]
  apply isAddress_wrapAddress

/-- Where execution goes on without a look at memory there is an address. -/
theorem isAddress_of_staticSuccessors {insn : Instruction} (inside : IsAddress insn.address)
    {addrs : List Int} (found : insn.staticSuccessors? = some addrs) :
    ∀ addr ∈ addrs, IsAddress addr := by
  unfold Instruction.staticSuccessors? at found
  cases flow : insn.flow with
  | next =>
    rw [flow] at found
    obtain rfl := Option.some.inj found
    intro addr member
    split at member
    case isTrue => contradiction
    case isFalse below =>
      obtain rfl := List.mem_singleton.mp member
      have start := inside.1
      unfold Instruction.endAddress addressCount at below
      unfold IsAddress Instruction.endAddress
      omega
  | branch target behind | call target behind =>
    rw [flow] at found
    obtain rfl := Option.some.inj found
    have first : IsAddress target := isAddress_of_target (by rw [flow]; rfl)
    have second : IsAddress behind := isAddress_of_fallThrough (by rw [flow]; rfl)
    exact List.forall_mem_cons.mpr ⟨first, List.forall_mem_singleton.mpr second⟩
  | jump target =>
    rw [flow] at found
    obtain rfl := Option.some.inj found
    have first : IsAddress target := isAddress_of_target (by rw [flow]; rfl)
    exact List.forall_mem_singleton.mpr first
  | indirectJump pointer =>
    rw [flow] at found
    dsimp only at found
    split at found
    · obtain rfl := Option.some.inj found
      exact List.forall_mem_nil _
    · contradiction
  | softwareInterrupt =>
    rw [flow] at found
    contradiction
  | back | interruptReturn | halt =>
    rw [flow] at found
    obtain rfl := Option.some.inj found
    exact List.forall_mem_nil _

/-- Execution goes on at addresses. -/
theorem isAddress_of_successors {insn : Instruction} (inside : IsAddress insn.address)
    (map : MemoryMap) : ∀ addr ∈ (insn.successors map).2, IsAddress addr := by
  intro addr member
  unfold Instruction.successors at member
  cases found : insn.staticSuccessors? with
  | some addrs =>
    rw [found] at member
    exact isAddress_of_staticSuccessors inside found addr member
  | none =>
    rw [found] at member
    unfold Instruction.loadedSuccessors at member
    dsimp only at member
    split at member
    · exact isAddress_of_mem_words (fun _ => lt_of_readWord) member
    · have word := MemoryMap.readVector_snd map Interrupt.irq.vector
      dsimp only at member
      rw [word] at member
      exact isAddress_of_mem_words (fun _ => lt_of_readWord) member
    · contradiction

/-! ## Visits -/

/-- The location of an address where an instruction may be. -/
def candidate (scene : Scene) (set : BankSet) (store : Cdl.Store) (addr : Int) :
    Except Error (Option Location) :=
  match scene.map.resolve addr with
  | none => .ok none
  | some l =>
    if set.isAnalyzable l.bank.name then do
      if ← scene.space.isExecutable addr then
        let (path, offset) ← BankSet.logPosition l.bank.toBank l.offset
        let loaded ← store.loaded path offset
        return if Scene.isKnownData loaded then none else some l
      else return none
    else .ok none

/-- Read the instruction at an address and its location, and mark it as code if it is believed. Of
the errors of reading it those that are no refused request end the path and not the traversal. -/
def inspect (scene : Scene) (set : BankSet) (store : Cdl.Store) (addr : Int) (l : Location) :
    Except Error (Outcome × Cdl.Store) := do
  let bytes ← set.read l.bank.toBank l.offset 3
  match Instruction.decode bytes.toList addr (some scene.space) with
  | .error (.decode place fault) => return (.undecodable l (.decode place fault), store)
  | .error e => throw e
  | .ok insn =>
    match ← refusal scene addr insn l.bank.name with
    | some reason => return (.refused l insn reason, store)
    | none =>
      let (path, offset) ← BankSet.logPosition l.bank.toBank l.offset
      let marked ← store.markRange path offset insn.length Cdl.code
      let (warnings, addrs) ← successors set scene.map insn
      return (.accepted l insn warnings addrs, marked)

/-- Visit an address; the answer comes with the store that has the claim and the marks. -/
def visit (scene : Scene) (set : BankSet) (store : Cdl.Store) (addr : Int) :
    Except Error (Outcome × Cdl.Store) := do
  match ← candidate scene set store addr with
  | none => return (.discarded, store)
  | some l =>
    if store.isClaimed l.position then return (.skipped, store)
    inspect scene set (store.claim l.position) addr l

/-- The store behind a visit. -/
def behind (store : Cdl.Store) (o : Outcome) : Cdl.Store :=
  { store.markAll (Analyzer.codeMarks [o]) with
    claims :=
      match o.claim? with
      | some position => store.claims.insert position
      | none => store.claims }

section

variable {scene : Scene} {set : BankSet} {store : Cdl.Store}
  (mapped : ∀ b ∈ scene.map.active, b ∈ set.banks) (made : store.MadeFor set.declared)
  {addr : Int} (inside : IsAddress addr)

include mapped made inside

/-- Whether an instruction may be at an address is granted. -/
theorem candidate_eq (same : ∀ p, store.loadedAt p = scene.log.loadedAt p) :
    candidate scene set store addr = .ok (scene.candidate? addr) := by
  unfold candidate Scene.candidate?
  cases found : scene.map.resolve addr with
  | none => rfl
  | some l =>
    have member := mem_banks_of_resolve mapped found
    have loaded : store.loaded l.position.file l.position.offset =
        .ok (store.loadedAt l.position) := by
      apply Cdl.Store.loaded_of_room (made.room (BankSet.mem_declared member))
      · exact Int.natCast_nonneg _
      · have offset := l.offset.isLt
        unfold Location.position
        dsimp only
        omega
    have space := scene.space.isExecutable_eq inside
    dsimp only
    rw [BankSet.isAnalyzable_eq member, BankSet.logPosition_eq, space, Option.filter_some, ← same]
    cases l.bank.isAnalyzable with
    | false => rfl
    | true =>
      cases (scene.space.permissionAt addr).executable with
      | false => rfl
      | true =>
        simp only [bind, Except.bind, loaded]
        cases Scene.isKnownData (store.loadedAt l.position) with
        | false => rfl
        | true => rfl

/-- The inspection of an address where an instruction may be is granted. -/
theorem inspect_eq {l : Location} (found : scene.map.resolve addr = some l)
    (analyzable : l.bank.isAnalyzable = true) :
    inspect scene set store addr l =
      .ok (scene.inspect addr l,
        store.markAll (Analyzer.codeMarks [scene.inspect addr l])) := by
  have member := mem_banks_of_resolve mapped found
  have read := BankSet.read_eq member analyzable 3
  unfold inspect Scene.inspect
  cases answer : set.read l.bank.toBank l.offset 3 with
  | error e =>
    rw [show ((3 : Nat) : Int) = 3 from rfl, answer] at read
    contradiction
  | ok bytes =>
    rw [show ((3 : Nat) : Int) = 3 from rfl, answer] at read
    have bytes_eq : bytes.toList = l.bytes 3 := Except.ok.inj read
    simp only [bind, Except.bind, bytes_eq]
    cases decoded : Instruction.decode (l.bytes 3) addr (some scene.space) with
    | error e =>
      obtain ⟨fault, rfl⟩ := Instruction.exists_fault_of_decode inside decoded
      rfl
    | ok insn =>
      simp only [refusal_eq]
      cases scene.refusal? addr insn l.bank.name with
      | some reason => rfl
      | none =>
        have front := (Instruction.decode_eq_ok_iff.mp decoded).2.1.length_le
        have room := l.length_bytes_le 3
        rw [insn.length_bytes] at front
        have marked : store.markRange l.position.file l.position.offset insn.length Cdl.code =
            .ok (store.mark l.position insn.length Cdl.code) := by
          apply Cdl.Store.markRange_of_room (made.room (BankSet.mem_declared member))
          · exact Int.natCast_nonneg _
          · unfold Location.position
            dsimp only
            omega
        simp only [BankSet.logPosition_eq, marked, successors_eq mapped]
        rfl

/-- A visit of an address is granted. -/
theorem visit_eq (same : ∀ p, store.loadedAt p = scene.log.loadedAt p) :
    visit scene set store addr =
      .ok (scene.visit store.claims addr, behind store (scene.visit store.claims addr)) := by
  have possible := candidate_eq mapped made inside same
  unfold visit
  rw [possible]
  rcases scene.visit_cases store.claims addr with
    ⟨nowhere, discarded⟩ | ⟨l, found, seen | fresh⟩
  · rw [nowhere, discarded]
    rfl
  · rw [found, seen.2]
    change (if store.claims.contains l.position then _ else _) = _
    rw [seen.1]
    rfl
  · obtain ⟨resolved, analyzable, _⟩ := Scene.candidate?_eq_some_iff.mp found
    have claimed : (store.claim l.position).MadeFor set.declared := made.of_sizes rfl
    have inspected := inspect_eq mapped claimed inside resolved analyzable
    have apart := store.markAll_with_claims (store.claims.insert l.position)
      (Analyzer.codeMarks [scene.inspect addr l])
    rw [found, fresh.2]
    change (if store.claims.contains l.position then _ else _) = _
    rw [fresh.1, if_neg Bool.false_ne_true, inspected]
    unfold behind
    rw [Scene.claim?_inspect]
    exact congrArg (fun left => Except.ok (scene.inspect addr l, left)) apart

end

end Checked

end BankTrace
