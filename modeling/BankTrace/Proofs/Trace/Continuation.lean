import BankTrace.Proofs.Cpu.Transfers
import BankTrace.Proofs.MemoryMap.Selection
import BankTrace.Proofs.Trace.Legality

/-!
# Where execution goes on

The policy looks at one address: the one behind an instruction that transfers control nowhere, or
the one that a branch goes to, neither of them wrapped. The traversal follows the successors, which
wrap where a branch or a call goes on. For an instruction that the policy has nothing against, the
address that was looked at is the first one that is followed. At the top of the address space the
two part: what is behind a branch or a call is followed to `$0000`, and the policy does not look
there.
-/

namespace BankTrace

namespace Instruction

variable {insn : Instruction}

/-- Under a snapshot that the banks admit the successors are those of its memory map. -/
theorem successorsUnder_of_valid {set : BankSet} {snapshot : Snapshot} {map : MemoryMap}
    (valid : MemoryMap.ofSnapshot set snapshot = .ok map) (insn : Instruction) :
    insn.successorsUnder set snapshot = .ok (insn.successors map) := by
  unfold successorsUnder successors
  cases insn.staticSuccessors? with
  | some addrs => rfl
  | none => rw [valid]; rfl

/-- Where control is not transferred the one successor is behind the instruction, unless that is
behind the address space. -/
theorem successors_of_next (map : MemoryMap) (plain : insn.flow = .next) :
    insn.successors map =
      ([], if insn.endAddress ≥ addressCount then [] else [insn.endAddress]) := by
  unfold successors staticSuccessors?
  rw [plain]

/-- A branch or a call goes on at its target and behind it. -/
theorem successors_of_fallThrough? (map : MemoryMap) {target behind : Int}
    (transfers : insn.flow = .branch target behind ∨ insn.flow = .call target behind) :
    insn.successors map = ([], [target, behind]) := by
  unfold successors staticSuccessors?
  rcases transfers with flow | flow <;> rw [flow]

end Instruction

namespace Policy

variable {set : BankSet} {snapshot : Snapshot} {map : MemoryMap} {insn : Instruction}

/-- Where the map holds a bank of the set by its name it holds that bank. -/
theorem exists_location_of_holdsAt (valid : MemoryMap.ofSnapshot set snapshot = .ok map)
    {b : LoadedBank} (member : b ∈ set.banks) {addr : Int} (holds : map.HoldsAt b.name addr) :
    ∃ l, map.resolve addr = some l ∧ l.bank = b := by
  obtain ⟨l, resolved, named⟩ := holds.named
  have mapped := (MemoryMap.resolve_eq_some_iff.mp resolved).1
  have declared := MemoryMap.mem_banks_of_mem_active valid mapped
  have found := BankSet.get?_eq_some_iff.mpr ⟨declared, named⟩
  rw [BankSet.get?_eq_some_iff.mpr ⟨member, rfl⟩] at found
  exact ⟨l, resolved, (Option.some.inj found).symm⟩

/-- For an instruction that the policy has nothing against, what is followed is what was looked
at. Where control is not transferred that is the one address behind the encoding, and for a branch
it is the first successor, the unwrapped sum of the address behind it and its signed offset; either
one is an address of the bank. -/
theorem sequel_followed (valid : MemoryMap.ofSnapshot set snapshot = .ok map)
    {settings : Settings} (checks : settings.checkFallthrough = true) {space : AddressSpace}
    {b : LoadedBank} (member : b ∈ set.banks)
    (believed : checkUnder settings space set snapshot insn b.name = .ok none) :
    (insn.flow = .next →
      insn.successorsUnder set snapshot = .ok ([], [insn.address + insn.length]) ∧
      insn.address + insn.length ≤ 0xFFFF ∧
      ∃ l, map.resolve (insn.address + insn.length) = some l ∧ l.bank = b) ∧
    ∀ target behind, insn.flow = .branch target behind →
      insn.successorsUnder set snapshot = .ok ([], [target, behind]) ∧
      (∃ offset, insn.operandBytes = [offset] ∧
        target = insn.address + 2 + offset.toInt8.toInt) ∧
      0 ≤ target ∧ target ≤ 0xFFFF ∧ ∃ l, map.resolve target = some l ∧ l.bank = b := by
  rw [checkUnder_of_valid valid] at believed
  have legal := check_eq_none_iff_legal.mp (Except.ok.inj believed)
  rw [Instruction.successorsUnder_of_valid valid]
  constructor
  · intro plain
    have holds : map.HoldsAt b.name (insn.address + insn.length) :=
      legal.behind checks (Instruction.flow_eq_next_iff.mp plain)
    have stop := holds.stop
    have below : ¬insn.endAddress ≥ addressCount := Int.not_le.mpr stop
    refine ⟨?_, by omega, exists_location_of_holdsAt valid member holds⟩
    rw [Instruction.successors_of_next map plain, if_neg below]
    rfl
  · intro target behind flow
    have branch := Instruction.isBranch_of_flow flow
    have holds := legal.target checks branch
    have start := holds.start
    have stop := holds.stop
    -- The sum is an address, so it is the same when it is wrapped.
    have unwrapped : target = insn.endAddress + Instruction.signedByte insn.operand := by
      rw [Instruction.flow_of_isBranch branch, wrapAddress_of_bounds start stop] at flow
      exact (Flow.branch.inj flow).1.symm
    obtain ⟨offset, bytes, operand⟩ := Instruction.operandBytes_of_isBranch branch
    have sum : target = insn.address + 2 + offset.toInt8.toInt := by
      rw [unwrapped, operand, Instruction.signedByte_toNat, Instruction.endAddress,
        Instruction.length_of_isBranch branch]
      rfl
    rw [← unwrapped] at holds start stop
    exact ⟨congrArg Except.ok (Instruction.successors_of_fallThrough? map (.inl flow)),
      ⟨offset, bytes, sum⟩, start, by omega, exists_location_of_holdsAt valid member holds⟩

/-! ### A branch at the last addresses -/

/-- The bank of four bytes at the end of the address space. -/
def topBank : Bank :=
  { shortBank with
    start := 0xFFFC
    size_dvd := by decide
    end_le := by decide }

/-- The layout of the bank alone, which holds `nop` and a call of the address of the `nop`. -/
def topSet : BankSet := ⟨[⟨topBank, some #v[0xEA, 0x20, 0xFC, 0xFF]⟩], rfl⟩

/-- The map of the bank. -/
def topMap : MemoryMap :=
  ⟨[⟨topBank, some #v[0xEA, 0x20, 0xFC, 0xFF]⟩], List.pairwise_singleton _ _⟩

/-- The instruction `bcc $FFFC` in the last two bytes. -/
def topBranch : Instruction := ⟨0xFFFE, 0x90, [0xFC], by decide⟩

/-- The policy believes the branch, so it goes on at its target, four bytes below the address
behind it. -/
theorem sequel_followed_topBranch :
    checkUnder {} .unrestricted topSet {} topBranch "short" = .ok none ∧
      topBranch.successorsUnder topSet {} = .ok ([], [0xFFFC, 0]) ∧
      ∃ l, topMap.resolve 0xFFFC = some l ∧ l.bank.toBank = topBank := by
  have valid : MemoryMap.ofSnapshot topSet {} = .ok topMap := rfl
  have believed : checkUnder {} .unrestricted topSet {} topBranch "short" = .ok none := rfl
  have member := List.mem_singleton_self (⟨topBank, some #v[0xEA, 0x20, 0xFC, 0xFF]⟩ : LoadedBank)
  obtain ⟨followed, _, _, _, l, resolved, bank⟩ :=
    (sequel_followed valid rfl member believed).2 0xFFFC 0 rfl
  exact ⟨believed, followed, l, resolved, congrArg LoadedBank.toBank bank⟩

end Policy

/-! ## At the top of the address space -/

/-- Execution can go on behind an instruction that has this flow. -/
def Flow.GoesOnBehind (flow : Flow) : Prop := flow = .next ∨ flow.fallThrough?.isSome = true

namespace Policy

variable {set : BankSet} {snapshot : Snapshot} {map : MemoryMap} {space : AddressSpace}
  {settings : Settings} {insn : Instruction}

/-- Branches and calls are believed wherever they stand: no setting is about them, and they access
no memory. -/
theorem refusedAlone_of_forks (forks : insn.opcode.isBranch = true ∨ insn.mnemonic = .jsr) :
    refusedAlone settings space insn = none := by
  obtain ⟨forking, direct⟩ := Opcode.mnemonic_mem_forking forks
  obtain ⟨_, differs, _⟩ := Opcode.harmless_of_forking _ forking
  have unpointed : insn.mode.isIndirect = false := direct
  have unread := Opcode.reads_of_forks forks
  have unwritten := Opcode.writes_of_forks forks
  rw [refusedAlone_eq_none_iff, accessible_iff]
  refine ⟨fun brk => absurd brk (differs .brk (by decide)),
    fun clv => absurd clv (differs .clv (by decide)),
    fun sed => absurd sed (differs .sed (by decide)), ?_, fun _ => ?_⟩
  · simp [Opcode.isDocumented_of_forking forking]
  · exact {
      straightJump := by
        intro indirect
        rw [indirect] at unpointed
        contradiction
      straight := by
        rintro (indirect | indirect) <;> rw [indirect] at unpointed <;> contradiction
      reads := by simp [unread]
      writes := by simp [unwritten]
      pointer := by simp [unpointed] }

/-- The policy refuses a branch or a call only for leaving the bank. -/
theorem check_eq_leavesBank_iff (forks : insn.opcode.isBranch = true ∨ insn.mnemonic = .jsr)
    (checks : settings.checkFallthrough = true) {bank : String} :
    check settings space map insn bank = some .leavesBank ↔
      staysInBank map insn bank = false := by
  unfold check
  rw [refusedAlone_of_forks forks, checks]
  cases staysInBank map insn bank <;> simp

/-- An instruction that ends at the last address has nothing behind it. What the policy and the
successors make of that differs: where control is not transferred the instruction is refused and
nothing is followed. A branch and a call go on at `$0000` as well; for the branch this comes to
light only when its target is not in the bank, and for the call never. -/
theorem refused_or_ended_iff (valid : MemoryMap.ofSnapshot set snapshot = .ok map)
    (checks : settings.checkFallthrough = true) (bank : String)
    (last : insn.endAddress = 0x10000) (goesOn : insn.flow.GoesOnBehind) :
    ∃ answer addrs, checkUnder settings space set snapshot insn bank = .ok answer ∧
      insn.successorsUnder set snapshot = .ok ([], addrs) ∧
      (insn.flow = .next → answer ≠ none ∧ addrs = []) ∧
      ((answer = some .leavesBank ∨ 0 ∉ addrs) ↔
        insn.mnemonic ≠ .jsr ∧ (insn.opcode.isBranch = true →
          ¬map.HoldsAt bank (0x10000 + Instruction.signedByte insn.operand))) := by
  rw [checkUnder_of_valid valid, Instruction.successorsUnder_of_valid valid]
  have wrapped : wrapAddress insn.endAddress = 0 := by
    rw [last]
    rfl
  have stays := @staysInBank_iff map insn bank
  rw [last] at stays
  rcases goesOn with plain | falls
  case inl =>
    have straight := Instruction.flow_eq_next_iff.mp plain
    have ended := Instruction.successors_of_next map plain
    rw [if_pos (by rw [last]; decide)] at ended
    refine ⟨_, [], rfl, congrArg Except.ok ended, fun _ => ⟨?_, rfl⟩, ?_⟩
    · intro believed
      have holds := (check_eq_none_iff_legal.mp believed).behind checks straight
      have stop := holds.stop
      omega
    · refine iff_of_true (.inr List.not_mem_nil) ⟨fun call => ?_, fun branch => ?_⟩
      · exact absurd (Opcode.isFlow_of_call call) (by rw [straight]; decide)
      · exact absurd (Opcode.isFlow_of_isBranch branch) (by rw [straight]; decide)
  case inr =>
    obtain ⟨behind, falls⟩ := Option.isSome_iff_exists.mp falls
    obtain rfl := (Instruction.behind_of_fallThrough? falls).trans wrapped
    obtain ⟨target, transfers⟩ := Flow.exists_target_of_fallThrough? falls
    have followed := Instruction.successors_of_fallThrough? map transfers
    have reached : ¬(0 : Int) ∉ [target, 0] := by simp
    refine ⟨_, [target, 0], rfl, congrArg Except.ok followed, fun plain => ?_, ?_⟩
    · rcases transfers with flow | flow <;> rw [plain] at flow <;> contradiction
    rw [or_iff_left reached]
    rcases transfers with flow | flow
    · have branch := Instruction.isBranch_of_flow flow
      have transferring := Opcode.isFlow_of_isBranch branch
      have differs : insn.mnemonic ≠ .jsr := Opcode.mnemonic_ne_jsr_of_isBranch branch
      rw [check_eq_leavesBank_iff (.inl branch) checks, ← Bool.not_eq_true, stays]
      simp [branch, transferring, differs]
    · obtain ⟨call, unbranched⟩ := Instruction.mnemonic_of_flow flow
      have transferring := Opcode.isFlow_of_call call
      rw [check_eq_leavesBank_iff (.inr call) checks, ← Bool.not_eq_true, stays]
      simp [call, unbranched, transferring]

/-- The instruction `bcc $10000`, if there were such an address. -/
def fallingBranch : Instruction := ⟨0xFFFE, 0x90, [0x00], by decide⟩

/-- The branch goes nowhere but behind the address space, so it is refused or not followed. -/
theorem refused_or_ended_fallingBranch : ∃ answer addrs,
    checkUnder {} .unrestricted topSet {} fallingBranch "short" = .ok answer ∧
      fallingBranch.successorsUnder topSet {} = .ok ([], addrs) ∧
      (answer = some .leavesBank ∨ 0 ∉ addrs) := by
  have valid : MemoryMap.ofSnapshot topSet {} = .ok topMap := rfl
  obtain ⟨answer, addrs, answered, followed, _, safe⟩ :=
    @refused_or_ended_iff topSet {} topMap .unrestricted {} fallingBranch valid rfl "short" rfl
      (.inr rfl)
  refine ⟨answer, addrs, answered, followed, safe.mpr ⟨by decide, fun _ holds => ?_⟩⟩
  exact absurd holds.stop (by decide)

/-- The instruction `jsr $FFFC` in the last three bytes. -/
def topCall : Instruction := ⟨0xFFFD, 0x20, [0xFC, 0xFF], by decide⟩

/-- The call is read from the bank and believed, and execution goes on at `$0000`, as the call ends
at the last address. -/
theorem topCall_continues_at_zero :
    Instruction.decode [0x20, 0xFC, 0xFF] 0xFFFD (some .unrestricted) = .ok topCall ∧
      topCall.endAddress = 0x10000 ∧ topCall.flow.GoesOnBehind ∧
      MemoryMap.ofSnapshot topSet {} = .ok topMap ∧
      ∃ answer addrs, checkUnder {} .unrestricted topSet {} topCall "short" = .ok answer ∧
        topCall.successorsUnder topSet {} = .ok ([], addrs) ∧
        ¬(answer = some .leavesBank ∨ 0 ∉ addrs) := by
  have executable : AddressSpace.unrestricted.allExecutable 0xFFFD topCall.length = true := by
    refine AddressSpace.allExecutable_eq_true_iff.mpr ⟨by decide, by decide, fun i below => ?_⟩
    have within : 0xFFFD + i < 0x10000 := Nat.add_lt_add_left (show i < 3 from below) 0xFFFD
    exact congrArg Permission.executable (AddressSpace.permissionAt_unrestricted within)
  refine ⟨Instruction.decode_eq_ok_iff.mpr ⟨rfl, List.prefix_rfl, executable⟩, rfl, .inr rfl, rfl,
    none, [0xFFFC, 0], rfl, rfl, ?_⟩
  rintro (refused | unreached)
  · cases refused
  · exact unreached (by decide)

end Policy

end BankTrace
