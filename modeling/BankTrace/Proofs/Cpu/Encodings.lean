import BankTrace.Proofs.MemoryMap.Requests

/-!
# Encodings

The first byte of an encoding says how long it is. Reading an instruction at an address fails when
there is no byte, else when the encoding must not be executed, else when it is cut off, and in no
other case. What is read is the encoding and nothing behind it: an instruction is its opcode with
the little-endian form of its operand, whatever follows makes no difference, and no shorter front
of it is an instruction.
-/

namespace BankTrace

/-- The failure is for want of the right to execute. -/
def DecodeError.IsForbidden : DecodeError → Prop
  | opcodeNotExecutable | operandNotExecutable _ => True
  | _ => False

/-- The failure is for want of the end of the encoding. -/
def DecodeError.IsTruncated : DecodeError → Prop
  | pastTop _ | truncated .. => True
  | _ => False

namespace Instruction

/-- The address may be executed. Without an address space, every address may. -/
def Executable (space : Option AddressSpace) (addr : Int) : Prop :=
  ∀ s, space = some s → (s.permissionAt addr).executable = true

/-- An encoding of a length must not be executed: its first address must not, or it ends in the
address space and one of its addresses must not. -/
def Forbidden (space : Option AddressSpace) (addr : Int) (length : Nat) : Prop :=
  ¬Executable space addr ∨
    addr + length ≤ 0x10000 ∧ ∃ i < length, ¬Executable space (addr + i)

/-- An encoding of a length ends behind the address space or behind the bytes that there are. -/
def CutOff (addr : Int) (length available : Nat) : Prop :=
  0x10000 < addr + length ∨ available < length

/-- The bytes of a number, the least significant first. -/
def toLittleEndian : (count : Nat) → Nat → List UInt8
  | 0, _ => []
  | count + 1, n => UInt8.ofNat n :: toLittleEndian count (n / 0x100)

/-- Bytes are the little-endian form of the number that they denote. -/
theorem toLittleEndian_littleEndian (bytes : List UInt8) :
    toLittleEndian bytes.length (littleEndian bytes) = bytes := by
  induction bytes with
  | nil => rfl
  | cons b rest ih =>
    have below := b.toNat_lt
    have low : UInt8.ofNat (b.toNat + 0x100 * littleEndian rest) = b := by
      apply UInt8.toNat.inj
      rw [UInt8.toNat_ofNat']
      omega
    have high : (b.toNat + 0x100 * littleEndian rest) / 0x100 = littleEndian rest := by omega
    unfold littleEndian
    rw [List.length_cons, toLittleEndian, low, high, ih]

/-- An instruction is its opcode with the little-endian form of its operand. -/
theorem bytes_eq (insn : Instruction) :
    insn.bytes = insn.opcode :: toLittleEndian (insn.length - 1) insn.operand := by
  have count : insn.length - 1 = insn.operandBytes.length := by
    rw [insn.complete]
    unfold length Opcode.length
    omega
  unfold bytes operand
  rw [count, toLittleEndian_littleEndian]

/-- Reading the front of `bytes` at an address fails for a reason of a kind. -/
def FailsFor (kind : DecodeError → Prop) (bytes : List UInt8) (addr : Int)
    (space : Option AddressSpace) : Prop :=
  ∃ e, decode bytes addr space = .error (.decode addr e) ∧ kind e

section

variable {space : Option AddressSpace} {addr : Int} {byte : UInt8} {rest : List UInt8}

/-- At an address it is known whether an instruction may start there. -/
theorem exists_mayStart (inside : IsAddress addr) :
    ∃ may, mayStart space addr = .ok may ∧ (may = true ↔ Executable space addr) := by
  cases space with
  | none => exact ⟨true, rfl, by simp [Executable]⟩
  | some s => exact ⟨_, s.isExecutable_eq inside, by simp [Executable]⟩

/-- An encoding in the address space may be executed when each of its addresses may be. -/
theorem mayExecute_iff {length : Nat} (inside : IsAddress addr)
    (fits : addr + length ≤ 0x10000) :
    mayExecute space addr length = true ↔ ∀ i < length, Executable space (addr + i) := by
  cases space with
  | none => simp [mayExecute, Executable]
  | some s =>
    unfold mayExecute Executable
    rw [AddressSpace.allExecutable_eq_true_iff]
    simp [inside.1, fits]

/-- An encoding that must not be executed is refused for that, whatever is behind its first
byte. -/
theorem decode_of_forbidden (inside : IsAddress addr)
    (forbidden : Forbidden space addr (Opcode.length byte)) :
    FailsFor DecodeError.IsForbidden (byte :: rest) addr space := by
  obtain ⟨may, asked, executable⟩ := @exists_mayStart space addr inside
  unfold FailsFor decode
  simp only [asked]
  cases may with
  | false => exact ⟨.opcodeNotExecutable, rfl, trivial⟩
  | true =>
    rcases forbidden with unstarted | ⟨fits, i, small, barred⟩
    · exact absurd (executable.mp rfl) unstarted
    · have top : ¬addr + Opcode.length byte > addressCount := Int.not_lt.mpr fits
      have blocked : mayExecute space addr (Opcode.length byte) = false := by
        rw [Bool.eq_false_iff]
        intro all
        exact barred ((mayExecute_iff inside fits).mp all i small)
      simp only [if_neg top, blocked]
      exact ⟨.operandNotExecutable _, rfl, trivial⟩

/-- The addresses of an encoding that is not forbidden may be executed, up to the end of the
address space. -/
theorem executable_of_allowed {length : Nat} (allowed : ¬Forbidden space addr length)
    (fits : addr + length ≤ 0x10000) : ∀ i < length, Executable space (addr + i) := by
  intro i small
  by_contra barred
  exact allowed (.inr ⟨fits, i, small, barred⟩)

/-- An encoding that is cut off, and not forbidden, is refused for that. -/
theorem decode_of_cutOff (inside : IsAddress addr)
    (allowed : ¬Forbidden space addr (Opcode.length byte))
    (cut : CutOff addr (Opcode.length byte) (byte :: rest).length) :
    FailsFor DecodeError.IsTruncated (byte :: rest) addr space := by
  obtain ⟨may, asked, executable⟩ := @exists_mayStart space addr inside
  obtain rfl : may = true := executable.mpr (not_not.mp (not_or.mp allowed).1)
  unfold FailsFor decode
  simp only [asked]
  by_cases top : addr + Opcode.length byte > addressCount
  · simp only [if_pos top]
    exact ⟨.pastTop _, rfl, trivial⟩
  · have fits : addr + Opcode.length byte ≤ 0x10000 := Int.not_lt.mp top
    have all := (mayExecute_iff inside fits).mpr (executable_of_allowed allowed fits)
    have short : ¬(Opcode.mode byte).operandLength ≤ rest.length := by
      rcases cut with past | few
      · omega
      · rw [List.length_cons] at few
        unfold Opcode.length at few
        omega
    simp only [if_neg top, all, dif_neg short]
    exact ⟨.truncated _ _ _, rfl, trivial⟩

/-- An encoding that is neither forbidden nor cut off is read. -/
theorem decode_of_complete (inside : IsAddress addr)
    (allowed : ¬Forbidden space addr (Opcode.length byte))
    (complete : ¬CutOff addr (Opcode.length byte) (byte :: rest).length) :
    ∃ insn, decode (byte :: rest) addr space = .ok insn ∧ insn.address = addr ∧
      insn.bytes = (byte :: rest).take (Opcode.length byte) := by
  obtain ⟨may, asked, executable⟩ := @exists_mayStart space addr inside
  obtain rfl : may = true := executable.mpr (not_not.mp (not_or.mp allowed).1)
  obtain ⟨unpassed, enough⟩ := not_or.mp complete
  have fits : addr + Opcode.length byte ≤ 0x10000 := Int.not_lt.mp unpassed
  have top : ¬addr + Opcode.length byte > addressCount := unpassed
  have all := (mayExecute_iff inside fits).mpr (executable_of_allowed allowed fits)
  have room : (Opcode.mode byte).operandLength ≤ rest.length := by
    rw [List.length_cons] at enough
    unfold Opcode.length at enough
    omega
  unfold decode
  simp only [asked, if_neg top, all, dif_pos room]
  refine ⟨_, rfl, rfl, ?_⟩
  unfold bytes Opcode.length
  rw [Nat.add_comm, List.take_succ_cons]

/-- An encoding is forbidden, else cut off, else read. -/
theorem decode_cons_cases (inside : IsAddress addr) :
    (Forbidden space addr (Opcode.length byte) ∧
        FailsFor DecodeError.IsForbidden (byte :: rest) addr space) ∨
      ¬Forbidden space addr (Opcode.length byte) ∧
        (CutOff addr (Opcode.length byte) (byte :: rest).length ∧
            FailsFor DecodeError.IsTruncated (byte :: rest) addr space ∨
          ¬CutOff addr (Opcode.length byte) (byte :: rest).length ∧
            ∃ insn, decode (byte :: rest) addr space = .ok insn) := by
  by_cases forbidden : Forbidden space addr (Opcode.length byte)
  · exact .inl ⟨forbidden, decode_of_forbidden inside forbidden⟩
  · refine .inr ⟨forbidden, ?_⟩
    by_cases cut : CutOff addr (Opcode.length byte) (byte :: rest).length
    · exact .inl ⟨cut, decode_of_cutOff inside forbidden cut⟩
    · obtain ⟨insn, read, _⟩ := decode_of_complete inside forbidden cut
      exact .inr ⟨cut, insn, read⟩

/-- At an address reading an instruction fails for no other reason than that there is none. -/
theorem exists_fault_of_decode {bytes : List UInt8} (inside : IsAddress addr) {e : Error}
    (failed : decode bytes addr space = .error e) : ∃ fault, e = .decode addr fault := by
  cases bytes with
  | nil => exact ⟨.noBytes, (Except.error.inj failed).symm⟩
  | cons byte rest =>
    rcases @decode_cons_cases space addr byte rest inside with
      ⟨_, fault, same, _⟩ | ⟨_, ⟨_, fault, same, _⟩ | ⟨_, insn, read⟩⟩
    · exact ⟨fault, Except.error.inj (failed.symm.trans same)⟩
    · exact ⟨fault, Except.error.inj (failed.symm.trans same)⟩
    · rw [read] at failed
      contradiction

/-- What is read is no failure. -/
theorem not_failsFor_of_ok {kind : DecodeError → Prop} {bytes : List UInt8} {insn : Instruction}
    (read : decode bytes addr space = .ok insn) : ¬FailsFor kind bytes addr space := by
  rintro ⟨e, failed, _⟩
  rw [read] at failed
  contradiction

/-- No failure is for want of the right to execute and for want of an end. -/
theorem not_failsFor_of_truncated {bytes : List UInt8}
    (truncated : FailsFor DecodeError.IsTruncated bytes addr space) :
    ¬FailsFor DecodeError.IsForbidden bytes addr space := by
  obtain ⟨e, failed, kind⟩ := truncated
  rintro ⟨other, failed', kind'⟩
  rw [failed] at failed'
  cases failed'
  cases e <;> contradiction

/-- Reading is refused for want of the right to execute when the encoding is forbidden. -/
theorem failsFor_isForbidden_iff (inside : IsAddress addr) :
    FailsFor DecodeError.IsForbidden (byte :: rest) addr space ↔
      Forbidden space addr (Opcode.length byte) := by
  constructor
  · intro fails
    rcases @decode_cons_cases space addr byte rest inside with
      ⟨forbidden, _⟩ | ⟨_, ⟨_, truncated⟩ | ⟨_, insn, read⟩⟩
    · exact forbidden
    · exact absurd fails (not_failsFor_of_truncated truncated)
    · exact absurd fails (not_failsFor_of_ok read)
  · exact decode_of_forbidden inside

/-- Reading is refused for want of an end when the encoding is cut off and not forbidden. -/
theorem failsFor_isTruncated_iff (inside : IsAddress addr) :
    FailsFor DecodeError.IsTruncated (byte :: rest) addr space ↔
      ¬Forbidden space addr (Opcode.length byte) ∧
        CutOff addr (Opcode.length byte) (byte :: rest).length := by
  constructor
  · intro fails
    rcases @decode_cons_cases space addr byte rest inside with
      ⟨_, refused⟩ | ⟨allowed, ⟨cut, _⟩ | ⟨_, insn, read⟩⟩
    · exact absurd refused (not_failsFor_of_truncated fails)
    · exact ⟨allowed, cut⟩
    · exact absurd fails (not_failsFor_of_ok read)
  · rintro ⟨allowed, cut⟩
    exact decode_of_cutOff inside allowed cut

/-- Reading succeeds when the encoding is neither forbidden nor cut off. -/
theorem exists_decode_iff (inside : IsAddress addr) :
    (∃ insn, decode (byte :: rest) addr space = .ok insn) ↔
      ¬Forbidden space addr (Opcode.length byte) ∧
        ¬CutOff addr (Opcode.length byte) (byte :: rest).length := by
  constructor
  · rintro ⟨insn, read⟩
    rcases @decode_cons_cases space addr byte rest inside with
      ⟨_, refused⟩ | ⟨allowed, ⟨_, truncated⟩ | ⟨complete, _⟩⟩
    · exact absurd refused (not_failsFor_of_ok read)
    · exact absurd truncated (not_failsFor_of_ok read)
    · exact ⟨allowed, complete⟩
  · rintro ⟨allowed, complete⟩
    obtain ⟨insn, read, _⟩ := decode_of_complete inside allowed complete
    exact ⟨insn, read⟩

/-- Reading fails for want of bytes when there is none. -/
theorem failsFor_noBytes_iff {bytes : List UInt8} (inside : IsAddress addr) :
    FailsFor (· = .noBytes) bytes addr space ↔ bytes = [] := by
  constructor
  · rintro ⟨e, failed, rfl⟩
    cases bytes with
    | nil => rfl
    | cons byte rest =>
      rcases @decode_cons_cases space addr byte rest inside with
        ⟨_, e, refused, kind⟩ | ⟨_, ⟨_, e, refused, kind⟩ | ⟨_, insn, read⟩⟩
      · rw [failed] at refused
        cases refused
        exact kind.elim
      · rw [failed] at refused
        cases refused
        exact kind.elim
      · rw [failed] at read
        contradiction
  · rintro rfl
    exact ⟨.noBytes, rfl, rfl⟩

/-- An instruction is known by its address and its bytes. -/
theorem eq_of_bytes_eq {insn other : Instruction} (addresses : insn.address = other.address)
    (same : insn.bytes = other.bytes) : insn = other := by
  obtain ⟨opcodes, operands⟩ := List.cons.inj same
  cases insn
  cases other
  dsimp only at addresses opcodes operands
  subst addresses opcodes operands
  rfl

/-- What is read at an address is the front of the bytes, as long as its opcode says, and it is
neither forbidden nor cut off by the end of the address space. -/
theorem front_of_decode {bytes : List UInt8} {insn : Instruction} (inside : IsAddress addr)
    (read : decode bytes addr space = .ok insn) :
    insn.address = addr ∧ insn.bytes = bytes.take insn.length ∧
      ¬Forbidden space addr insn.length ∧ addr + insn.length ≤ 0x10000 := by
  cases bytes with
  | nil => contradiction
  | cons byte rest =>
    obtain ⟨allowed, complete⟩ := (exists_decode_iff inside).mp ⟨insn, read⟩
    obtain ⟨found, decoded, address, front⟩ := decode_of_complete inside allowed complete
    obtain rfl := Except.ok.inj (decoded.symm.trans read)
    have opcode : found.opcode = byte := by
      have heads := congrArg List.head? front
      unfold Opcode.length at heads
      rw [Nat.add_comm, List.take_succ_cons] at heads
      exact Option.some.inj heads
    unfold length
    rw [opcode]
    exact ⟨address, front, allowed, Int.not_lt.mp (not_or.mp complete).1⟩

/-- What is behind an instruction makes no difference to reading it. -/
theorem decode_bytes_append {bytes : List UInt8} {insn : Instruction} (inside : IsAddress addr)
    (read : decode bytes addr space = .ok insn) (behind : List UInt8) :
    decode (insn.bytes ++ behind) addr space = .ok insn := by
  obtain ⟨rfl, _, allowed, fits⟩ := front_of_decode inside read
  have complete : ¬CutOff insn.address (Opcode.length insn.opcode)
      (insn.bytes ++ behind).length := by
    rintro (past | few)
    · exact Int.not_lt.mpr fits past
    · rw [List.length_append, insn.length_bytes] at few
      unfold length at few
      omega
  obtain ⟨found, decoded, address, front⟩ := decode_of_complete inside allowed complete
  have whole : found.bytes = insn.bytes := front.trans (List.take_left' insn.length_bytes)
  obtain rfl := eq_of_bytes_eq address whole
  exact decoded

/-- No shorter front of an instruction is an instruction. -/
theorem exists_error_of_front {bytes front : List UInt8} {insn : Instruction}
    (inside : IsAddress addr) (read : decode bytes addr space = .ok insn)
    (begins : front <+: insn.bytes) (shorter : front ≠ insn.bytes) :
    ∃ e, decode front addr space = .error e := by
  cases decoded : decode front addr space with
  | error e => exact ⟨e, rfl⟩
  | ok other =>
    -- What the front is read as is read from the whole encoding too.
    have part : other.bytes <+: front := by
      rw [(front_of_decode inside decoded).2.1]
      exact List.take_prefix ..
    obtain ⟨behind, whole⟩ := part.trans begins
    have again := decode_bytes_append inside read []
    rw [List.append_nil, ← whole, decode_bytes_append inside decoded behind] at again
    obtain rfl := Except.ok.inj again
    exact absurd (List.IsPrefix.eq_of_length_le begins part.length_le) shorter

/-- An instruction is its opcode with the little-endian form of its operand, if it has one. -/
theorem bytes_eq_operand? (insn : Instruction) :
    insn.bytes = insn.opcode :: insn.operand?.elim [] (toLittleEndian (insn.length - 1)) := by
  rw [bytes_eq]
  unfold operand?
  split
  case isTrue none =>
    have single : insn.length = 1 := by
      rw [← insn.length_bytes]
      unfold bytes
      rw [none]
      rfl
    rw [single]
    rfl
  case isFalse => rfl

end

/-- Reading at an address fails exactly where there is no byte, where the encoding is forbidden,
and where it is cut off, the first of these that holds being the reason; being forbidden depends on
the first byte alone. What is read is the front of the bytes and the form of its operand, is read
whatever follows, and no shorter front of it is read. -/
theorem decode_exact (space : Option AddressSpace) {addr : Int} (inside : IsAddress addr) :
    (∀ bytes, FailsFor (· = .noBytes) bytes addr space ↔ bytes = []) ∧
    (∀ byte rest, FailsFor DecodeError.IsForbidden (byte :: rest) addr space ↔
      Forbidden space addr (Opcode.length byte)) ∧
    (∀ byte rest, FailsFor DecodeError.IsTruncated (byte :: rest) addr space ↔
      ¬Forbidden space addr (Opcode.length byte) ∧
        CutOff addr (Opcode.length byte) (byte :: rest).length) ∧
    (∀ byte rest, (∃ insn, decode (byte :: rest) addr space = .ok insn) ↔
      ¬Forbidden space addr (Opcode.length byte) ∧
        ¬CutOff addr (Opcode.length byte) (byte :: rest).length) ∧
    (∀ bytes insn, decode bytes addr space = .ok insn →
      insn.address = addr ∧ insn.bytes = bytes.take insn.length ∧
      insn.bytes = insn.opcode :: insn.operand?.elim [] (toLittleEndian (insn.length - 1)) ∧
      (∀ behind, decode (insn.bytes ++ behind) addr space = .ok insn) ∧
      ∀ front, front <+: insn.bytes → front ≠ insn.bytes →
        ∃ e, decode front addr space = .error e) ∧
    (∀ byte rest, FailsFor DecodeError.IsForbidden (byte :: rest) addr space →
      ∀ others, FailsFor DecodeError.IsForbidden (byte :: others) addr space) := by
  refine ⟨fun _ => failsFor_noBytes_iff inside, fun _ _ => failsFor_isForbidden_iff inside,
    fun _ _ => failsFor_isTruncated_iff inside, fun _ _ => exists_decode_iff inside, ?_, ?_⟩
  · intro bytes insn read
    obtain ⟨address, front, _⟩ := front_of_decode inside read
    exact ⟨address, front, insn.bytes_eq_operand?, decode_bytes_append inside read,
      fun _ => exists_error_of_front inside read⟩
  · intro byte rest fails others
    exact decode_of_forbidden inside ((failsFor_isForbidden_iff inside).mp fails)

/-- At the last address an encoding of one byte is read, and one of three bytes is cut off. -/
theorem decode_exact_top : IsAddress 0xFFFF ∧
    (∃ insn, decode [0xEA] 0xFFFF none = .ok insn) ∧
    FailsFor DecodeError.IsTruncated [0x20, 0x00, 0xC0] 0xFFFF none := by
  have inside : IsAddress 0xFFFF := by
    unfold IsAddress
    decide
  have unforbidden : ∀ length, ¬Forbidden none 0xFFFF length := by
    intro length
    simp [Forbidden, Executable]
  obtain ⟨_, _, truncated, readable, _⟩ := decode_exact none inside
  refine ⟨inside, (readable 0xEA []).mpr ⟨unforbidden _, ?_⟩,
    (truncated 0x20 [0x00, 0xC0]).mpr ⟨unforbidden _, .inl (by decide)⟩⟩
  rintro (past | few)
  · exact absurd past (by decide)
  · exact absurd few (by decide)

end Instruction

end BankTrace
