import BankTrace.Proofs.Trace.Reachability
import BankTrace.Trace.Result

/-!
# What a traversal believes

Every instruction that a traversal believes is one that its scene accepts, and it ends inside its
bank. Where candidates are apart, a complete traversal believes exactly the instructions that are
accepted at reachable addresses.
-/

namespace BankTrace

/-- No more bytes are read at a location than its bank has from there on. -/
theorem Location.length_bytes_le (l : Location) (count : Nat) :
    l.offset + (l.bytes count).length ≤ l.bank.size := by
  have inside := l.offset.isLt
  unfold bytes
  cases image : l.bank.image with
  | none =>
    simp only [List.length_nil]
    omega
  | some image =>
    simp only [Array.length_toList, Array.size_extract, Vector.size_toArray]
    omega

/-- An accepted instruction ends inside its bank. -/
theorem Scene.Accepts.fits {scene : Scene} {addr : Int} {location : Location} {insn : Instruction}
    (accepted : scene.Accepts addr location insn) :
    location.offset + insn.length ≤ location.bank.size := by
  have front := (Instruction.decode_eq_ok_iff.mp accepted.decoded).2.1.length_le
  have room := location.length_bytes_le 3
  rw [insn.length_bytes] at front
  omega

namespace Traversal

variable {scene : Scene} {starts : List Int} {t : Traversal}

/-- The instructions that a traversal believes, in the order of the visits. -/
def believed (t : Traversal) : List Instruction := t.outcomes.filterMap Outcome.accepted?

/-- An instruction is believed where some visit accepted it. -/
theorem mem_believed {insn : Instruction} :
    insn ∈ t.believed ↔ ∃ v ∈ t.visits, ∃ location warnings successors,
      v.outcome = .accepted location insn warnings successors := by
  unfold believed outcomes
  simp only [List.mem_filterMap, List.mem_map, List.mem_reverse, Outcome.accepted?_eq_some_iff]
  constructor
  · rintro ⟨_, ⟨v, visited, rfl⟩, accepted⟩
    exact ⟨v, visited, accepted⟩
  · rintro ⟨v, visited, accepted⟩
    exact ⟨v.outcome, ⟨v, visited, rfl⟩, accepted⟩

/-- The instructions of a result are those that the traversal believes. -/
theorem instructions_eq_believed {result : Result} (visits : result.visits = t.visits.reverse) :
    result.instructions = t.believed := by
  unfold Result.instructions Result.outcomes
  rw [visits]
  rfl

/-- The scene accepts every believed instruction. -/
theorem Consistent.accepts (consistent : Consistent scene starts t) {v : Visit}
    (visited : v ∈ t.visits) {location : Location} {insn : Instruction} {warnings : List Event}
    {successors : List Int} (outcome : v.outcome = .accepted location insn warnings successors) :
    v.address = insn.address ∧ scene.Accepts insn.address location insn := by
  have accepted := (accepts_of_explained (consistent.explained v visited) outcome).1
  rw [accepted.address_eq]
  exact ⟨rfl, accepted⟩

/-- The scene accepts every believed instruction somewhere. -/
theorem Consistent.exists_accepts (consistent : Consistent scene starts t) {insn : Instruction}
    (member : insn ∈ t.believed) : ∃ location, scene.Accepts insn.address location insn := by
  obtain ⟨v, visited, location, _, _, outcome⟩ := mem_believed.mp member
  exact ⟨location, (consistent.accepts visited outcome).2⟩

/-- A complete traversal believes the instructions that are accepted at reachable addresses. -/
theorem Consistent.mem_believed_iff (consistent : Consistent scene starts t)
    (reached : ∀ v ∈ t.visits, scene.Reaches starts v.address) (apart : scene.CandidatesApart)
    (complete : t.IsComplete) {insn : Instruction} :
    insn ∈ t.believed ↔ scene.Reaches starts insn.address ∧
      ∃ location, scene.Accepts insn.address location insn := by
  constructor
  · intro member
    obtain ⟨v, visited, location, _, _, outcome⟩ := mem_believed.mp member
    obtain ⟨address, accepted⟩ := consistent.accepts visited outcome
    rw [← address]
    exact ⟨reached v visited, location, address ▸ accepted⟩
  · rintro ⟨reaches, location, accepted⟩
    obtain ⟨v, visited, address⟩ := consistent.mem_visited apart complete reaches
    have candidate := (Scene.accepts_iff.mp accepted).1
    rw [← address] at candidate
    have inspected := consistent.inspected apart visited candidate
    rw [address, inspect_of_accepts accepted] at inspected
    exact mem_believed.mpr ⟨_, inspected, _, _, _, rfl⟩

end Traversal

end BankTrace
