import BankTrace.Trace.Journal

/-!
# What a journal holds

Recording instructions under a snapshot keeps what the journal had, adds nothing but the
instructions under the snapshot without its number, and leaves an entry at the address of each.
-/

namespace BankTrace.Journal

/-- The journal has an entry for an address under a snapshot. -/
def Has (j : Journal) (snapshot : Snapshot) (addr : Int) : Prop :=
  ∃ insn, (snapshot, insn) ∈ j.entries ∧ insn.address = addr

/-- An entry is in the first chapter or in a later one. -/
theorem mem_entries_cons {s snapshot : Snapshot} {insn : Instruction} {known : List Instruction}
    {rest : List (Snapshot × List Instruction)} :
    (s, insn) ∈ entries ⟨(snapshot, known) :: rest⟩ ↔
      s = snapshot ∧ insn ∈ known ∨ (s, insn) ∈ entries ⟨rest⟩ := by
  unfold entries
  simp only [List.flatMap_cons, List.mem_append, List.mem_map, Prod.mk.injEq]
  constructor
  · rintro (⟨other, member, rfl, rfl⟩ | later)
    · exact .inl ⟨rfl, member⟩
    · exact .inr later
  · rintro (⟨rfl, member⟩ | later)
    · exact .inl ⟨insn, member, rfl, rfl⟩
    · exact .inr later

/-- Every entry behind an extension was there before or is new. -/
theorem mem_or_of_mem_extend {s snapshot : Snapshot} {insn : Instruction}
    {insns : List Instruction} {chapters : List (Snapshot × List Instruction)}
    (member : (s, insn) ∈ entries ⟨extend snapshot insns chapters⟩) :
    (s, insn) ∈ entries ⟨chapters⟩ ∨ s = snapshot ∧ insn ∈ insns := by
  induction chapters with
  | nil =>
    rw [extend, mem_entries_cons] at member
    exact member.symm
  | cons chapter rest ih =>
    obtain ⟨name, known⟩ := chapter
    rw [mem_entries_cons]
    by_cases here : name = snapshot
    · rw [extend, if_pos here, mem_entries_cons, List.mem_append] at member
      rcases member with ⟨same, old | new⟩ | later
      · exact .inl (.inl ⟨same, old⟩)
      · exact .inr ⟨same.trans here, (mem_unseen.mp new).1⟩
      · exact .inl (.inr later)
    · rw [extend, if_neg here, mem_entries_cons] at member
      rcases member with first | later
      · exact .inl (.inl first)
      · exact (ih later).imp_left .inr

/-- An extension keeps every entry. -/
theorem mem_extend_of_mem {s : Snapshot} {insn : Instruction} (snapshot : Snapshot)
    (insns : List Instruction) {chapters : List (Snapshot × List Instruction)}
    (member : (s, insn) ∈ entries ⟨chapters⟩) :
    (s, insn) ∈ entries ⟨extend snapshot insns chapters⟩ := by
  induction chapters with
  | nil => contradiction
  | cons chapter rest ih =>
    obtain ⟨name, known⟩ := chapter
    rw [mem_entries_cons] at member
    rw [extend]
    split
    · rw [mem_entries_cons, List.mem_append]
      exact member.imp_left fun first => ⟨first.1, .inl first.2⟩
    · rw [mem_entries_cons]
      exact member.imp_right ih

/-- Behind an extension there is an entry at the address of every instruction. -/
theorem exists_mem_extend {snapshot : Snapshot} {insn : Instruction} {insns : List Instruction}
    (new : insn ∈ insns) (chapters : List (Snapshot × List Instruction)) :
    ∃ known, (snapshot, known) ∈ entries ⟨extend snapshot insns chapters⟩ ∧
      known.address = insn.address := by
  induction chapters with
  | nil =>
    rw [extend]
    exact ⟨insn, mem_entries_cons.mpr (.inl ⟨rfl, new⟩), rfl⟩
  | cons chapter rest ih =>
    obtain ⟨name, known⟩ := chapter
    by_cases here : name = snapshot
    · subst here
      rw [extend, if_pos rfl]
      by_cases seen : ∃ other ∈ known, other.address = insn.address
      · obtain ⟨other, member, address⟩ := seen
        exact ⟨other, mem_entries_cons.mpr (.inl ⟨rfl, List.mem_append_left _ member⟩), address⟩
      · have unseen : insn ∈ unseen known insns :=
          mem_unseen.mpr ⟨new, fun other member same => seen ⟨other, member, same⟩⟩
        exact ⟨insn, mem_entries_cons.mpr (.inl ⟨rfl, List.mem_append_right _ unseen⟩), rfl⟩
    · obtain ⟨other, member, address⟩ := ih
      rw [extend, if_neg here]
      exact ⟨other, mem_entries_cons.mpr (.inr member), address⟩

/-- The first record of a journal has its instructions. -/
theorem mem_record_empty {s snapshot : Snapshot} {insn : Instruction} {insns : List Instruction} :
    (s, insn) ∈ (record {} snapshot insns).entries ↔ s = snapshot.unversioned ∧ insn ∈ insns := by
  refine mem_entries_cons.trans (or_iff_left ?_)
  intro absurdity
  contradiction

/-- What is recorded was there before or is an instruction under the snapshot without its number. -/
theorem mem_or_of_mem_record {j : Journal} {s snapshot : Snapshot} {insn : Instruction}
    {insns : List Instruction} (member : (s, insn) ∈ (j.record snapshot insns).entries) :
    (s, insn) ∈ j.entries ∨ s = snapshot.unversioned ∧ insn ∈ insns :=
  mem_or_of_mem_extend member

/-- Recording keeps every entry. -/
theorem mem_record_of_mem {j : Journal} {s : Snapshot} {insn : Instruction} (snapshot : Snapshot)
    (insns : List Instruction) (member : (s, insn) ∈ j.entries) :
    (s, insn) ∈ (j.record snapshot insns).entries :=
  mem_extend_of_mem snapshot.unversioned insns member

/-- The addresses behind a record are those before and those of the instructions. -/
theorem has_record_iff {j : Journal} {s snapshot : Snapshot} {insns : List Instruction}
    {addr : Int} :
    (j.record snapshot insns).Has s addr ↔
      j.Has s addr ∨ s = snapshot.unversioned ∧ ∃ insn ∈ insns, insn.address = addr := by
  constructor
  · rintro ⟨insn, member, address⟩
    rcases mem_or_of_mem_record member with old | ⟨same, new⟩
    · exact .inl ⟨insn, old, address⟩
    · exact .inr ⟨same, insn, new, address⟩
  · rintro (⟨insn, old, address⟩ | ⟨rfl, insn, new, address⟩)
    · exact ⟨insn, mem_record_of_mem snapshot insns old, address⟩
    · obtain ⟨known, member, same⟩ := exists_mem_extend new j.chapters
      exact ⟨known, member, same.trans address⟩

end BankTrace.Journal
