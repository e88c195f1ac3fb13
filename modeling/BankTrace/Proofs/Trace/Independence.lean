import Mathlib.Logic.Function.Iterate
import BankTrace.Proofs.Cdl.Union
import BankTrace.Proofs.Trace.Effect

/-!
# Runs under several snapshots

Runs that follow each other share the log, the claims and the journal, and still none of them knows
of another: what a run answers and which bits it adds is fixed by what was last read from the log,
and a run reads nothing. So runs under several snapshots answer what each answers alone, they add
the bits that each adds alone, and in another order they leave the same log and the same journal.
-/

namespace BankTrace

namespace Journal

/-- What a chapter holds when instructions have been added to it. -/
def extended (insns : List Instruction) : Option (List Instruction) → List Instruction
  | none => insns
  | some known => known ++ unseen known insns

/-- Recording changes the chapter of the snapshot without its number, and no other one. -/
theorem lookup_record (j : Journal) (snapshot u : Snapshot) (insns : List Instruction) :
    (j.record snapshot insns).chapters.lookup u =
      if snapshot.unversioned = u then some (extended insns (j.chapters.lookup u))
      else j.chapters.lookup u := by
  obtain ⟨chapters⟩ := j
  unfold record
  dsimp only
  induction chapters with
  | nil =>
    rw [extend, List.lookup_cons]
    by_cases here : snapshot.unversioned = u
    · simp [here, extended]
    · have differs : (u == snapshot.unversioned) = false := beq_false_of_ne (Ne.symm here)
      simp [here, differs]
  | cons chapter rest ih =>
    obtain ⟨name, known⟩ := chapter
    rw [extend]
    by_cases first : name = snapshot.unversioned
    · rw [if_pos first, List.lookup_cons, List.lookup_cons]
      by_cases here : snapshot.unversioned = u
      · simp [here, first, extended]
      · have differs : (u == name) = false := by
          rw [first]
          exact beq_false_of_ne (Ne.symm here)
        simp [here, differs]
    · rw [if_neg first, List.lookup_cons, List.lookup_cons, ih]
      by_cases here : u = name
      · simp [here, Ne.symm first]
      · have differs : (u == name) = false := beq_false_of_ne here
        simp [differs]

/-- Record under one snapshot after the other what belongs to each. -/
def recordAll (j : Journal) (insns : Snapshot → List Instruction) (snapshots : List Snapshot) :
    Journal :=
  snapshots.foldl (fun j s => j.record s (insns s)) j

/-- A chapter is extended as often as its snapshot is among those that are recorded. -/
theorem lookup_recordAll (insns : Snapshot → List Instruction) {common : List Instruction}
    {u : Snapshot} {snapshots : List Snapshot}
    (agree : ∀ s ∈ snapshots, s.unversioned = u → insns s = common) (j : Journal) :
    (j.recordAll insns snapshots).chapters.lookup u =
      (fun chapter => some (extended common chapter))^[snapshots.countP (·.unversioned = u)]
        (j.chapters.lookup u) := by
  induction snapshots generalizing j with
  | nil => rfl
  | cons s rest ih =>
    have later := ih (fun t member => agree t (List.mem_cons_of_mem s member))
      (j.record s (insns s))
    rw [recordAll, List.foldl_cons]
    rw [recordAll] at later
    rw [later, lookup_record]
    by_cases here : s.unversioned = u
    · rw [if_pos here, agree s List.mem_cons_self here,
        List.countP_cons_of_pos (by simpa using here)]
      rfl
    · rw [if_neg here, List.countP_cons_of_neg (by simpa using here)]

/-- The order of records does not count when snapshots that differ in their numbers alone have the
same instructions. -/
theorem lookup_recordAll_perm {insns : Snapshot → List Instruction} {left right : List Snapshot}
    (same : left.Perm right)
    (plain : ∀ s ∈ left, ∀ t ∈ left, s.unversioned = t.unversioned → insns s = insns t)
    (j : Journal) (u : Snapshot) :
    (j.recordAll insns left).chapters.lookup u = (j.recordAll insns right).chapters.lookup u := by
  obtain ⟨common, agree⟩ : ∃ common, ∀ s ∈ left, s.unversioned = u → insns s = common := by
    by_cases present : ∃ s ∈ left, s.unversioned = u
    · obtain ⟨t, member, here⟩ := present
      exact ⟨insns t, fun s member' here' => plain s member' t member (here'.trans here.symm)⟩
    · exact ⟨[], fun s member here => absurd ⟨s, member, here⟩ present⟩
  rw [lookup_recordAll insns agree,
    lookup_recordAll insns fun s member => agree s (same.mem_iff.mpr member), same.countP_eq]

end Journal

namespace Analyzer

section

variable (a : Analyzer) {before : Analysis} {snapshot : Snapshot} {entries : List Int}
  {workers : Int} {limit : Option Int}

/-- A run that answers has been prepared, and its answer is that of the traversal. -/
theorem exists_start_of_run {r : Result}
    (answered : (a.run before snapshot entries workers limit).result = .ok r) :
    ∃ start, (a.prepare before snapshot entries).result = .ok start ∧
      (a.traverse (a.prepare before snapshot entries).analysis snapshot start workers
        limit).result = .ok r ∧
      (a.run before snapshot entries workers limit).analysis =
        (a.traverse (a.prepare before snapshot entries).analysis snapshot start workers
          limit).analysis := by
  rcases Int.lt_or_le workers 1 with idle | staffed
  · rw [a.run_of_idle before idle] at answered
    contradiction
  · rw [a.run_of_staffed before staffed] at answered ⊢
    cases prepared : (a.prepare before snapshot entries).result with
    | error e =>
      rw [Answer.bind_of_error _ prepared] at answered
      contradiction
    | ok start =>
      rw [Answer.bind_of_ok _ prepared] at answered ⊢
      exact ⟨start, rfl, answered, rfl⟩

/-- A run that answers records the believed instructions of its answer. -/
theorem journal_run {r : Result}
    (answered : (a.run before snapshot entries workers limit).result = .ok r) :
    (a.run before snapshot entries workers limit).analysis.journal =
      before.journal.record snapshot r.instructions := by
  obtain ⟨start, _, traversed, analysis⟩ := a.exists_start_of_run answered
  obtain rfl := Except.ok.inj traversed
  rw [analysis, ← a.journal_prepare before snapshot entries]
  rfl

/-- Runs under snapshots that differ in their numbers alone believe the same instructions. -/
theorem instructions_eq_of_unversioned {other : Snapshot} {r r' : Result}
    (same : snapshot.unversioned = other.unversioned)
    (answered : (a.run before snapshot entries workers limit).result = .ok r)
    (answered' : (a.run before other entries workers limit).result = .ok r') :
    r.instructions = r'.instructions := by
  have prepared : a.prepare before other entries = a.prepare before snapshot entries := by
    unfold prepare
    rw [← MemoryMap.ofSnapshot_unversioned, ← same]
    rfl
  obtain ⟨start, begun, traversed, _⟩ := a.exists_start_of_run answered
  obtain ⟨start', begun', traversed', _⟩ := a.exists_start_of_run answered'
  rw [prepared, begun] at begun'
  obtain rfl := Except.ok.inj begun'
  obtain rfl := Except.ok.inj traversed
  obtain rfl := Except.ok.inj traversed'
  rw [prepared]
  rfl

end

/-- A run under a snapshot is answered. -/
def Answers (a : Analyzer) (before : Analysis) (entries : List Int) (limit : Option Int)
    (snapshot : Snapshot) : Prop :=
  ∃ r, (a.run before snapshot entries 1 limit).result = .ok r

/-- A run under a snapshot is answered when the store was made for the banks and the banks admit the
snapshot. -/
theorem answers_of_valid (a : Analyzer) {before : Analysis} {snapshot : Snapshot} {map : MemoryMap}
    (made : before.store.MadeFor a.banks.declared)
    (valid : MemoryMap.ofSnapshot a.banks snapshot = .ok map) (entries : List Int)
    (limit : Option Int) : a.Answers before entries limit snapshot := by
  obtain ⟨_, _, r, _, answered, _⟩ := a.exists_ran made valid entries (Int.le_refl 1) limit
  exact ⟨r, answered⟩

/-- What a run under a snapshot does by itself: in every analysis whose log was read like a given
one it gives the result and adds the bits. -/
structure Alone (a : Analyzer) (log : Cdl.Store) (entries : List Int) (limit : Option Int)
    (snapshot : Snapshot) (r : Result) (bits : Cdl.Position → UInt8) : Prop where
  /-- The result of the run. -/
  result : ∀ x : Analysis, log.ReadAlike x.store →
    (a.run x snapshot entries 1 limit).result = .ok r
  /-- What the run adds to the log. -/
  gains : ∀ x : Analysis, log.ReadAlike x.store →
    x.store.Gains bits (a.run x snapshot entries 1 limit).analysis.store

section

variable (a : Analyzer) {log : Cdl.Store} {entries : List Int} {limit : Option Int}
  {e : Snapshot → Effect Result} {alone : Snapshot → Result}

/-- Runs whose effects are known answer one by one, their marks are made one after the other, and
their instructions are recorded. -/
theorem runAll_of_effects
    (effect : ∀ s (x : Analysis), log.ReadAlike x.store → a.run x s entries 1 limit = (e s).on x)
    {snapshots : List Snapshot} (answered : ∀ s ∈ snapshots, (e s).result = .ok (alone s))
    {x : Analysis} (alike : log.ReadAlike x.store) :
    (a.runAll x entries 1 limit snapshots).result = .ok (snapshots.map alone) ∧
      (a.runAll x entries 1 limit snapshots).analysis.store.files =
        (x.store.markAll (snapshots.flatMap fun s => (e s).marks)).files ∧
      (a.runAll x entries 1 limit snapshots).analysis.journal =
        x.journal.recordAll (fun s => (alone s).instructions) snapshots := by
  induction snapshots generalizing x with
  | nil => exact ⟨rfl, rfl, rfl⟩
  | cons s rest ih =>
    have ran := effect s x alike
    have first : (a.run x s entries 1 limit).result = .ok (alone s) := by
      rw [ran]
      exact answered s List.mem_cons_self
    have recorded := a.journal_run first
    have behind : log.ReadAlike (a.run x s entries 1 limit).analysis.store := by
      rw [ran]
      exact alike.trans (.of_reading ((e s).adds x).1.symm)
    obtain ⟨results, files, journal⟩ :=
      ih (fun t member => answered t (List.mem_cons_of_mem s member)) behind
    rw [runAll, Answer.bind_of_ok _ first, Answer.bind_of_ok _ results]
    refine ⟨rfl, ?_, ?_⟩
    · have marked := congrArg Cdl.Store.files (Cdl.Store.markAll_with_claims
        (x.store.markAll (e s).marks) (e s).claims (rest.flatMap fun s => (e s).marks))
      dsimp only [Answer.ofExcept]
      rw [files, ran, List.flatMap_cons, Cdl.Store.markAll_append]
      exact marked
    · dsimp only [Answer.ofExcept]
      rw [journal, recorded]
      rfl

end

/-- Runs under several snapshots are independent. Every snapshot that is answered has a result and
bits of its own, which a run under it gives and adds in every analysis whose log was read like the
given one; the snapshots that the banks admit are among those when the store was made for the banks.
Runs under a list of such snapshots, in which some may be repeated, give the results one by one, and
they add the bits of all of them. In any other order they give the same results in that order, and
they leave the same files and record the same instructions. -/
theorem snapshots_independent (a : Analyzer) (before : Analysis) (entries : List Int)
    (limit : Option Int) :
    ∃ (alone : Snapshot → Result) (bits : Snapshot → Cdl.Position → UInt8),
      (before.store.MadeFor a.banks.declared → ∀ s map,
        MemoryMap.ofSnapshot a.banks s = .ok map → a.Answers before entries limit s) ∧
      (∀ s, a.Answers before entries limit s →
        a.Alone before.store entries limit s (alone s) (bits s)) ∧
      ∀ snapshots, (∀ s ∈ snapshots, a.Answers before entries limit s) →
        (a.runAll before entries 1 limit snapshots).result = .ok (snapshots.map alone) ∧
        before.store.Gains (fun p => (snapshots.map (bits · p)).foldr (· ||| ·) 0)
          (a.runAll before entries 1 limit snapshots).analysis.store ∧
        ∀ other, other.Perm snapshots →
          (a.runAll before entries 1 limit other).result = .ok (other.map alone) ∧
          (a.runAll before entries 1 limit other).analysis.store.files =
            (a.runAll before entries 1 limit snapshots).analysis.store.files ∧
          ∀ u, (a.runAll before entries 1 limit other).analysis.journal.chapters.lookup u =
            (a.runAll before entries 1 limit snapshots).analysis.journal.chapters.lookup u := by
  choose e effect using fun s => a.exists_effect before.store s entries limit
  have unread : before.store.ReadAlike before.store := .of_reading rfl
  have each : ∀ s, ∃ r, a.Answers before entries limit s → (e s).result = .ok r := by
    intro s
    by_cases answers : a.Answers before entries limit s
    · obtain ⟨r, answered⟩ := answers
      rw [effect s before unread] at answered
      exact ⟨r, fun _ => answered⟩
    · exact ⟨⟨s, [], [], [], false⟩, fun answers' => absurd answers' answers⟩
  choose alone answered using each
  refine ⟨alone, fun s => Cdl.Mark.bitsAt (e s).marks, ?_, ?_, ?_⟩
  · intro made s map valid
    exact a.answers_of_valid made valid entries limit
  · intro s answers
    constructor
    · intro x alike
      rw [effect s x alike]
      exact answered s answers
    · intro x alike
      rw [effect s x alike]
      exact (x.store.gains_markAll (e s).marks).of_files rfl
  · intro snapshots answers
    obtain ⟨results, files, journal⟩ :=
      a.runAll_of_effects effect (fun s member => answered s (answers s member)) unread
    refine ⟨results, ?_, ?_⟩
    · have union := before.store.gains_markAll (snapshots.flatMap fun s => (e s).marks)
      rw [funext (Cdl.Mark.bitsAt_flatMap (fun s => (e s).marks) snapshots)] at union
      exact union.of_files files
    · intro other same
      have answers' : ∀ s ∈ other, a.Answers before entries limit s :=
        fun s member => answers s (same.mem_iff.mp member)
      obtain ⟨results', files', journal'⟩ :=
        a.runAll_of_effects effect (fun s member => answered s (answers' s member)) unread
      have plain : ∀ s ∈ other, ∀ t ∈ other, s.unversioned = t.unversioned →
          (alone s).instructions = (alone t).instructions := by
        intro s member t member' unversioned
        have answer : ∀ s ∈ other,
            (a.run before s entries 1 limit).result = .ok (alone s) := by
          intro s member
          rw [effect s before unread]
          exact answered s (answers' s member)
        exact a.instructions_eq_of_unversioned unversioned (answer s member) (answer t member')
      refine ⟨results', ?_, ?_⟩
      · rw [files', files, Cdl.Store.markAll_perm (same.flatMap_right _)]
      · intro u
        rw [journal', journal]
        exact Journal.lookup_recordAll_perm same plain before.journal u

end Analyzer

end BankTrace
