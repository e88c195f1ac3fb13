import BankTrace.Proofs.Trace.Contest
import BankTrace.Proofs.Trace.Journal
import BankTrace.Proofs.Trace.Marking

/-!
# Exact reachability

Where the mapped addresses have log bytes of their own, a run without limit finds exactly what is
reachable: the least set of addresses that has the starts and goes on behind every accepted
instruction. What it finds, records and marks, and how often each thing happens to a visit, does not
depend on the order in which the waiting addresses are taken.
-/

namespace BankTrace

/-- Two results have the same totals, and refuse the same instructions for the same reasons. -/
structure Result.SameTotals (r s : Result) : Prop where
  steps : r.steps = s.steps
  decoded : r.decoded = s.decoded
  accepted : r.accepted = s.accepted
  skipped : r.skipped = s.skipped
  discarded : r.discarded = s.discarded
  decodeErrors : r.decodeErrors = s.decodeErrors
  refusals : r.refusals.Perm s.refusals

/-- Results of the same visits in another order have the same totals. -/
theorem Result.sameTotals_of_perm {r s : Result} (same : r.visits.Perm s.visits) :
    r.SameTotals s := by
  have outcomes : r.outcomes.Perm s.outcomes := same.map Visit.outcome
  constructor
  case steps => exact same.length_eq
  case decoded => exact (outcomes.filterMap _).length_eq
  case accepted => exact (outcomes.filterMap _).length_eq
  case skipped => exact outcomes.countP_eq _
  case discarded => exact outcomes.countP_eq _
  case decodeErrors => exact outcomes.countP_eq _
  case refusals => exact outcomes.filterMap _

/-- Where addresses have log bytes of their own, candidates have positions of their own. -/
theorem Scene.candidatesApart {scene : Scene} (distinct : scene.map.DistinctPositions) :
    scene.CandidatesApart := by
  intro x y l m candidate candidate' positions
  obtain ⟨found, analyzable, executable, _⟩ := candidate?_eq_some_iff.mp candidate
  obtain ⟨found', analyzable', executable', _⟩ := candidate?_eq_some_iff.mp candidate'
  have bounds := AddressSpace.bounds_of_executable executable
  have bounds' := AddressSpace.bounds_of_executable executable'
  have wrapped := distinct x y l m found found' analyzable analyzable' positions
  rw [wrapAddress_of_bounds bounds.1 bounds.2, wrapAddress_of_bounds bounds'.1 bounds'.2] at wrapped
  exact wrapped

/-- Some instruction is accepted at an address. -/
def Scene.AcceptsAt (scene : Scene) (addr : Int) : Prop :=
  ∃ location insn, scene.Accepts addr location insn

namespace Analyzer

/-- A run finds exactly the accepted instructions that are reachable from the starts: these are its
instructions, they are recorded beside what was recorded before, and their bytes are marked beside
the bytes that were marked before. -/
structure Exact (scene : Scene) (starts : List Int) (before after : Analysis) (snapshot : Snapshot)
    (result : Result) : Prop where
  /-- The instructions of the run are those that are accepted at reachable addresses. -/
  instructions : ∀ insn, insn ∈ result.instructions ↔
    scene.Reaches starts insn.address ∧ ∃ location, scene.Accepts insn.address location insn
  /-- The addresses are recorded under the snapshot without its number. -/
  recorded : ∀ s addr, after.journal.Has s addr ↔
    before.journal.Has s addr ∨
      s = snapshot.unversioned ∧ scene.Reaches starts addr ∧ scene.AcceptsAt addr
  /-- Every new entry is the instruction that is accepted at its address. -/
  faithful : ∀ s insn, (s, insn) ∈ after.journal.entries →
    (s, insn) ∈ before.journal.entries ∨
      s = snapshot.unversioned ∧ scene.Reaches starts insn.address ∧
        ∃ location, scene.Accepts insn.address location insn
  /-- The bytes of the instructions are marked as code. -/
  marked : ∀ p, before.store.Has p →
    (Cdl.hasAny Cdl.code (after.store.byteAt p) = true ↔
      Cdl.hasAny Cdl.code (before.store.byteAt p) = true ∨
        ∃ addr location insn, scene.Reaches starts addr ∧ scene.Accepts addr location insn ∧
          scene.map.Covers addr insn.length p)

section

variable {a : Analyzer} {before after after' : Analysis} {snapshot : Snapshot} {map : MemoryMap}
  {entries loaded : List Int} {t u : Traversal}

/-- Every address that a run visits is reachable from its starts. -/
theorem Ran.reached (ran : a.Ran before snapshot map entries loaded t after) :
    ∀ v ∈ t.visits,
      (a.scene map before.store loaded).Reaches (a.seeds map entries ++ loaded) v.address := by
  obtain ⟨waiting, arranged, led⟩ := ran.led
  have begun := Traversal.consistent_start (a.scene map before.store loaded) arranged
  have starts : ∀ addr ∈ waiting.toList ++ ([] : List Visit).map Visit.address,
      (a.scene map before.store loaded).Reaches (a.seeds map entries ++ loaded) addr := by
    intro addr member
    rw [List.map_nil, List.append_nil] at member
    exact .start (arranged.mem_iff.mp member)
  intro v member
  apply Traversal.reaches_of_leads begun led starts
  exact List.mem_append_right _ (List.mem_map_of_mem member)

/-- A run that leaves nothing waiting believes the instructions that are accepted at reachable
addresses. -/
theorem Ran.mem_believed_iff (ran : a.Ran before snapshot map entries loaded t after)
    (distinct : map.DistinctPositions) (complete : t.IsComplete) {insn : Instruction} :
    insn ∈ t.believed ↔
      (a.scene map before.store loaded).Reaches (a.seeds map entries ++ loaded) insn.address ∧
        ∃ location, (a.scene map before.store loaded).Accepts insn.address location insn :=
  ran.consistent.mem_believed_iff ran.reached (Scene.candidatesApart distinct) complete

/-- A run that leaves nothing waiting believes what is accepted at its entries. -/
theorem Ran.believed_of_entry (ran : a.Ran before snapshot map entries loaded t after)
    (distinct : map.DistinctPositions) (complete : t.IsComplete) {l : Location}
    {insn : Instruction} (entry : (l.address : Int) ∈ entries)
    (accepted : (a.scene map before.store loaded).Accepts l.address l insn) :
    insn ∈ t.believed := by
  have seed : (l.address : Int) ∈ a.seeds map entries := by
    have below := l.address_lt
    refine List.mem_append_right _ (List.mem_map.mpr ⟨_, entry, ?_⟩)
    exact wrapAddress_of_bounds (Int.natCast_nonneg _) (by omega)
  rw [ran.mem_believed_iff distinct complete, accepted.address_eq]
  exact ⟨.start (List.mem_append_left _ seed), l, accepted⟩

/-- A run that leaves nothing waiting finds exactly what is reachable. -/
theorem Ran.exact (ran : a.Ran before snapshot map entries loaded t after)
    (distinct : map.DistinctPositions) (complete : t.IsComplete) {result : Result}
    (visits : result.visits = t.visits.reverse) :
    Exact (a.scene map before.store loaded) (a.seeds map entries ++ loaded) before after snapshot
      result := by
  have believed : ∀ insn, insn ∈ t.believed ↔
      (a.scene map before.store loaded).Reaches (a.seeds map entries ++ loaded) insn.address ∧
        ∃ location, (a.scene map before.store loaded).Accepts insn.address location insn :=
    fun _ => ran.mem_believed_iff distinct complete
  have journal : after.journal = before.journal.record snapshot t.believed := ran.journal_eq
  constructor
  case instructions =>
    intro insn
    rw [Traversal.instructions_eq_believed visits]
    exact believed insn
  case recorded =>
    intro s addr
    rw [journal, Journal.has_record_iff]
    refine or_congr_right (and_congr_right fun _ => ?_)
    constructor
    · rintro ⟨insn, member, rfl⟩
      obtain ⟨reached, location, accepted⟩ := (believed insn).mp member
      exact ⟨reached, location, insn, accepted⟩
    · rintro ⟨reached, location, insn, accepted⟩
      have address := accepted.address_eq
      subst address
      exact ⟨insn, (believed insn).mpr ⟨reached, location, accepted⟩, rfl⟩
  case faithful =>
    intro s insn member
    rw [journal] at member
    rcases Journal.mem_or_of_mem_record member with old | ⟨same, new⟩
    · exact .inl old
    · exact .inr ⟨same, (believed insn).mp new⟩
  case marked =>
    intro p present
    rw [ran.code_iff present]
    refine or_congr_right ?_
    constructor
    · rintro ⟨insn, member, covered⟩
      obtain ⟨reached, location, accepted⟩ := (believed insn).mp member
      exact ⟨insn.address, location, insn, reached, accepted, covered⟩
    · rintro ⟨addr, location, insn, reached, accepted, covered⟩
      have address := accepted.address_eq
      subst address
      exact ⟨insn, (believed insn).mpr ⟨reached, location, accepted⟩, covered⟩

/-- Two runs from the same analysis that leave nothing waiting make the same visits. -/
theorem Ran.visits_perm (ran : a.Ran before snapshot map entries loaded t after)
    (ran' : a.Ran before snapshot map entries loaded u after') (distinct : map.DistinctPositions)
    (complete : t.IsComplete) (complete' : u.IsComplete) : t.visits.Perm u.visits := by
  have apart : (a.scene map before.store loaded).CandidatesApart := Scene.candidatesApart distinct
  exact ran.consistent.visits_perm ran'.consistent apart ran.reached ran'.reached complete complete'

end

/-- Where the mapped addresses have log bytes of their own, a run without limit succeeds in both
orders. In whatever order it takes the waiting addresses, it comes to an end after a bounded number
of visits, finds exactly what is reachable from the seeds and the loaded code, and has the same
totals. -/
theorem run_exact (a : Analyzer) (before : Analysis) (snapshot : Snapshot) (map : MemoryMap)
    (made : before.store.MadeFor a.banks.declared)
    (valid : MemoryMap.ofSnapshot a.banks snapshot = .ok map) (distinct : map.DistinctPositions)
    (entries : List Int) :
    ∃ seeds loaded, (a.seed before snapshot entries).result = .ok seeds ∧
      a.loadedStarts before.store snapshot = .ok loaded ∧
      (∀ order workers, 1 ≤ workers → ∃ result,
        (({ a with order } : Analyzer).run before snapshot entries workers none).result =
          .ok result ∧
        a.Completes before snapshot entries
          (({ a with order } : Analyzer).run before snapshot entries workers none).analysis
          result) ∧
      (∀ start t, a.CanReach before snapshot entries start t →
        t.visits.length ≤ (seeds ++ loaded).length + 2 * addressCount) ∧
      (∀ after result, a.Completes before snapshot entries after result →
        Exact (a.scene map before.store loaded) (seeds ++ loaded) before after snapshot result) ∧
      ∀ after result after' result', a.Completes before snapshot entries after result →
        a.Completes before snapshot entries after' result' → result.SameTotals result' := by
  obtain ⟨events, loaded, found, prepared⟩ := a.prepare_of_valid made valid entries
  have swept : a.loadedStarts before.store snapshot = .ok loaded := by
    unfold loadedStarts
    rw [valid]
    exact found
  refine ⟨a.seeds map entries, loaded, a.result_seed_eq made valid entries, swept, ?_, ?_, ?_, ?_⟩
  · intro order workers staffed
    exact a.completes_of_run made valid order entries staffed
  · intro start t reach
    obtain ⟨_, _, ran⟩ := reach.ran made valid 1 none
    have same : start.loaded = loaded := Except.ok.inj (ran.loaded_eq.symm.trans found)
    have bound := ran.consistent.length_le
    rw [same] at bound
    omega
  · intro after result completes
    obtain ⟨_, t, ran, complete, visits⟩ := completes.ran made valid
    obtain rfl := Except.ok.inj (ran.loaded_eq.symm.trans found)
    exact ran.exact distinct complete visits
  · intro after result after' result' completes completes'
    obtain ⟨_, t, ran, complete, visits⟩ := completes.ran made valid
    obtain ⟨_, u, ran', complete', visits'⟩ := completes'.ran made valid
    obtain rfl := Except.ok.inj (ran.loaded_eq.symm.trans found)
    obtain rfl := Except.ok.inj (ran'.loaded_eq.symm.trans found)
    apply Result.sameTotals_of_perm
    rw [visits, visits']
    have same := ran.visits_perm ran' distinct complete complete'
    exact ((List.reverse_perm _).trans same).trans (List.reverse_perm _).symm

/-- A run from the first byte of a bank that is filled with `rts` finds the instruction there. -/
theorem run_exact_sole : ∃ result,
    (sole.run { store := soleLog } {} [0x8000] 1 none).result = .ok result ∧
      soleInstruction ∈ result.instructions := by
  have distinct : soleMap.DistinctPositions := MemoryMap.SlicesApart.distinctPositions (by decide)
  obtain ⟨seeds, loaded, seeded, swept, runs, _, exact, _⟩ :=
    run_exact sole { store := soleLog } {} soleMap madeFor_sole ofSnapshot_sole distinct [0x8000]
  obtain ⟨result, answer, completes⟩ := runs .fifo 1 (Int.le_refl 1)
  have unread := Cdl.Store.loadedAt_of_forBanks forBanks_sole
  obtain rfl : loaded = [] := MemoryMap.loadedStarts_eq_nil (fun l _ => unread l.position) swept
  have started : seeds = [0x8000] := Except.ok.inj
    (seeded.symm.trans (sole.result_seed_eq madeFor_sole ofSnapshot_sole [0x8000]))
  have reached : (sole.scene soleMap soleLog []).Reaches (seeds ++ []) 0x8000 := by
    rw [started]
    exact .start List.mem_cons_self
  refine ⟨result, answer, ?_⟩
  exact ((exact _ _ completes).instructions soleInstruction).mpr ⟨reached, _, accepts_sole⟩

end Analyzer

end BankTrace
