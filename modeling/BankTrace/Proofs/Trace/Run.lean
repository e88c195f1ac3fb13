import BankTrace.Proofs.Trace.Preparation
import BankTrace.Proofs.Trace.Schedule

/-!
# What a run leaves behind

A run comes to a traversal, from which everything follows that it leaves behind: the marks on the
vectors and on the bytes of the believed instructions are added to the store, and the instructions
to the journal. As the log counts as it was last read, the marks of the run have no say in the
traversal. A run is one of the schedules in which the addresses can be taken, in the order of the
worklist or, with several workers, in any other.
-/

namespace BankTrace

namespace Analyzer

/-- A run can come to a traversal: it starts from what has been prepared, in any arrangement, and
each visit takes any of the addresses that wait by then. -/
def CanReach (a : Analyzer) (before : Analysis) (snapshot : Snapshot) (entries : List Int)
    (start : Start) (t : Traversal) : Prop :=
  (a.prepare before snapshot entries).result = .ok start ∧
    ∃ waiting : Worklist, waiting.toList.Perm start.addresses ∧
      Traversal.Leads
        (a.scene start.map (a.prepare before snapshot entries).analysis.store start.loaded)
        { waiting } t

/-- A run without limit can leave an analysis and a result: it takes the waiting addresses in any
order, and it ends when nothing waits. -/
def Completes (a : Analyzer) (before : Analysis) (snapshot : Snapshot) (entries : List Int)
    (after : Analysis) (result : Result) : Prop :=
  ∃ start t, a.CanReach before snapshot entries start t ∧ t.IsComplete ∧
    (conclude (a.prepare before snapshot entries).analysis snapshot start 1 none t).analysis =
      after ∧
    (conclude (a.prepare before snapshot entries).analysis snapshot start 1 none t).result =
      .ok result

/-- The marks on the bytes of the instructions that visits believed. -/
def codeMarks (outcomes : List Outcome) : List Cdl.Mark :=
  (outcomes.filterMap codeMark?).map fun (position, count) => ⟨position, count, Cdl.code⟩

/-- Believed instructions are marked one after the other. -/
theorem markCode_eq (store : Cdl.Store) (outcomes : List Outcome) :
    markCode store outcomes = store.markAll (codeMarks outcomes) := by
  unfold markCode codeMarks Cdl.Store.markAll
  rw [List.foldl_map]

/-- What a run under a map leaves, given the traversal that it comes to. The scene has the log as
it was in front of the run. -/
structure Ran (a : Analyzer) (before : Analysis) (snapshot : Snapshot) (map : MemoryMap)
    (entries loaded : List Int) (t : Traversal) (after : Analysis) : Prop where
  /-- The loaded code is that of the log in front of the run. -/
  loaded_eq : map.loadedStarts before.store = .ok loaded
  /-- The traversal began with the seeds and the loaded code. -/
  led : ∃ waiting : Worklist, waiting.toList.Perm (a.seeds map entries ++ loaded) ∧
    Traversal.Leads (a.scene map before.store loaded) { waiting } t
  /-- The marks of the run are added. -/
  store_eq : after.store =
    { before.store.markAll (vectorMarks map (a.handlersIn map) ++ codeMarks t.outcomes) with
      claims := t.claims }
  /-- The believed instructions are recorded. -/
  journal_eq : after.journal =
    before.journal.record snapshot (t.outcomes.filterMap Outcome.accepted?)

section

variable {a : Analyzer} {before after : Analysis} {snapshot : Snapshot} {map : MemoryMap}
  {entries loaded : List Int} {start : Start} {t : Traversal}

/-- From a traversal that it can come to a run leaves what the traversal demands. -/
theorem CanReach.ran (reach : a.CanReach before snapshot entries start t)
    (made : before.store.MadeFor a.banks.declared)
    (valid : MemoryMap.ofSnapshot a.banks snapshot = .ok map) (workers : Int)
    (limit : Option Int) :
    start.map = map ∧ start.seeds = a.seeds map entries ∧
      a.Ran before snapshot map entries start.loaded t
        (conclude (a.prepare before snapshot entries).analysis snapshot start workers limit
          t).analysis := by
  obtain ⟨events, loaded, found, prepared⟩ := a.prepare_of_valid made valid entries
  obtain ⟨begun, waiting, arranged, led⟩ := reach
  rw [prepared] at begun led ⊢
  obtain rfl := Except.ok.inj begun
  refine ⟨rfl, rfl, ?_⟩
  constructor
  case loaded_eq => exact found
  case led =>
    refine ⟨waiting, arranged, ?_⟩
    have reading := Cdl.Store.reading_markAll before.store.resetClaims
      (vectorMarks map (a.handlersIn map))
    exact Traversal.leads_with_log (a.scene map before.store loaded)
      (Cdl.Store.loadedAt_congr reading) led
  case store_eq =>
    have cleared := before.store.markAll_with_claims .empty (vectorMarks map (a.handlersIn map))
    unfold conclude Cdl.Store.resetClaims
    rw [cleared]
    dsimp only
    rw [markCode_eq, Cdl.Store.markAll_append]
    exact Cdl.Store.markAll_with_claims ..
  case journal_eq => rfl

/-- The traversal of a run is consistent. -/
theorem Ran.consistent (ran : a.Ran before snapshot map entries loaded t after) :
    Traversal.Consistent (a.scene map before.store loaded) (a.seeds map entries ++ loaded) t := by
  obtain ⟨waiting, arranged, led⟩ := ran.led
  exact (Traversal.consistent_start _ arranged).leads led

/-- A run leaves the reading of the store alone. -/
theorem Ran.reading_eq (ran : a.Ran before snapshot map entries loaded t after) :
    after.store.reading = before.store.reading := by
  rw [ran.store_eq]
  exact Cdl.Store.reading_markAll ..

/-- A run adds the bits of its marks to the bytes of the store. -/
theorem Ran.byteAt_eq (ran : a.Ran before snapshot map entries loaded t after) {p : Cdl.Position}
    (present : before.store.Has p) :
    after.store.byteAt p = before.store.byteAt p |||
      Cdl.Mark.bitsAt (vectorMarks map (a.handlersIn map) ++ codeMarks t.outcomes) p := by
  rw [ran.store_eq, ← Cdl.Store.byteAt_markAll present]
  rfl

end

/-- A run with a worker, under a snapshot that the banks admit, comes to the traversal of its
schedule. -/
theorem run_of_valid (a : Analyzer) {before : Analysis} {snapshot : Snapshot} {map : MemoryMap}
    (made : before.store.MadeFor a.banks.declared)
    (valid : MemoryMap.ofSnapshot a.banks snapshot = .ok map) (order : Order)
    (schedule : Schedule) (entries : List Int) {workers : Int} (staffed : 1 ≤ workers)
    (limit : Option Int) :
    ∃ start t, a.CanReach before snapshot entries start t ∧
      t = Traversal.run (a.scene map before.store start.loaded) order (schedule.ofWorkers workers)
        start.addresses limit ∧
      (({ a with order, schedule } : Analyzer).run before snapshot entries workers limit).analysis =
        (conclude (a.prepare before snapshot entries).analysis snapshot start workers limit
          t).analysis ∧
      (({ a with order, schedule } : Analyzer).run before snapshot entries workers limit).result =
        (conclude (a.prepare before snapshot entries).analysis snapshot start workers limit
          t).result := by
  obtain ⟨events, loaded, found, prepared⟩ := a.prepare_of_valid made valid entries
  obtain ⟨events', loaded', found', prepared'⟩ :=
    ({ a with order, schedule } : Analyzer).prepare_of_valid made valid entries
  obtain rfl := Except.ok.inj (found.symm.trans found')
  have reading := Cdl.Store.reading_markAll before.store.resetClaims
    (vectorMarks map (a.handlersIn map))
  rw [({ a with order, schedule } : Analyzer).run_of_staffed before staffed, prepared', prepared,
    Answer.bind_of_ok _ rfl]
  let start : Start := ⟨map, a.seeds map entries, loaded⟩
  refine ⟨start, _, ⟨?_, Worklist.ofList order start.addresses, ?_, ?_⟩, ?_, rfl, rfl⟩
  · rw [prepared]
  · exact Worklist.toList_ofList_perm order _
  · rw [prepared]
    exact Traversal.leads_advance ..
  · exact Traversal.run_with_log (a.scene map before.store loaded)
      (Cdl.Store.loadedAt_congr reading) ..

/-- What a run leaves is what its traversal demands. -/
theorem ran_of_run (a : Analyzer) {before : Analysis} {snapshot : Snapshot} {map : MemoryMap}
    (made : before.store.MadeFor a.banks.declared)
    (valid : MemoryMap.ofSnapshot a.banks snapshot = .ok map) (order : Order)
    (schedule : Schedule) (entries : List Int) {workers : Int} (staffed : 1 ≤ workers)
    (limit : Option Int) :
    ∃ loaded, a.Ran before snapshot map entries loaded
      (Traversal.run (a.scene map before.store loaded) order (schedule.ofWorkers workers)
        (a.seeds map entries ++ loaded) limit)
      (({ a with order, schedule } : Analyzer).run before snapshot entries workers
        limit).analysis := by
  obtain ⟨start, t, reach, traversal, analysis, _⟩ :=
    a.run_of_valid made valid order schedule entries staffed limit
  obtain ⟨_, seeds, ran⟩ := reach.ran made valid workers limit
  refine ⟨start.loaded, ?_⟩
  rw [analysis, ← seeds]
  rw [traversal] at ran ⊢
  exact ran

/-- A run succeeds and leaves what its traversal demands; without a limit nothing is left
waiting. -/
theorem exists_ran (a : Analyzer) {before : Analysis} {snapshot : Snapshot} {map : MemoryMap}
    (made : before.store.MadeFor a.banks.declared)
    (valid : MemoryMap.ofSnapshot a.banks snapshot = .ok map) (entries : List Int)
    {workers : Int} (staffed : 1 ≤ workers) (limit : Option Int) :
    ∃ loaded t result,
      a.Ran before snapshot map entries loaded t
        (a.run before snapshot entries workers limit).analysis ∧
      (a.run before snapshot entries workers limit).result = .ok result ∧
      result.visits = t.visits.reverse ∧ (limit = none → t.IsComplete) := by
  obtain ⟨start, t, reach, traversal, analysis, answer⟩ :=
    a.run_of_valid made valid a.order a.schedule entries staffed limit
  obtain ⟨_, _, ran⟩ := reach.ran made valid workers limit
  rw [← analysis] at ran
  refine ⟨start.loaded, t, _, ran, answer, rfl, ?_⟩
  rintro rfl
  rw [traversal]
  exact Traversal.isComplete_run ..

/-- A run without limit is a completion, in both orders. -/
theorem completes_of_run (a : Analyzer) {before : Analysis} {snapshot : Snapshot} {map : MemoryMap}
    (made : before.store.MadeFor a.banks.declared)
    (valid : MemoryMap.ofSnapshot a.banks snapshot = .ok map) (order : Order)
    (entries : List Int) {workers : Int} (staffed : 1 ≤ workers) :
    ∃ result,
      (({ a with order } : Analyzer).run before snapshot entries workers none).result =
        .ok result ∧
      a.Completes before snapshot entries
        (({ a with order } : Analyzer).run before snapshot entries workers none).analysis
        result := by
  obtain ⟨start, t, reach, traversal, analysis, answer⟩ :=
    a.run_of_valid made valid order a.schedule entries staffed none
  have complete : t.IsComplete := by
    rw [traversal]
    exact Traversal.isComplete_run ..
  exact ⟨_, answer, start, t, reach, complete, analysis.symm, rfl⟩

/-- A completion is a run that left nothing waiting. -/
theorem Completes.ran {a : Analyzer} {before after : Analysis} {snapshot : Snapshot}
    {map : MemoryMap} {entries : List Int} {result : Result}
    (completes : a.Completes before snapshot entries after result)
    (made : before.store.MadeFor a.banks.declared)
    (valid : MemoryMap.ofSnapshot a.banks snapshot = .ok map) :
    ∃ loaded t, a.Ran before snapshot map entries loaded t after ∧ t.IsComplete ∧
      result.visits = t.visits.reverse := by
  obtain ⟨start, t, reach, complete, left, answer⟩ := completes
  obtain ⟨_, _, ran⟩ := reach.ran made valid 1 none
  rw [left] at ran
  refine ⟨start.loaded, t, ran, complete, ?_⟩
  rw [← Except.ok.inj answer]

end Analyzer

end BankTrace
