import BankTrace.Proofs.Trace.Limit
import BankTrace.Proofs.Trace.Run

/-!
# Several workers

With several workers any of the waiting addresses may be visited next. A schedule says which one,
so every course that the visits can take belongs to a schedule, and every schedule is such a course:
what a run with several workers can leave and answer is what can be reached by visits of waiting
addresses, cut off where the limit is reached.
-/

namespace BankTrace

namespace Traversal

variable {scene : Scene} {t u : Traversal}

/-! ## The same visits -/

/-- Two traversals have made the same visits, and the same addresses wait, in any arrangement. -/
structure Alike (t u : Traversal) : Prop where
  /-- The same addresses wait. -/
  waiting : t.waiting.toList.Perm u.waiting.toList
  /-- The same positions are claimed. -/
  claims : t.claims = u.claims
  /-- The visits are the same. -/
  visits : t.visits = u.visits

/-- A visit of the same address finds the same, whatever the arrangement. -/
theorem Alike.visit (alike : t.Alike u) {addr : Int} {rest rest' : Worklist}
    (left : rest.toList.Perm rest'.toList) :
    (t.visit scene addr rest).Alike (u.visit scene addr rest') := by
  obtain ⟨waiting, claims, visits⟩ := t
  obtain ⟨waiting', claims', visits'⟩ := u
  obtain rfl : claims = claims' := alike.claims
  obtain rfl : visits = visits' := alike.visits
  constructor
  case claims => rfl
  case visits => rfl
  case waiting =>
    let successors := (scene.visit claims addr).successors
    have pushed : (rest.push successors).toList.Perm (rest.toList ++ successors) :=
      Worklist.toList_push_perm rest successors
    have pushed' : (rest'.push successors).toList.Perm (rest'.toList ++ successors) :=
      Worklist.toList_push_perm rest' successors
    exact (pushed.trans (left.append_right successors)).trans pushed'.symm

/-- As many addresses wait. -/
theorem Alike.size_eq (alike : t.Alike u) : t.waiting.size = u.waiting.size := by
  have lengths := alike.waiting.length_eq
  rw [Worklist.length_toList, Worklist.length_toList] at lengths
  exact lengths

/-- Where nothing waits in one of them, nothing waits in the other one. -/
theorem Alike.isComplete (alike : t.Alike u) (complete : u.IsComplete) : t.IsComplete := by
  have waiting := alike.waiting
  rw [complete] at waiting
  exact List.perm_nil.mp waiting

/-! ## Schedules for given visits -/

/-- Of a schedule only what it says about the visits that come up counts. -/
theorem advance_congr {schedule other : Schedule} {allowance : Nat} {t : Traversal}
    (agree : ∀ visits : List Visit, visits.length < t.visits.length + allowance →
      schedule visits = other visits) :
    advance scene schedule allowance t = advance scene other allowance t := by
  induction allowance generalizing t with
  | zero => rfl
  | succ allowance ih =>
    have here : schedule t.visits = other t.visits := agree t.visits (by omega)
    rw [advance, advance, here]
    cases t.waiting.take? (other t.visits) with
    | none => rfl
    | some next =>
      have one : (t.visit scene next.1 next.2).visits.length = t.visits.length + 1 := rfl
      apply ih
      intro visits fewer
      exact agree visits (by omega)

/-- Whatever visits lead from a traversal to another one, some schedule makes them. -/
theorem exists_schedule_of_leads (led : Leads scene t u) {begun : Traversal}
    (same : begun.Alike t) :
    ∃ schedule, (advance scene schedule (u.visits.length - t.visits.length) begun).Alike u := by
  induction led with
  | refl =>
    rw [Nat.sub_self]
    exact ⟨.inOrder, same⟩
  | @tail u v led step ih =>
    obtain ⟨schedule, alike⟩ := ih
    obtain ⟨taken⟩ := step
    rename_i addr rest
    let steps := u.visits.length - t.visits.length
    let now := advance scene schedule steps begun
    -- The address can be taken here as well, wherever it waits.
    have waits : addr ∈ now.waiting.toList := by
      rw [alike.waiting.mem_iff, taken.mem_iff]
      exact List.mem_cons_self
    obtain ⟨passed, others, found⟩ := Worklist.exists_take? waits
    let next : Schedule := fun visits =>
      if visits.length < u.visits.length then schedule visits else passed
    have grown : t.visits.length ≤ u.visits.length := (Leads.suffix_visits led).length_le
    have before : advance scene next steps begun = now := by
      apply advance_congr
      intro visits fewer
      rw [same.visits] at fewer
      exact if_pos (by omega)
    have last : next now.visits = passed := by
      apply if_neg
      rw [alike.visits]
      exact Nat.lt_irrefl _
    have one : (u.visit scene addr rest).visits.length - t.visits.length = steps + 1 := by
      change u.visits.length + 1 - t.visits.length = _
      omega
    have left : others.toList.Perm rest.toList := by
      have both := (Worklist.perm_of_take? found).1.symm.trans (alike.waiting.trans taken)
      exact both.cons_inv
    refine ⟨next, ?_⟩
    rw [one, advance_add, before, advance, last, found]
    exact alike.visit left

/-! ## Where a traversal ends -/

/-- A traversal has come to its end: it has made no more visits than it may, and there is nothing
left to visit unless it has made all that it may. -/
structure EndsUnder (limit : Option Int) (t : Traversal) : Prop where
  /-- The limit is kept. -/
  kept : ∀ most ∈ limit, t.visits.length ≤ most.toNat
  /-- Nothing waits, or the limit is reached. -/
  ended : t.IsComplete ∨ ∃ most ∈ limit, t.visits.length = most.toNat

/-- The traversal of a schedule goes on until it has come to its end. -/
theorem endsUnder_run (scene : Scene) (order : Order) (schedule : Schedule) (starts : List Int)
    (limit : Option Int) : (run scene order schedule starts limit).EndsUnder limit := by
  constructor
  case kept =>
    rintro most rfl
    have visited := length_advance_le scene schedule most.toNat
      { waiting := .ofList order starts }
    rw [List.length_nil, Nat.zero_add] at visited
    exact visited
  case ended =>
    cases limit with
    | none => exact .inl (isComplete_run scene order schedule starts)
    | some most =>
      have visited := complete_or_length_advance scene schedule most.toNat
        { waiting := .ofList order starts }
      rw [List.length_nil, Nat.zero_add] at visited
      exact visited.imp_right fun used => ⟨most, rfl, used⟩

/-- A traversal that has come to its end from addresses in any arrangement is that of a schedule. -/
theorem exists_schedule {starts : List Int} {waiting : Worklist}
    (arranged : waiting.toList.Perm starts) (led : Leads scene { waiting } t) {limit : Option Int}
    (ends : t.EndsUnder limit) (order : Order) :
    ∃ schedule, (run scene order schedule starts limit).Alike t := by
  have begun : Traversal.Alike { waiting := .ofList order starts } { waiting } :=
    ⟨(Worklist.toList_ofList_perm order starts).trans arranged.symm, rfl, rfl⟩
  obtain ⟨schedule, alike⟩ := exists_schedule_of_leads led begun
  rw [List.length_nil, Nat.sub_zero] at alike
  refine ⟨schedule, ?_⟩
  let allowance := (limit.map Int.toNat).getD (ceiling starts.length)
  have enough : t.visits.length ≤ allowance := by
    cases limit with
    | none =>
      have bound := ((consistent_start scene arranged).leads led).length_le
      change t.visits.length ≤ ceiling starts.length
      unfold ceiling
      omega
    | some most => exact ends.kept most rfl
  have all : run scene order schedule starts limit =
      advance scene schedule (allowance - t.visits.length)
        (advance scene schedule t.visits.length { waiting := .ofList order starts }) := by
    rw [← advance_add, Nat.add_sub_of_le enough]
    rfl
  rw [all]
  rcases ends.ended with complete | ⟨most, rfl, used⟩
  · rw [advance_of_isComplete (alike.isComplete complete)]
    exact alike
  · have nothing : allowance - t.visits.length = 0 := by
      rw [used]
      exact Nat.sub_self _
    rw [nothing]
    exact alike

end Traversal

namespace Analyzer

variable {a : Analyzer} {before : Analysis} {snapshot : Snapshot} {map : MemoryMap}
  {entries : List Int}

/-- Traversals that have made the same visits are concluded alike. -/
theorem conclude_of_alike {t u : Traversal} (alike : t.Alike u) (analysis : Analysis)
    (snapshot : Snapshot) (start : Start) (workers : Int) (limit : Option Int) :
    conclude analysis snapshot start workers limit t =
      conclude analysis snapshot start workers limit u := by
  have sizes := alike.size_eq
  have unfinished : t.isUnfinished = u.isUnfinished := by
    unfold Traversal.isUnfinished
    rw [sizes]
  have warned : limitWarning t workers limit = limitWarning u workers limit := by
    unfold limitWarning
    rw [unfinished, sizes]
  unfold conclude
  rw [alike.claims, alike.visits, unfinished, warned]

/-- What runs with several workers leave and answer is what can be reached by visits of waiting
addresses until nothing waits or the limit is reached. -/
theorem run_of_several_iff (made : before.store.MadeFor a.banks.declared)
    (valid : MemoryMap.ofSnapshot a.banks snapshot = .ok map) {workers : Int}
    (several : 1 < workers) (limit : Option Int) {after : Analysis} {answer : Except Error Result} :
    (∃ schedule : Schedule,
      (({ a with schedule } : Analyzer).run before snapshot entries workers limit).analysis =
        after ∧
      (({ a with schedule } : Analyzer).run before snapshot entries workers limit).result =
        answer) ↔
    ∃ start t, a.CanReach before snapshot entries start t ∧ t.EndsUnder limit ∧
      (conclude (a.prepare before snapshot entries).analysis snapshot start workers limit
        t).analysis = after ∧
      (conclude (a.prepare before snapshot entries).analysis snapshot start workers limit
        t).result = answer := by
  have staffed : 1 ≤ workers := Int.le_of_lt several
  constructor
  · rintro ⟨schedule, rfl, rfl⟩
    obtain ⟨start, t, reach, traversal, analysis, result⟩ :=
      a.run_of_valid made valid a.order schedule entries staffed limit
    refine ⟨start, t, reach, ?_, analysis.symm, result.symm⟩
    rw [traversal]
    exact Traversal.endsUnder_run ..
  · rintro ⟨start, t, ⟨begun, waiting, arranged, led⟩, ends, rfl, rfl⟩
    obtain ⟨schedule, alike⟩ := Traversal.exists_schedule arranged led ends a.order
    have chosen : schedule.ofWorkers workers = schedule := if_neg (by omega)
    have concluded := conclude_of_alike alike (a.prepare before snapshot entries).analysis snapshot
      start workers limit
    -- The preparation does not depend on the schedule.
    obtain ⟨events, loaded, found, prepared⟩ := a.prepare_of_valid made valid entries
    obtain ⟨events', loaded', found', prepared'⟩ :=
      ({ a with schedule } : Analyzer).prepare_of_valid made valid entries
    obtain rfl := Except.ok.inj (found.symm.trans found')
    have begun' : (({ a with schedule } : Analyzer).prepare before snapshot entries).result =
        .ok start := by
      rw [prepared] at begun
      rw [prepared']
      exact begun
    have same : (({ a with schedule } : Analyzer).prepare before snapshot entries).analysis =
        (a.prepare before snapshot entries).analysis := by
      rw [prepared, prepared']
      rfl
    refine ⟨schedule, ?_⟩
    rw [({ a with schedule } : Analyzer).run_of_prepared staffed begun' limit, same, ← concluded]
    unfold traverse
    dsimp only
    rw [chosen]
    exact ⟨rfl, rfl⟩

/-- The completions of a run are what several workers can come to without a limit. -/
theorem completes_iff (made : before.store.MadeFor a.banks.declared)
    (valid : MemoryMap.ofSnapshot a.banks snapshot = .ok map) {workers : Int}
    (several : 1 < workers) {after : Analysis} {r : Result} :
    a.Completes before snapshot entries after r ↔ ∃ schedule : Schedule,
      (({ a with schedule } : Analyzer).run before snapshot entries workers none).analysis =
        after ∧
      (({ a with schedule } : Analyzer).run before snapshot entries workers none).result =
        .ok r := by
  rw [run_of_several_iff made valid several none]
  constructor
  · rintro ⟨start, t, reach, complete, left, answered⟩
    exact ⟨start, t, reach, ⟨nofun, .inl complete⟩, left, answered⟩
  · rintro ⟨start, t, reach, ends, left, answered⟩
    have complete : t.IsComplete := ends.ended.resolve_right nofun
    exact ⟨start, t, reach, complete, left, answered⟩

end Analyzer

end BankTrace
