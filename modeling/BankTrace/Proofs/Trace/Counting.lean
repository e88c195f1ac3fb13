import BankTrace.Proofs.Trace.Independence
import BankTrace.Proofs.Trace.Schedule

/-!
# Counting along the way

The counts of a result are read off its visits. They can also be kept along the way: a step is
counted before its visit, unless the limit is reached, and a visit raises the counters of the exit
that it takes. An instruction counts as read before it is known whether it is believed. Kept in this
way the counters end at the counts of the result.
-/

namespace BankTrace

/-- What is counted along the way. -/
structure Counters where
  /-- The steps. -/
  steps : Nat := 0
  /-- The instructions that were read. -/
  decoded : Nat := 0
  /-- The believed instructions. -/
  accepted : Nat := 0
  /-- The visits to an address that had been visited. -/
  skipped : Nat := 0
  /-- The visits that found nothing to execute. -/
  discarded : Nat := 0
  /-- The visits that found no instruction. -/
  decodeErrors : Nat := 0
  /-- The instructions that are not believed, each with the reason. -/
  refusals : List (Instruction × Refusal) := []
  /-- An address waited when no further step was allowed. -/
  limitReached : Bool := false

namespace Counters

/-- No further step is allowed. -/
def isExhausted (c : Counters) : Option Int → Bool
  | some limit => limit ≤ c.steps
  | none => false

/-- Count a step. -/
def step (c : Counters) : Counters := { c with steps := c.steps + 1 }

/-- Count what a visit found. -/
def raise (c : Counters) : Outcome → Counters
  | .discarded => { c with discarded := c.discarded + 1 }
  | .skipped => { c with skipped := c.skipped + 1 }
  | .undecodable .. => { c with decodeErrors := c.decodeErrors + 1 }
  | .refused _ insn reason =>
    { c with decoded := c.decoded + 1, refusals := c.refusals ++ [(insn, reason)] }
  | .accepted .. => { c with decoded := c.decoded + 1, accepted := c.accepted + 1 }

end Counters

namespace Scene

/-- The counters behind a visit of an address, raised at the exit that the visit takes. -/
def count (scene : Scene) (claims : Registry Cdl.Position) (addr : Int) (c : Counters) :
    Counters :=
  match scene.map.resolve addr with
  | none => { c with discarded := c.discarded + 1 }
  | some location =>
    if !location.bank.isAnalyzable || !(scene.space.permissionAt addr).executable then
      { c with discarded := c.discarded + 1 }
    else if isKnownData (scene.log.loadedAt location.position) then
      { c with discarded := c.discarded + 1 }
    else if claims.contains location.position then
      { c with skipped := c.skipped + 1 }
    else
      match Instruction.decode (location.bytes 3) addr (some scene.space) with
      | .error _ => { c with decodeErrors := c.decodeErrors + 1 }
      | .ok insn =>
        let c := { c with decoded := c.decoded + 1 }
        match scene.refusal? addr insn location.bank.name with
        | some reason => { c with refusals := c.refusals ++ [(insn, reason)] }
        | none => { c with accepted := c.accepted + 1 }

/-- Every exit of a visit raises the counters of what the visit found. -/
theorem count_eq (scene : Scene) (claims : Registry Cdl.Position) (addr : Int) (c : Counters) :
    scene.count claims addr c = c.raise (scene.visit claims addr) := by
  unfold count visit candidate?
  cases scene.map.resolve addr with
  | none => rfl
  | some location =>
    rw [Option.filter_some]
    dsimp only
    cases location.bank.isAnalyzable with
    | false => simp [Counters.raise]
    | true =>
      cases (scene.space.permissionAt addr).executable with
      | false => simp [Counters.raise]
      | true =>
        cases isKnownData (scene.log.loadedAt location.position) with
        | true => simp [Counters.raise]
        | false =>
          cases free : claims.contains location.position with
          | true => simp [free, Counters.raise]
          | false =>
            simp only [Bool.not_true, Bool.or_self, Bool.false_eq_true, if_false, Bool.not_false,
              Bool.and_self, if_true, free]
            unfold inspect
            cases Instruction.decode (location.bytes 3) addr (some scene.space) with
            | error e => rfl
            | ok insn =>
              dsimp only
              cases scene.refusal? addr insn location.bank.name with
              | some reason => rfl
              | none => rfl

end Scene

namespace Traversal

/-- Visits of waiting addresses with the counters that they raise, as long as any address waits and
a further step is allowed. -/
inductive Counting (scene : Scene) (schedule : Schedule) (limit : Option Int) :
    Traversal → Counters → Traversal → Counters → Prop
  /-- No address waits. -/
  | finished {t : Traversal} {c : Counters} (nothing : t.waiting.take? (schedule t.visits) = none) :
    Counting scene schedule limit t c t c
  /-- An address waits, but no further step is allowed. -/
  | exhausted {t : Traversal} {c : Counters} {addr : Int} {rest : Worklist}
    (waits : t.waiting.take? (schedule t.visits) = some (addr, rest))
    (reached : c.isExhausted limit = true) :
    Counting scene schedule limit t c t { c with limitReached := true }
  /-- A step is counted, and an address is visited. -/
  | visited {t u : Traversal} {c d : Counters} {addr : Int} {rest : Worklist}
    (waits : t.waiting.take? (schedule t.visits) = some (addr, rest))
    (allowed : c.isExhausted limit = false)
    (next : Counting scene schedule limit (t.visit scene addr rest)
      (scene.count t.claims addr c.step) u d) :
    Counting scene schedule limit t c u d

variable {scene : Scene} {schedule : Schedule} {limit : Option Int} {t u v : Traversal}
  {c d e : Counters}

/-- Counting ends in one way. -/
theorem Counting.unique (counting : Counting scene schedule limit t c u d)
    (again : Counting scene schedule limit t c v e) : u = v ∧ d = e := by
  induction counting with
  | finished nothing =>
    cases again with
    | finished => exact ⟨rfl, rfl⟩
    | exhausted waits => simp [nothing] at waits
    | visited waits => simp [nothing] at waits
  | exhausted waits reached =>
    cases again with
    | finished nothing => simp [nothing] at waits
    | exhausted => exact ⟨rfl, rfl⟩
    | visited _ allowed => simp [reached] at allowed
  | visited waits allowed _ ih =>
    cases again with
    | finished nothing => simp [nothing] at waits
    | exhausted _ reached => simp [allowed] at reached
    | visited waits' _ next =>
      obtain ⟨rfl, rfl⟩ := Prod.mk.inj (Option.some.inj (waits.symm.trans waits'))
      exact ih next

/-- The counts of the visits so far. -/
def counters (t : Traversal) : Counters where
  steps := t.visits.length
  decoded := (t.outcomes.filterMap Outcome.instruction?).length
  accepted := (t.outcomes.filterMap Outcome.accepted?).length
  skipped := t.outcomes.countP Outcome.isSkipped
  discarded := t.outcomes.countP Outcome.isDiscarded
  decodeErrors := t.outcomes.countP Outcome.isUndecodable
  refusals := t.outcomes.filterMap Outcome.refused?

/-- A visit adds what it found to the outcomes. -/
theorem outcomes_visit (scene : Scene) (addr : Int) (rest : Worklist) (t : Traversal) :
    (t.visit scene addr rest).outcomes = t.outcomes ++ [scene.visit t.claims addr] := by
  unfold outcomes visit
  rw [List.reverse_cons, List.map_append]
  rfl

/-- A visit raises the counts by a step and by what it found. -/
theorem counters_visit (scene : Scene) (addr : Int) (rest : Worklist) (t : Traversal) :
    (t.visit scene addr rest).counters = scene.count t.claims addr t.counters.step := by
  rw [Scene.count_eq]
  unfold counters
  rw [outcomes_visit]
  have steps : (t.visit scene addr rest).visits.length = t.visits.length + 1 := rfl
  simp only [List.filterMap_append, List.countP_append, List.length_append, steps]
  cases scene.visit t.claims addr <;>
    simp [Counters.step, Counters.raise, Outcome.instruction?, Outcome.accepted?,
      Outcome.refused?, Outcome.isSkipped, Outcome.isDiscarded, Outcome.isUndecodable]

/-- The counts of the visits when they end, with the mark of the limit where addresses wait. -/
def finalCounters (t : Traversal) : Counters := { t.counters with limitReached := t.isUnfinished }

/-- Where no address waits the counts are final. -/
theorem finalCounters_of_isComplete (complete : t.IsComplete) : t.finalCounters = t.counters := by
  unfold finalCounters
  rw [isUnfinished_eq_false_iff.mpr complete]
  rfl

/-- No further step is allowed where the limit of steps has been reached. -/
theorem isExhausted_counters_iff : t.counters.isExhausted limit = true ↔
    ∃ most, limit = some most ∧ most.toNat ≤ t.visits.length := by
  cases limit with
  | none => simp [Counters.isExhausted]
  | some most =>
    have exhausted : t.counters.isExhausted (some most) =
        decide (most ≤ (t.visits.length : Int)) := rfl
    rw [exhausted, decide_eq_true_eq, ← Int.toNat_le]
    simp

/-- Where an address waits, the counts are final but for the mark of the limit. -/
theorem finalCounters_of_take? {addr : Int} {rest : Worklist}
    (waits : t.waiting.take? (schedule t.visits) = some (addr, rest)) :
    ¬t.IsComplete ∧ t.finalCounters = { t.counters with limitReached := true } := by
  have incomplete : ¬t.IsComplete := by
    intro complete
    rw [Worklist.take?_eq_none_iff.mpr complete] at waits
    contradiction
  have unfinished : t.isUnfinished = true := by
    rw [← Bool.not_eq_false]
    exact mt isUnfinished_eq_false_iff.mp incomplete
  refine ⟨incomplete, ?_⟩
  unfold finalCounters
  rw [unfinished]

/-- From the counts so far, counting ends at the final ones. -/
theorem counting_advance (allowance : Nat)
    (limited : ∀ most, limit = some most → most.toNat = t.visits.length + allowance)
    (unlimited : limit = none → (advance scene schedule allowance t).IsComplete) :
    Counting scene schedule limit t t.counters (advance scene schedule allowance t)
      (advance scene schedule allowance t).finalCounters := by
  induction allowance generalizing t with
  | zero =>
    change Counting scene schedule limit t t.counters t t.finalCounters
    cases taken : t.waiting.take? (schedule t.visits) with
    | none =>
      rw [finalCounters_of_isComplete (Worklist.take?_eq_none_iff.mp taken)]
      exact .finished taken
    | some waiting =>
      have ⟨incomplete, final⟩ := finalCounters_of_take? taken
      rw [final]
      refine .exhausted taken (isExhausted_counters_iff.mpr ?_)
      cases limit with
      | none => exact absurd (unlimited rfl) incomplete
      | some most => exact ⟨most, rfl, Nat.le_of_eq (limited most rfl)⟩
  | succ allowance ih =>
    cases taken : t.waiting.take? (schedule t.visits) with
    | none =>
      simp only [advance, taken]
      rw [finalCounters_of_isComplete (Worklist.take?_eq_none_iff.mp taken)]
      exact .finished taken
    | some waiting =>
      obtain ⟨addr, rest⟩ := waiting
      have allowed : t.counters.isExhausted limit = false := by
        rw [Bool.eq_false_iff, ne_eq, isExhausted_counters_iff]
        rintro ⟨most, given, reached⟩
        have steps := limited most given
        omega
      simp only [advance, taken] at unlimited ⊢
      have counted := counters_visit scene addr rest t
      refine .visited taken allowed (counted ▸ ih (fun most given => ?_) unlimited)
      have steps := limited most given
      have more : (t.visit scene addr rest).visits.length = t.visits.length + 1 := rfl
      omega

/-- Counting from the start of a traversal ends at its final counts. -/
theorem counting_run (scene : Scene) (order : Order) (schedule : Schedule) (starts : List Int)
    (limit : Option Int) :
    Counting scene schedule limit { waiting := Worklist.ofList order starts } {}
      (run scene order schedule starts limit)
      (run scene order schedule starts limit).finalCounters := by
  apply counting_advance
  · rintro most rfl
    exact (Nat.zero_add _).symm
  · rintro rfl
    exact isComplete_run ..

end Traversal

/-- The counts of a result. -/
def Result.counters (r : Result) : Counters where
  steps := r.steps
  decoded := r.decoded
  accepted := r.accepted
  skipped := r.skipped
  discarded := r.discarded
  decodeErrors := r.decodeErrors
  refusals := r.refusals
  limitReached := r.limitReached

/-- The counts of a result are the final ones of its traversal. -/
theorem Result.counters_eq {r : Result} {t : Traversal} (visits : r.visits = t.visits.reverse)
    (unfinished : r.limitReached = t.isUnfinished) : r.counters = t.finalCounters := by
  unfold counters Traversal.finalCounters Traversal.counters
  have outcomes : r.outcomes = t.outcomes := by
    unfold Result.outcomes Traversal.outcomes
    rw [visits]
  have steps : r.steps = t.visits.length := by
    unfold Result.steps
    rw [visits, List.length_reverse]
  rw [steps, unfinished]
  unfold decoded accepted instructions refusals skipped discarded decodeErrors
  rw [outcomes]

/-- The counters that are kept along the visits of a run end at the counts of its result. -/
theorem Analyzer.counters_of_run (a : Analyzer) {before : Analysis} {snapshot : Snapshot}
    {entries : List Int} {workers : Int} {limit : Option Int} {r : Result}
    (answered : (a.run before snapshot entries workers limit).result = .ok r) :
    ∃ map, MemoryMap.ofSnapshot a.banks snapshot = .ok map ∧
      ∀ c, (∃ t, Traversal.Counting
        (a.scene map (a.prepare before snapshot entries).analysis.store r.loadedSeeds)
        (a.schedule.ofWorkers workers) limit
        { waiting := Worklist.ofList a.order (r.seeds ++ r.loadedSeeds) } {} t c) ↔
          c = r.counters := by
  obtain ⟨start, begun, traversed, _⟩ := a.exists_start_of_run answered
  obtain rfl := Except.ok.inj traversed
  refine ⟨start.map, a.ofSnapshot_of_prepare begun, ?_⟩
  intro c
  have counted := Traversal.counting_run
    (a.scene start.map (a.prepare before snapshot entries).analysis.store start.loaded) a.order
    (a.schedule.ofWorkers workers) start.addresses limit
  rw [Result.counters_eq rfl rfl]
  constructor
  · rintro ⟨t, counting⟩
    exact (counting.unique counted).2
  · rintro rfl
    exact ⟨_, counted⟩

end BankTrace
