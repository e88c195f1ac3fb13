import BankTrace.Proofs.Trace.Accounting

/-!
# Limits of steps

A limit of steps stops a traversal where it is and has no other part in it. So a run under a limit
makes the first steps of the run without limit, and what it counts, marks, claims and records is
contained in what a run under a larger limit does. A run that ends by itself within the limit does
not know of it, also when its last step is the last one that it may make.
-/

namespace BankTrace

namespace Traversal

variable {scene : Scene} {schedule : Schedule} {t u : Traversal}

/-- A step has one more visit than before, in front of the others. -/
theorem Step.suffix_visits (step : Step scene t u) : ∃ v, u.visits = v :: t.visits := by
  obtain ⟨taken⟩ := step
  exact ⟨_, rfl⟩

/-- The visits stay, and others come in front of them. -/
theorem Leads.suffix_visits (led : Leads scene t u) : t.visits <:+ u.visits := by
  induction led with
  | refl => exact List.suffix_refl t.visits
  | tail _ step ih =>
    obtain ⟨v, visits⟩ := step.suffix_visits
    rw [visits]
    exact ih.trans (List.suffix_cons v _)

/-- A position stays claimed. -/
theorem Leads.claimed (led : Leads scene t u) {p : Cdl.Position}
    (claimed : t.claims.contains p = true) : u.claims.contains p = true := by
  induction led with
  | refl => exact claimed
  | tail _ step ih =>
    obtain ⟨taken⟩ := step
    exact (contains_claims_visit ..).mpr (.inr ih)

/-- Visits can be interrupted and gone on with. -/
theorem advance_add (scene : Scene) (schedule : Schedule) (first others : Nat) (t : Traversal) :
    advance scene schedule (first + others) t =
      advance scene schedule others (advance scene schedule first t) := by
  induction first generalizing t with
  | zero => rw [Nat.zero_add, advance]
  | succ first ih =>
    rw [Nat.succ_add, advance, advance]
    cases taken : t.waiting.take? (schedule t.visits) with
    | none => exact (advance_of_isComplete (Worklist.take?_eq_none_iff.mp taken) others).symm
    | some next => exact ih _

/-- A larger allowance leads on from where a smaller one ends. -/
theorem leads_advance_of_le (scene : Scene) (schedule : Schedule) (t : Traversal)
    {less more : Nat} (fewer : less ≤ more) :
    Leads scene (advance scene schedule less t) (advance scene schedule more t) := by
  rw [← Nat.add_sub_of_le fewer, advance_add]
  exact leads_advance ..

/-- A traversal that has waiting addresses and an allowance goes on. -/
theorem isComplete_or_length_lt (scene : Scene) (schedule : Schedule) (t : Traversal)
    {allowance : Nat} (allowed : 0 < allowance) :
    t.IsComplete ∨ t.visits.length < (advance scene schedule allowance t).visits.length := by
  obtain ⟨allowance, rfl⟩ := Nat.exists_eq_succ_of_ne_zero (Nat.ne_of_gt allowed)
  rw [advance]
  cases taken : t.waiting.take? (schedule t.visits) with
  | none => exact .inl (Worklist.take?_eq_none_iff.mp taken)
  | some next =>
    right
    have led := leads_advance scene schedule allowance (t.visit scene next.1 next.2)
    exact led.suffix_visits.length_le

/-- No more visits are made than the allowance says. -/
theorem length_advance_le (scene : Scene) (schedule : Schedule) (allowance : Nat)
    (t : Traversal) :
    (advance scene schedule allowance t).visits.length ≤ t.visits.length + allowance := by
  induction allowance generalizing t with
  | zero => exact Nat.le_refl _
  | succ allowance ih =>
    rw [advance]
    cases t.waiting.take? (schedule t.visits) with
    | none => exact Nat.le_add_right ..
    | some next =>
      have others := ih (t.visit scene next.1 next.2)
      have one : (t.visit scene next.1 next.2).visits.length = t.visits.length + 1 := rfl
      dsimp only
      omega

section

variable {ceiling : Nat} (complete : (advance scene schedule ceiling t).IsComplete)

include complete

/-- Where a traversal comes to its end, a larger allowance makes no difference. -/
theorem advance_eq_of_le {allowance : Nat} (more : ceiling ≤ allowance) :
    advance scene schedule allowance t = advance scene schedule ceiling t := by
  rw [← Nat.add_sub_of_le more, advance_add, advance_of_isComplete complete]

/-- An allowance of a traversal that comes to its end is used up, or the end is reached. -/
theorem length_advance (allowance : Nat) :
    (advance scene schedule allowance t).visits.length =
      min (advance scene schedule ceiling t).visits.length (t.visits.length + allowance) := by
  have most := length_advance_le scene schedule allowance t
  rcases complete_or_length_advance scene schedule allowance t with ended | used
  · have same : advance scene schedule allowance t = advance scene schedule ceiling t := by
      rcases Nat.le_total allowance ceiling with less | more
      · exact (advance_eq_of_le ended less).symm
      · exact advance_eq_of_le complete more
    rw [← same]
    omega
  · have within : (advance scene schedule allowance t).visits.length ≤
        (advance scene schedule ceiling t).visits.length := by
      rcases Nat.le_total allowance ceiling with less | more
      · exact (leads_advance_of_le scene schedule t less).suffix_visits.length_le
      · rw [advance_eq_of_le complete more]
    omega

/-- The end is reached by every allowance that suffices for all visits. -/
theorem isComplete_advance_iff (allowance : Nat) :
    (advance scene schedule allowance t).IsComplete ↔
      (advance scene schedule ceiling t).visits.length ≤ t.visits.length + allowance := by
  have visited := length_advance complete allowance
  -- With an allowance below the ceiling, what is left of it would make another visit.
  rcases Nat.lt_or_ge allowance ceiling with less | more
  · constructor
    · intro ended
      rw [advance_eq_of_le ended (Nat.le_of_lt less)]
      exact length_advance_le scene schedule allowance t
    · intro enough
      rcases isComplete_or_length_lt scene schedule
        (advance scene schedule allowance t) (Nat.sub_pos_of_lt less) with ended | goesOn
      · exact ended
      · rw [← advance_add, Nat.add_sub_of_le (Nat.le_of_lt less)] at goesOn
        omega
  · rw [advance_eq_of_le complete more]
    have most := length_advance_le scene schedule ceiling t
    exact iff_of_true complete (by omega)

end

/-! ## Runs of a traversal -/

section

variable (scene : Scene) (order : Order) (schedule : Schedule) (starts : List Int)

/-- A limited traversal makes as many visits as the limit allows. -/
theorem length_run_some (limit : Nat) :
    (run scene order schedule starts (some limit)).visits.length =
      min (run scene order schedule starts none).visits.length limit := by
  have visited := length_advance (isComplete_run scene order schedule starts) limit
  rw [List.length_nil, Nat.zero_add] at visited
  exact visited

/-- A limited traversal is cut off exactly where the limit is too small for all visits. -/
theorem isUnfinished_run_some_iff (limit : Nat) :
    (run scene order schedule starts (some limit)).isUnfinished = true ↔
      limit < (run scene order schedule starts none).visits.length := by
  have ended := isComplete_advance_iff (isComplete_run scene order schedule starts) limit
  rw [List.length_nil, Nat.zero_add] at ended
  rw [← Bool.not_eq_false, isUnfinished_eq_false_iff, ← Nat.not_le]
  exact not_congr ended

/-- A limit that suffices for all visits makes no difference. -/
theorem run_some_eq {limit : Nat}
    (enough : (run scene order schedule starts none).visits.length ≤ limit) :
    run scene order schedule starts (some limit) = run scene order schedule starts none := by
  have complete := isComplete_run scene order schedule starts
  have ended := isComplete_advance_iff complete limit
  rw [List.length_nil, Nat.zero_add] at ended
  have complete' : (run scene order schedule starts (some limit)).IsComplete := ended.mpr enough
  rcases Nat.le_total limit (ceiling starts.length) with less | more
  · exact (advance_eq_of_le complete' less).symm
  · exact advance_eq_of_le complete more

/-- A larger limit leads on from where a smaller one ends. -/
theorem leads_run_some {limit limit' : Nat} (fewer : limit ≤ limit') :
    Leads scene (run scene order schedule starts (some limit))
      (run scene order schedule starts (some limit')) :=
  leads_advance_of_le scene schedule { waiting := .ofList order starts } fewer

end

end Traversal

/-! ## What is contained in what -/

/-- Fewer instructions leave fewer entries, which come in the same order. -/
theorem Journal.sublist_record (j : Journal) (snapshot : Snapshot) {less more : List Instruction}
    (first : less <+: more) :
    (j.record snapshot less).entries.Sublist (j.record snapshot more).entries := by
  obtain ⟨chapters⟩ := j
  unfold record entries
  dsimp only
  induction chapters with
  | nil =>
    rw [extend, extend, List.flatMap_singleton, List.flatMap_singleton]
    exact first.sublist.map _
  | cons chapter rest ih =>
    obtain ⟨name, known⟩ := chapter
    rw [extend, extend]
    split
    · have new : (unseen known less).Sublist (unseen known more) := first.sublist.filter _
      rw [List.flatMap_cons, List.flatMap_cons]
      exact ((new.append_left known).map _).append_right _
    · rw [List.flatMap_cons, List.flatMap_cons]
      exact ih.append_left _

/-- A result is that of the first steps of another one: it begins where the other one begins, what
it lists comes first in the other one, and no count is larger. -/
structure Result.Begins (short long : Result) : Prop where
  /-- The snapshot is the same. -/
  snapshot : short.snapshot = long.snapshot
  /-- The seeds are the same. -/
  seeds : short.seeds = long.seeds
  /-- The starts in the loaded code are the same. -/
  loadedSeeds : short.loadedSeeds = long.loadedSeeds
  /-- The visits come first. -/
  visits : short.visits <+: long.visits
  /-- The accepted instructions come first. -/
  instructions : short.instructions <+: long.instructions
  /-- The refused instructions come first. -/
  refusals : short.refusals <+: long.refusals
  /-- No more steps are counted. -/
  steps : short.steps ≤ long.steps
  /-- No more instructions are counted. -/
  decoded : short.decoded ≤ long.decoded
  /-- No more accepted instructions are counted. -/
  accepted : short.accepted ≤ long.accepted
  /-- No more refused instructions are counted. -/
  rejected : short.rejected ≤ long.rejected
  /-- No more repetitions are counted. -/
  skipped : short.skipped ≤ long.skipped
  /-- No more visits without effect are counted. -/
  discarded : short.discarded ≤ long.discarded
  /-- No more failures to read an instruction are counted. -/
  decodeErrors : short.decodeErrors ≤ long.decodeErrors

/-- A result from the same starts begins another one when its visits come first. -/
theorem Result.begins_of_visits {short long : Result} (snapshot : short.snapshot = long.snapshot)
    (seeds : short.seeds = long.seeds) (loadedSeeds : short.loadedSeeds = long.loadedSeeds)
    (visits : short.visits <+: long.visits) : short.Begins long := by
  have outcomes : short.outcomes <+: long.outcomes := visits.map Visit.outcome
  have instructions : short.instructions <+: long.instructions :=
    outcomes.filterMap Outcome.accepted?
  have refusals : short.refusals <+: long.refusals := outcomes.filterMap Outcome.refused?
  exact {
    snapshot, seeds, loadedSeeds, visits, instructions, refusals
    steps := visits.length_le
    decoded := (outcomes.filterMap Outcome.instruction?).length_le
    accepted := instructions.length_le
    rejected := refusals.length_le
    skipped := outcomes.sublist.countP_le
    discarded := outcomes.sublist.countP_le
    decodeErrors := outcomes.sublist.countP_le }

/-- An analysis has found nothing that another one has not found. -/
structure Analysis.Within (x y : Analysis) : Prop where
  /-- The log of the other one has the marks, and some that are added to them. -/
  marks : ∃ bits, x.store.Gains bits y.store
  /-- What is claimed is claimed in the other one. -/
  claims : ∀ p, x.store.isClaimed p = true → y.store.isClaimed p = true
  /-- What is recorded is recorded in the other one. -/
  journal : x.journal.entries.Sublist y.journal.entries

namespace Analyzer

/-- A traversal that goes on from another one leaves everything that the other one leaves. -/
theorem within_conclude (analysis : Analysis) (snapshot : Snapshot) (start : Start)
    (limit limit' : Option Int) {scene : Scene} {t u : Traversal} (led : t.Leads scene u) :
    (conclude analysis snapshot start 1 limit t).analysis.Within
      (conclude analysis snapshot start 1 limit' u).analysis := by
  obtain ⟨later, visits⟩ := List.reverse_prefix.mpr led.suffix_visits
  have outcomes : u.outcomes = t.outcomes ++ later.map Visit.outcome := by
    unfold Traversal.outcomes
    rw [← visits, List.map_append]
  have marks : codeMarks u.outcomes =
      codeMarks t.outcomes ++ codeMarks (later.map Visit.outcome) := by
    unfold codeMarks
    rw [outcomes, List.filterMap_append, List.map_append]
  constructor
  case marks =>
    let left := (conclude analysis snapshot start 1 limit t).analysis.store
    have more := left.gains_markAll (codeMarks (later.map Visit.outcome))
    refine ⟨_, more.of_files ?_⟩
    have here : left = _ := store_conclude analysis snapshot start 1 limit t
    have files := congrArg Cdl.Store.files (Cdl.Store.markAll_with_claims
      (analysis.store.markAll (codeMarks t.outcomes)) t.claims
      (codeMarks (later.map Visit.outcome)))
    rw [store_conclude, here, marks, Cdl.Store.markAll_append]
    exact files.symm
  case claims =>
    intro p claimed
    unfold Cdl.Store.isClaimed at claimed ⊢
    rw [store_conclude] at claimed ⊢
    exact led.claimed claimed
  case journal =>
    apply analysis.journal.sublist_record snapshot
    have first : t.outcomes <+: u.outcomes := ⟨_, outcomes.symm⟩
    exact first.filterMap Outcome.accepted?

/-- A limit of steps cuts a run off and has no other part in it. The run under a limit answers when
the run without limit does; it makes as many steps as the limit allows, and it tells that the limit
was reached exactly where steps are left. A limit that suffices for all steps makes no difference to
what the run leaves, reports and answers. Under a smaller limit the result is that of the first
steps under a larger one, and nothing is marked, claimed or recorded that is not under the larger
one. -/
theorem run_limited (a : Analyzer) {before : Analysis} {snapshot : Snapshot} {entries : List Int}
    {full : Result} (answered : (a.run before snapshot entries 1 none).result = .ok full) :
    ∃ cut : Nat → Result,
      (∀ m : Nat, (a.run before snapshot entries 1 (some m)).result = .ok (cut m) ∧
        (cut m).steps = min full.steps m ∧ ((cut m).limitReached = true ↔ m < full.steps)) ∧
      (∀ m : Nat, full.steps ≤ m →
        a.run before snapshot entries 1 (some m) = a.run before snapshot entries 1 none) ∧
      ∀ m n : Nat, m ≤ n → (cut m).Begins (cut n) ∧
        (a.run before snapshot entries 1 (some m)).analysis.Within
          (a.run before snapshot entries 1 (some n)).analysis := by
  obtain ⟨start, begun, traversed, _⟩ := a.exists_start_of_run answered
  obtain rfl := Except.ok.inj traversed
  have staffed : (1 : Int) ≤ 1 := Int.le_refl 1
  let scene := a.scene start.map (a.prepare before snapshot entries).analysis.store start.loaded
  let traversal := Traversal.run scene a.order (a.schedule.ofWorkers 1) start.addresses
  let cut (m : Nat) : Result :=
    { snapshot, seeds := start.seeds, loadedSeeds := start.loaded
      visits := (traversal (some m)).visits.reverse
      limitReached := (traversal (some m)).isUnfinished }
  have led : ∀ m n : Nat, m ≤ n → (traversal (some m)).Leads scene (traversal (some n)) :=
    fun _ _ fewer => Traversal.leads_run_some scene a.order _ start.addresses fewer
  refine ⟨cut, ?_, ?_, ?_⟩
  · intro m
    refine ⟨?_, ?_, ?_⟩
    · rw [a.run_of_prepared staffed begun]
      rfl
    · unfold Result.steps
      rw [List.length_reverse, List.length_reverse]
      exact Traversal.length_run_some scene a.order _ start.addresses m
    · unfold Result.steps
      rw [List.length_reverse]
      exact Traversal.isUnfinished_run_some_iff scene a.order _ start.addresses m
  · intro m enough
    unfold Result.steps at enough
    rw [List.length_reverse] at enough
    have same := Traversal.run_some_eq scene a.order _ start.addresses enough
    have complete := Traversal.isComplete_run scene a.order (a.schedule.ofWorkers 1)
      start.addresses
    have silent : limitWarning (traversal none) 1 (some m) = [] := by
      have finished := Traversal.isUnfinished_eq_false_iff.mpr complete
      unfold limitWarning
      dsimp only
      rw [finished, if_neg Bool.false_ne_true]
    rw [a.run_of_prepared staffed begun, a.run_of_prepared staffed begun]
    unfold traverse conclude
    dsimp only
    rw [same, silent]
    rfl
  · intro m n fewer
    refine ⟨Result.begins_of_visits rfl rfl rfl ?_, ?_⟩
    · exact List.reverse_prefix.mpr (led m n fewer).suffix_visits
    · rw [a.run_of_prepared staffed begun, a.run_of_prepared staffed begun]
      exact within_conclude _ snapshot start (some m) (some n) (led m n fewer)

/-- Cut off between its two steps, a run that starts twice from the first byte of a bank makes the
first of them, tells that the limit was reached, and leaves nothing that the whole run does not
leave. -/
theorem run_limited_sole : ∃ full r,
    (sole.run { store := soleLog } {} [0x8000, 0x8000] 1 none).result = .ok full ∧
      (sole.run { store := soleLog } {} [0x8000, 0x8000] 1 (some 1)).result = .ok r ∧
      full.steps = 2 ∧ r.steps = 1 ∧ r.limitReached = true ∧ r.Begins full ∧
        (sole.run { store := soleLog } {} [0x8000, 0x8000] 1 (some 1)).analysis.Within
          (sole.run { store := soleLog } {} [0x8000, 0x8000] 1 none).analysis := by
  obtain ⟨full, answered⟩ := @answers_of_valid sole { store := soleLog } {} soleMap madeFor_sole
    ofSnapshot_sole [0x8000, 0x8000] none
  have two : full.steps = 2 := congrArg List.length (visits_of_sole answered)
  obtain ⟨cut, limited, whole, contained⟩ := run_limited sole answered
  obtain ⟨answered', steps, reached⟩ := limited 1
  obtain ⟨last, _, _⟩ := limited 2
  obtain ⟨begins, within⟩ := contained 1 2 (by decide)
  -- The limit of two steps suffices.
  have same := whole 2 (Nat.le_of_eq two)
  rw [same] at last within
  have all : cut 2 = full := Except.ok.inj (last.symm.trans answered)
  rw [two] at steps reached
  rw [all] at begins
  exact ⟨full, cut 1, answered, answered', two, steps, reached.mpr (by decide), begins, within⟩

end Analyzer

end BankTrace
