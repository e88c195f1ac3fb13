import Mathlib.Algebra.GroupWithZero.Nat
import Mathlib.Data.Finset.Card
import BankTrace.Proofs.Trace.Contest
import BankTrace.Proofs.Trace.Independence
import BankTrace.Proofs.Trace.OrderFreedom
import BankTrace.Proofs.Trace.Reachability

/-!
# The accounts of a run

A visit ends in one of five ways, and a run counts each of them. The counts balance: they add up to
the number of visits, the instructions that were read are those that are believed and those that are
not, every visit that inspects a location claims one position, and no address is inspected twice,
even where two addresses share a position. A run that leaves nothing waiting has visited its starts
and the successors of the believed instructions, each as often as it came to wait.
-/

namespace BankTrace

namespace Outcome

/-- Every outcome is counted once. -/
theorem length_eq_counts (outcomes : List Outcome) :
    outcomes.length = (outcomes.filterMap instruction?).length + outcomes.countP isUndecodable +
      outcomes.countP isSkipped + outcomes.countP isDiscarded := by
  induction outcomes with
  | nil => rfl
  | cons o rest ih =>
    rw [List.length_cons, ih, List.filterMap_cons]
    simp only [List.countP_cons]
    cases o <;> simp [instruction?, isUndecodable, isSkipped, isDiscarded] <;> omega

/-- The instructions that were read are those that are believed and those that are not. -/
theorem instructions_perm (outcomes : List Outcome) :
    (outcomes.filterMap accepted? ++ (outcomes.filterMap refused?).map Prod.fst).Perm
      (outcomes.filterMap instruction?) := by
  induction outcomes with
  | nil => exact .refl _
  | cons o rest ih =>
    cases o with
    | accepted location insn warnings successors => exact ih.cons insn
    | refused location insn reason =>
      exact List.perm_middle.trans (ih.cons insn)
    | discarded => exact ih
    | skipped => exact ih
    | undecodable location error => exact ih

/-- A position is claimed where an instruction was read and where none could be read. -/
theorem length_claims (outcomes : List Outcome) :
    (outcomes.filterMap claim?).length =
      (outcomes.filterMap instruction?).length + outcomes.countP isUndecodable := by
  induction outcomes with
  | nil => rfl
  | cons o rest ih =>
    rw [List.filterMap_cons, List.filterMap_cons, List.countP_cons]
    cases o <;> simp [claim?, location?, instruction?, isUndecodable, ih] <;> omega

end Outcome

namespace Traversal

variable {scene : Scene} {starts : List Int} {t u : Traversal}

/-- There are as many claims as visits that claim a position. -/
def Counted (t : Traversal) : Prop :=
  t.claims.size = (t.visits.filterMap fun v => v.outcome.claim?).length

/-- A visit claims a position that is new, or none. -/
theorem Counted.visit (counted : t.Counted) (addr : Int) (rest : Worklist) :
    (t.visit scene addr rest).Counted := by
  obtain ⟨waiting, claims, visits⟩ := t
  unfold Counted Traversal.visit at *
  dsimp only at *
  rw [List.filterMap_cons]
  cases claim : (scene.visit claims addr).claim? with
  | none => exact counted
  | some p =>
    obtain ⟨_, _, _, fresh⟩ := claim?_visit_eq_some_iff.mp claim
    dsimp only
    rw [Registry.size_insert, fresh, if_neg Bool.false_ne_true, List.length_cons, counted]

/-- The claims are counted under every schedule. -/
theorem Counted.leads (counted : t.Counted) (led : Leads scene t u) : u.Counted := by
  induction led with
  | refl => exact counted
  | tail _ step ih =>
    obtain ⟨taken⟩ := step
    exact ih.visit _ _

/-- A visit that read an instruction inspected a candidate, and the instruction is at the visited
address. -/
theorem Explains.exists_candidate_of_read {claims : Registry Cdl.Position} {v : Visit}
    (explained : Explains scene claims v) {insn : Instruction}
    (read : v.outcome.instruction? = some insn) :
    insn.address = v.address ∧ ∃ location, scene.candidate? v.address = some location ∧
      v.outcome.claim? = some location.position := by
  cases explained with
  | discarded => contradiction
  | skipped => contradiction
  | @inspected addr location candidate =>
    refine ⟨?_, location, candidate, scene.claim?_inspect addr location⟩
    dsimp only at read ⊢
    unfold Scene.inspect at read
    cases decoded : Instruction.decode (location.bytes 3) addr (some scene.space) with
    | error e => simp [decoded, Outcome.instruction?] at read
    | ok other =>
      have same : other = insn := by
        rw [decoded] at read
        dsimp only at read
        split at read <;> exact Option.some.inj read
      rw [← same]
      exact (Instruction.decode_eq_ok_iff.mp decoded).1

/-- No instruction is read twice, even where addresses share positions. -/
theorem Consistent.nodup_read (consistent : Consistent scene starts t) :
    ((t.visits.filterMap fun v => v.outcome.instruction?).map Instruction.address).Nodup := by
  have once := consistent.once
  unfold List.Nodup at once ⊢
  rw [List.pairwise_filterMap] at once
  rw [List.pairwise_map, List.pairwise_filterMap]
  refine once.imp_of_mem ?_
  intro v w member member' apart insn read other read' addresses
  obtain ⟨here, location, candidate, claim⟩ :=
    (consistent.explained v member).exists_candidate_of_read read
  obtain ⟨here', location', candidate', claim'⟩ :=
    (consistent.explained w member').exists_candidate_of_read read'
  -- One address has one candidate, so the second visit would have claimed the position again.
  have visited : v.address = w.address := here.symm.trans (addresses.trans here')
  rw [visited, candidate', Option.some_inj] at candidate
  exact apart _ claim _ claim' (by rw [candidate])

/-- Execution goes on where the believed instructions lead. -/
theorem length_flatMap_successors {claims : Registry Cdl.Position} {visits : List Visit}
    (explained : ∀ v ∈ visits, Explains scene claims v) :
    (visits.flatMap fun v => v.outcome.successors).length =
      ((visits.filterMap fun v => v.outcome.accepted?).map fun insn =>
        (insn.successors scene.map).2.length).sum := by
  induction visits with
  | nil => rfl
  | cons v rest ih =>
    have others := ih fun w later => explained w (List.mem_cons_of_mem v later)
    rw [List.flatMap_cons, List.length_append, others, List.filterMap_cons]
    cases believed : v.outcome.accepted? with
    | none =>
      rw [Outcome.successors_of_accepted?_eq_none believed, List.length_nil, Nat.zero_add]
    | some insn =>
      obtain ⟨location, warnings, successors, accepted⟩ :=
        Outcome.accepted?_eq_some_iff.mp believed
      obtain ⟨_, goesOn⟩ := accepts_of_explained (explained v List.mem_cons_self) accepted
      dsimp only
      rw [List.map_cons, List.sum_cons, goesOn, accepted]
      rfl

/-- What waits and what was visited are the starts and what the believed instructions lead to. -/
theorem Consistent.length_eq (consistent : Consistent scene starts t) :
    t.waiting.size + t.visits.length = starts.length +
      ((t.visits.filterMap fun v => v.outcome.accepted?).map fun insn =>
        (insn.successors scene.map).2.length).sum := by
  have conserved := consistent.conserved.length_eq
  rw [List.length_append, List.length_append, List.length_map, Worklist.length_toList,
    length_flatMap_successors consistent.explained] at conserved
  exact conserved

end Traversal

/-- The accounts of a result balance; `claimed` positions are claimed behind its run. -/
structure Result.Balances (r : Result) (map : MemoryMap) (limit : Option Int) (claimed : Nat) :
    Prop where
  /-- Every step is counted once. -/
  steps : r.steps = r.decoded + r.decodeErrors + r.skipped + r.discarded
  /-- What was read is accepted or refused. -/
  decoded : r.decoded = r.accepted + r.refusals.length
  /-- A position is claimed for everything that was inspected. -/
  claimed : claimed = r.decoded + r.decodeErrors
  /-- What is accepted or refused at an address is an instruction at this address. -/
  visited : ∀ v ∈ r.visits, ∀ insn, v.outcome.instruction? = some insn → insn.address = v.address
  /-- No address is accepted or refused twice. -/
  once : (r.instructions.map Instruction.address ++
    r.refusals.map fun refusal => refusal.1.address).Nodup
  /-- As many addresses are accepted as there are accepted instructions. -/
  accepted : r.accepted = (r.instructions.map Instruction.address).toFinset.card
  /-- Unless the limit was reached, everything that came to wait was visited. -/
  complete : r.limitReached = false → r.steps = r.seeds.length + r.loadedSeeds.length +
    (r.instructions.map fun insn => (insn.successors map).2.length).sum
  /-- Without a limit none is reached. -/
  unlimited : limit = none → r.limitReached = false

section

variable {scene : Scene} {limit : Option Int} {t : Traversal} {r : Result}

/-- What a result has read is what its traversal has read, in the order of the visits. -/
theorem Result.filterMap_outcomes {α : Type} (read : Outcome → Option α)
    (visits : r.visits = t.visits.reverse) :
    r.outcomes.filterMap read = (t.visits.filterMap fun v => read v.outcome).reverse := by
  unfold outcomes
  rw [visits, List.filterMap_map, List.filterMap_reverse]
  rfl

/-- The accounts of a consistent traversal whose claims are counted balance. -/
theorem Traversal.Consistent.balances (consistent : t.Consistent scene (r.seeds ++ r.loadedSeeds))
    (counted : t.Counted) (visits : r.visits = t.visits.reverse)
    (unfinished : r.limitReached = t.isUnfinished) (ended : limit = none → t.IsComplete) :
    r.Balances scene.map limit t.claims.size := by
  have split := Outcome.instructions_perm r.outcomes
  have once : ((r.instructions ++ r.refusals.map Prod.fst).map Instruction.address).Nodup := by
    apply (split.map Instruction.address).nodup_iff.mpr
    rw [Result.filterMap_outcomes _ visits, List.map_reverse, List.nodup_reverse]
    exact consistent.nodup_read
  rw [List.map_append, List.map_map] at once
  constructor
  case steps =>
    have total := Outcome.length_eq_counts r.outcomes
    unfold Result.outcomes at total
    rw [List.length_map] at total
    exact total
  case decoded =>
    have sums := split.length_eq
    rw [List.length_append, List.length_map] at sums
    exact sums.symm
  case claimed =>
    have claims := Result.filterMap_outcomes Outcome.claim? visits
    calc t.claims.size
        = (r.outcomes.filterMap Outcome.claim?).length := by
          rw [counted, claims, List.length_reverse]
      _ = r.decoded + r.decodeErrors := Outcome.length_claims r.outcomes
  case visited =>
    intro v member insn found
    rw [visits, List.mem_reverse] at member
    exact ((consistent.explained v member).exists_candidate_of_read found).1
  case once => exact once
  case accepted =>
    rw [List.toFinset_card_of_nodup once.of_append_left, List.length_map]
    rfl
  case complete =>
    intro finished
    have total := consistent.length_eq
    have nothing : t.waiting.size = 0 := by
      have complete := isUnfinished_eq_false_iff.mp (unfinished.symm.trans finished)
      rw [← Worklist.length_toList, complete, List.length_nil]
    have believed := Result.filterMap_outcomes Outcome.accepted? visits
    unfold Result.steps Result.instructions
    rw [believed, List.map_reverse, List.sum_reverse, visits, List.length_reverse]
    rw [List.length_append] at total
    omega
  case unlimited =>
    intro none
    exact unfinished.trans (isUnfinished_eq_false_iff.mpr (ended none))

end

namespace Analyzer

section

variable (a : Analyzer) {before : Analysis} {snapshot : Snapshot} {entries : List Int}
  {workers : Int} {limit : Option Int} {r : Result}

/-- A traversal leaves its claims, and marks on the bytes of the instructions that it believed. -/
theorem store_conclude (analysis : Analysis) (snapshot : Snapshot) (start : Start) (workers : Int)
    (limit : Option Int) (t : Traversal) :
    (conclude analysis snapshot start workers limit t).analysis.store =
      { analysis.store.markAll (codeMarks t.outcomes) with claims := t.claims } := by
  unfold conclude
  dsimp only
  rw [markCode_eq]
  exact Cdl.Store.markAll_with_claims ..

/-- A run that answers tells of a traversal that is consistent in its scene. -/
theorem exists_traversal_of_run
    (answered : (a.run before snapshot entries workers limit).result = .ok r) :
    ∃ (map : MemoryMap) (scene : Scene) (t : Traversal),
      MemoryMap.ofSnapshot a.banks snapshot = .ok map ∧ scene.map = map ∧
      t.Consistent scene (r.seeds ++ r.loadedSeeds) ∧ t.Counted ∧
      r.visits = t.visits.reverse ∧ r.limitReached = t.isUnfinished ∧
      (limit = none → t.IsComplete) ∧
      (a.run before snapshot entries workers limit).analysis.store.claims = t.claims := by
  obtain ⟨start, begun, traversed, analysis⟩ := a.exists_start_of_run answered
  obtain rfl := Except.ok.inj traversed
  let scene := a.scene start.map (a.prepare before snapshot entries).analysis.store start.loaded
  let first : Traversal := { waiting := Worklist.ofList a.order start.addresses }
  let t := Traversal.run scene a.order (a.schedule.ofWorkers workers) start.addresses limit
  have led : first.Leads scene t := Traversal.leads_advance ..
  have consistent := Traversal.consistent_start scene
    (Worklist.toList_ofList_perm a.order start.addresses)
  have counted : first.Counted := Registry.size_empty
  have valid := a.ofSnapshot_of_prepare begun
  have ended : limit = none → t.IsComplete := by
    rintro rfl
    exact Traversal.isComplete_run ..
  refine ⟨start.map, scene, t, valid, rfl, consistent.leads led, counted.leads led, rfl, rfl,
    ended, ?_⟩
  rw [analysis]
  exact congrArg Cdl.Store.claims (store_conclude ..)

/-- The accounts of a run balance, with and without a limit of steps, also where banks share
positions of the log. -/
theorem run_balances (answered : (a.run before snapshot entries 1 limit).result = .ok r) :
    ∃ map, MemoryMap.ofSnapshot a.banks snapshot = .ok map ∧
      r.Balances map limit (a.run before snapshot entries 1 limit).analysis.store.claimedCount := by
  obtain ⟨map, scene, t, valid, rfl, consistent, counted, visits, unfinished, ended, claims⟩ :=
    a.exists_traversal_of_run answered
  refine ⟨scene.map, valid, ?_⟩
  unfold Cdl.Store.claimedCount
  rw [claims]
  exact consistent.balances counted visits unfinished ended

end

/-- A run that starts twice from the first byte of the bank believes the instruction there, which
leads nowhere, and skips the byte the second time. -/
theorem visits_of_sole {r : Result}
    (answered : (sole.run { store := soleLog } {} [0x8000, 0x8000] 1 none).result = .ok r) :
    r.visits = [⟨0x8000, .accepted soleStart soleInstruction [] []⟩, ⟨0x8000, .skipped⟩] := by
  have unread := Cdl.Store.loadedAt_of_forBanks forBanks_sole
  have made : ({ store := soleLog } : Analysis).store.MadeFor sole.banks.declared := madeFor_sole
  obtain ⟨start, t, reach, traversal, _, result⟩ :=
    sole.run_of_valid made ofSnapshot_sole .fifo .inOrder [0x8000, 0x8000] (Int.le_refl 1) none
  obtain ⟨_, seeds, ran⟩ := reach.ran madeFor_sole ofSnapshot_sole 1 none
  have loaded : start.loaded = [] :=
    MemoryMap.loadedStarts_eq_nil (fun l _ => unread l.position) ran.loaded_eq
  have starts : start.addresses = [0x8000, 0x8000] := by
    unfold Start.addresses
    rw [seeds, loaded]
    rfl
  have candidate : (sole.scene soleMap soleLog []).candidate? 0x8000 = some soleStart :=
    candidate_of_contest (l := soleStart) unread ofSnapshot_sole List.mem_cons_self
  have inspected : (sole.scene soleMap soleLog []).inspect 0x8000 soleStart =
      .accepted soleStart soleInstruction [] [] := Traversal.inspect_of_accepts accepts_sole
  have found := Scene.visit_of_unclaimed candidate (Registry.contains_empty _)
  have again : ∀ claims : Registry Cdl.Position,
      (∀ p, claims.contains p = decide (some soleStart.position = some p)) →
        (sole.scene soleMap soleLog []).visit claims 0x8000 = .skipped := by
    intro claims known
    apply Scene.visit_of_claimed candidate
    rw [known]
    exact decide_eq_true rfl
  have visits := Traversal.visits_run_pair .fifo [0x8000, 0x8000] rfl (found.trans inspected) rfl
    again rfl
  rw [starts, loaded] at traversal
  have same : t.visits = _ := (congrArg Traversal.visits traversal).trans visits
  have answer := Except.ok.inj (result.symm.trans answered)
  rw [← answer]
  change t.visits.reverse = _
  rw [same]
  rfl

/-- The accounts balance of a run that starts twice from the first byte of a bank. -/
theorem run_balances_sole : ∃ r map,
    (sole.run { store := soleLog } {} [0x8000, 0x8000] 1 none).result = .ok r ∧
      r.Balances map none (sole.run { store := soleLog } {} [0x8000, 0x8000] 1
        none).analysis.store.claimedCount ∧
      r.steps = 2 ∧ r.decoded = 1 ∧ r.accepted = 1 ∧ r.rejected = 0 ∧ r.skipped = 1 ∧
      r.discarded = 0 ∧ r.decodeErrors = 0 ∧ r.limitReached = false ∧
      (sole.run { store := soleLog } {} [0x8000, 0x8000] 1 none).analysis.store.claimedCount =
        1 := by
  obtain ⟨r, answered⟩ := @answers_of_valid sole { store := soleLog } {} soleMap madeFor_sole
    ofSnapshot_sole [0x8000, 0x8000] none
  obtain ⟨map, _, balances⟩ := run_balances sole answered
  have visits := visits_of_sole answered
  have outcomes : r.outcomes = [.accepted soleStart soleInstruction [] [], .skipped] :=
    congrArg (List.map Visit.outcome) visits
  have steps : r.steps = 2 := congrArg List.length visits
  have decoded : r.decoded = 1 := by simp [Result.decoded, outcomes, Outcome.instruction?]
  have accepted : r.accepted = 1 := by
    simp [Result.accepted, Result.instructions, outcomes, Outcome.accepted?]
  have rejected : r.rejected = 0 := by
    simp [Result.rejected, Result.refusals, outcomes, Outcome.refused?]
  have skipped : r.skipped = 1 := by simp [Result.skipped, outcomes, Outcome.isSkipped]
  have discarded : r.discarded = 0 := by simp [Result.discarded, outcomes, Outcome.isDiscarded]
  have errors : r.decodeErrors = 0 := by
    simp [Result.decodeErrors, outcomes, Outcome.isUndecodable]
  have claimed := balances.claimed
  rw [decoded, errors] at claimed
  exact ⟨r, map, answered, balances, steps, decoded, accepted, rejected, skipped, discarded, errors,
    balances.unlimited rfl, claimed⟩

end Analyzer

end BankTrace
