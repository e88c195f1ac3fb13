import Mathlib.Data.List.Perm.Subperm
import Mathlib.Logic.Relation
import BankTrace.Proofs.MemoryMap.Resolution
import BankTrace.Proofs.Trace.Visit
import BankTrace.Trace.Traversal

/-!
# Schedules

A schedule takes any of the waiting addresses for the next visit; oldest first and newest first are
two schedules. Under every schedule a traversal stays consistent: what waits and what was visited
are the starts and the successors of the visits, every visit is explained by the scene, and every
position is claimed once. As an address has one position, the number of visits is bounded by the
number of starts and that of the addresses, so a traversal without limit comes to its end.
-/

namespace BankTrace

/-- Addresses are added to those that wait, whatever the order. -/
theorem Worklist.toList_push_perm (w : Worklist) (addrs : List Int) :
    (w.push addrs).toList.Perm (w.toList ++ addrs) := by
  cases order : w.order with
  | fifo => rw [toList_push_fifo order]
  | lifo =>
    rw [toList_push_lifo order]
    exact ((List.reverse_perm addrs).append_right w.toList).trans List.perm_append_comm

/-- The addresses of a new worklist wait. -/
theorem Worklist.toList_ofList_perm (order : Order) (addrs : List Int) :
    (Worklist.ofList order addrs).toList.Perm addrs :=
  toList_push_perm ⟨order, [], []⟩ addrs

/-- What is taken was one of the waiting addresses; the others wait on. -/
theorem Worklist.perm_of_take? {w rest : Worklist} {addr : Int} {passed : Nat}
    (taken : w.take? passed = some (addr, rest)) :
    w.toList.Perm (addr :: rest.toList) ∧ rest.order = w.order := by
  cases passed with
  | zero =>
    have first := toList_of_pop? taken
    rw [first.1]
    exact ⟨List.Perm.refl _, first.2⟩
  | succ passed =>
    rw [take?, Option.map_eq_some_iff] at taken
    obtain ⟨found, there, same⟩ := taken
    obtain ⟨inside, rfl⟩ := List.getElem?_eq_some_iff.mp there
    simp only [Prod.mk.injEq] at same
    obtain ⟨rfl, rfl⟩ := same
    simp only [toList, List.reverse_nil, List.append_nil, and_true]
    exact (List.getElem_cons_eraseIdx_perm inside).symm

/-- Every waiting address can be taken. -/
theorem Worklist.exists_take? {w : Worklist} {addr : Int} (waits : addr ∈ w.toList) :
    ∃ passed rest, w.take? passed = some (addr, rest) := by
  obtain ⟨index, inside, there⟩ := List.getElem_of_mem waits
  have bound : index < w.size := by rw [← length_toList]; exact inside
  -- counted around once, so that the number is not zero
  have around : (index + w.size - 1 + 1) % w.size = index := by
    rw [Nat.sub_add_cancel (by omega), Nat.add_mod_right, Nat.mod_eq_of_lt bound]
  exists index + w.size - 1 + 1, ⟨w.order, w.toList.eraseIdx index, []⟩
  rw [take?, around, List.getElem?_eq_getElem inside, there]
  rfl

namespace Traversal

/-- One visit, of any waiting address; the others wait on, in any arrangement. -/
inductive Step (scene : Scene) (t : Traversal) : Traversal → Prop
  | visit {addr : Int} {rest : Worklist} (taken : t.waiting.toList.Perm (addr :: rest.toList)) :
    Step scene t (t.visit scene addr rest)

/-- Any number of visits, each of any address that waits by then. -/
def Leads (scene : Scene) : Traversal → Traversal → Prop :=
  Relation.ReflTransGen (Step scene)

/-- Of the log only the loaded bytes count for the visit of a traversal. -/
theorem visit_with_log {scene : Scene} {log : Cdl.Store}
    (same : ∀ p, log.loadedAt p = scene.log.loadedAt p) (addr : Int) (rest : Worklist)
    (t : Traversal) : t.visit { scene with log } addr rest = t.visit scene addr rest := by
  obtain ⟨waiting, claims, visits⟩ := t
  unfold visit
  dsimp only
  rw [Scene.visit_with_log scene same]

/-- Of the log only the loaded bytes count for a schedule. -/
theorem leads_with_log (scene : Scene) {log : Cdl.Store}
    (same : ∀ p, log.loadedAt p = scene.log.loadedAt p) {t u : Traversal}
    (led : Leads { scene with log } t u) : Leads scene t u := by
  refine Relation.ReflTransGen.mono ?_ t u led
  rintro t _ ⟨taken⟩
  rw [visit_with_log same]
  exact Step.visit taken

/-- Scenes in which every visit finds the same lead to the same traversals. -/
theorem run_congr {scene other : Scene}
    (same : ∀ claims addr, other.visit claims addr = scene.visit claims addr) (order : Order)
    (schedule : Schedule) (starts : List Int) (limit : Option Int) :
    run other order schedule starts limit = run scene order schedule starts limit := by
  have each : ∀ allowance t,
      advance other schedule allowance t = advance scene schedule allowance t := by
    intro allowance
    induction allowance with
    | zero => exact fun _ => rfl
    | succ allowance ih =>
      intro t
      rw [advance, advance]
      cases t.waiting.take? (schedule t.visits) with
      | none => rfl
      | some next =>
        obtain ⟨waiting, claims, visits⟩ := t
        dsimp only
        unfold visit
        dsimp only
        rw [same, ih]
  exact each _ _

/-- Of the log only the loaded bytes count for a traversal. -/
theorem run_with_log (scene : Scene) {log : Cdl.Store}
    (same : ∀ p, log.loadedAt p = scene.log.loadedAt p) (order : Order) (schedule : Schedule)
    (starts : List Int) (limit : Option Int) :
    run { scene with log } order schedule starts limit = run scene order schedule starts limit :=
  run_congr (fun _ _ => Scene.visit_with_log scene same ..) order schedule starts limit

/-- Nothing waits. -/
def IsComplete (t : Traversal) : Prop := t.waiting.toList = []

/-- A traversal is finished when nothing waits. -/
theorem isUnfinished_eq_false_iff {t : Traversal} : t.isUnfinished = false ↔ t.IsComplete := by
  unfold isUnfinished IsComplete
  rw [decide_eq_false_iff_not, not_not, ← Worklist.length_toList, List.length_eq_zero_iff]

/-- Every visit of a schedule is one of any waiting address. -/
theorem leads_advance (scene : Scene) (schedule : Schedule) (allowance : Nat) (t : Traversal) :
    Leads scene t (advance scene schedule allowance t) := by
  induction allowance generalizing t with
  | zero => exact Relation.ReflTransGen.refl
  | succ allowance ih =>
    rw [advance]
    split
    · exact Relation.ReflTransGen.refl
    · rename_i addr rest taken
      have step : Step scene t (t.visit scene addr rest) :=
        Step.visit (Worklist.perm_of_take? taken).1
      exact Relation.ReflTransGen.head step (ih _)

/-- A traversal without waiting addresses is over. -/
theorem advance_of_isComplete {scene : Scene} {schedule : Schedule} {t : Traversal}
    (complete : t.IsComplete) (allowance : Nat) : advance scene schedule allowance t = t := by
  cases allowance with
  | zero => rfl
  | succ allowance =>
    rw [advance, Worklist.take?_eq_none_iff.mpr complete]

/-- A traversal uses up its allowance unless nothing waits any more. -/
theorem complete_or_length_advance (scene : Scene) (schedule : Schedule) (allowance : Nat)
    (t : Traversal) :
    (advance scene schedule allowance t).IsComplete ∨
      (advance scene schedule allowance t).visits.length = t.visits.length + allowance := by
  induction allowance generalizing t with
  | zero => exact .inr rfl
  | succ allowance ih =>
    rw [advance]
    split
    case h_1 empty => exact .inl (Worklist.take?_eq_none_iff.mp empty)
    case h_2 addr rest _ =>
      rcases ih (t.visit scene addr rest) with complete | used
      · exact .inl complete
      · right
        have one : (t.visit scene addr rest).visits.length = t.visits.length + 1 := rfl
        omega

/-! ## Consistency -/

/-- A visit is explained by the scene and the positions that are claimed by now. -/
inductive Explains (scene : Scene) (claims : Registry Cdl.Position) : Visit → Prop
  /-- There was nothing to execute at the address. -/
  | discarded {addr : Int} (nowhere : scene.candidate? addr = none) :
    Explains scene claims ⟨addr, .discarded⟩
  /-- The position at the address had been claimed. -/
  | skipped {addr : Int} {location : Location} (candidate : scene.candidate? addr = some location)
    (claimed : claims.contains location.position = true) : Explains scene claims ⟨addr, .skipped⟩
  /-- The position at the address was claimed by the visit, which inspected it. -/
  | inspected {addr : Int} {location : Location} (candidate : scene.candidate? addr = some location)
    (claimed : claims.contains location.position = true) :
    Explains scene claims ⟨addr, scene.inspect addr location⟩

/-- Further claims leave a visit explained. -/
theorem Explains.mono {scene : Scene} {claims later : Registry Cdl.Position} {v : Visit}
    (explained : Explains scene claims v)
    (more : ∀ p, claims.contains p = true → later.contains p = true) : Explains scene later v := by
  cases explained with
  | discarded nowhere => exact .discarded nowhere
  | skipped candidate claimed => exact .skipped candidate (more _ claimed)
  | inspected candidate claimed => exact .inspected candidate (more _ claimed)

/-- Where a visited address has a candidate, its position is claimed by now. -/
theorem Explains.claimed {scene : Scene} {claims : Registry Cdl.Position} {v : Visit}
    (explained : Explains scene claims v) {location : Location}
    (candidate : scene.candidate? v.address = some location) :
    claims.contains location.position = true := by
  cases explained with
  | discarded nowhere =>
    rw [nowhere] at candidate
    contradiction
  | skipped candidate' claimed =>
    rw [candidate', Option.some_inj] at candidate
    rw [← candidate]
    exact claimed
  | inspected candidate' claimed =>
    rw [candidate', Option.some_inj] at candidate
    rw [← candidate]
    exact claimed

/-- A visit that claims a position inspected the candidate that has it. -/
theorem Explains.exists_inspect {scene : Scene} {claims : Registry Cdl.Position} {v : Visit}
    (explained : Explains scene claims v) {p : Cdl.Position} (claim : v.outcome.claim? = some p) :
    ∃ location, scene.candidate? v.address = some location ∧ location.position = p ∧
      v.outcome = scene.inspect v.address location := by
  cases explained with
  | discarded => contradiction
  | skipped => contradiction
  | inspected candidate =>
    rw [Scene.claim?_inspect] at claim
    exact ⟨_, candidate, Option.some.inj claim, rfl⟩

/-- What holds at any time in a traversal from `starts`. -/
structure Consistent (scene : Scene) (starts : List Int) (t : Traversal) : Prop where
  /-- What waits and what was visited are the starts and the successors of the visits. -/
  conserved : (t.waiting.toList ++ t.visits.map Visit.address).Perm
    (starts ++ t.visits.flatMap fun v => v.outcome.successors)
  /-- Every visit is explained. -/
  explained : ∀ v ∈ t.visits, Explains scene t.claims v
  /-- The claims are those of the visits. -/
  claimed : ∀ p, t.claims.contains p = true ↔ p ∈ t.visits.filterMap fun v => v.outcome.claim?
  /-- No position is claimed twice. -/
  once : (t.visits.filterMap fun v => v.outcome.claim?).Nodup

/-- A traversal that has not begun is consistent, in whatever arrangement the starts wait. -/
theorem consistent_start (scene : Scene) {starts : List Int} {waiting : Worklist}
    (arranged : waiting.toList.Perm starts) : Consistent scene starts { waiting } where
  conserved := by
    simpa using arranged
  explained := by simp
  claimed := by simp
  once := by simp

/-- The claims behind a visit are those in front of it and that of the visit. -/
theorem contains_claims_visit (scene : Scene) (addr : Int) (rest : Worklist) (t : Traversal)
    (p : Cdl.Position) :
    (t.visit scene addr rest).claims.contains p = true ↔
      (scene.visit t.claims addr).claim? = some p ∨ t.claims.contains p = true := by
  obtain ⟨waiting, claims, visits⟩ := t
  unfold visit
  dsimp only
  cases claim : (scene.visit claims addr).claim? with
  | none => simp
  | some q =>
    rw [Registry.contains_insert]
    simp only [Bool.or_eq_true, decide_eq_true_eq, Option.some_inj]
    constructor
    · exact fun h => h.imp_left Eq.symm
    · exact fun h => h.imp_left Eq.symm

/-- A visit that claims a position inspects a candidate whose position was not claimed. -/
theorem claim?_visit_eq_some_iff {scene : Scene} {claims : Registry Cdl.Position} {addr : Int}
    {p : Cdl.Position} :
    (scene.visit claims addr).claim? = some p ↔
      ∃ location, scene.candidate? addr = some location ∧ location.position = p ∧
        claims.contains p = false := by
  rcases scene.visit_cases claims addr with ⟨none, discarded⟩ | ⟨location, found, seen | fresh⟩
  · rw [discarded, none]
    simp [Outcome.claim?, Outcome.location?]
  · rw [seen.2, found]
    simp only [Outcome.claim?, Outcome.location?, Option.map_none, reduceCtorEq, Option.some_inj,
      false_iff, not_exists, not_and]
    rintro other rfl rfl
    simp [seen.1]
  · rw [fresh.2, found, Scene.claim?_inspect]
    simp only [Option.some_inj]
    constructor
    · rintro rfl
      exact ⟨location, rfl, rfl, fresh.1⟩
    · rintro ⟨other, rfl, same, _⟩
      exact same

/-- A visit keeps a traversal consistent. -/
theorem Consistent.visit {scene : Scene} {starts : List Int} {t : Traversal}
    (consistent : Consistent scene starts t) {addr : Int} {rest : Worklist}
    (taken : t.waiting.toList.Perm (addr :: rest.toList)) :
    Consistent scene starts (t.visit scene addr rest) := by
  have claims := contains_claims_visit scene addr rest t
  have visits : (t.visit scene addr rest).visits = ⟨addr, scene.visit t.claims addr⟩ :: t.visits :=
    rfl
  constructor
  case conserved =>
    have added := Worklist.toList_push_perm rest (scene.visit t.claims addr).successors
    have waiting : (t.visit scene addr rest).waiting.toList =
        (rest.push (scene.visit t.claims addr).successors).toList := rfl
    rw [visits, waiting, List.map_cons, List.flatMap_cons, List.perm_iff_count]
    intro a
    have before := consistent.conserved.count_eq a
    have popped := taken.count_eq a
    have pushed := added.count_eq a
    simp only [List.count_append, List.count_cons] at before popped pushed ⊢
    omega
  case explained =>
    intro v member
    rw [visits] at member
    rcases List.mem_cons.mp member with rfl | earlier
    · rcases scene.visit_cases t.claims addr with
        ⟨nowhere, discarded⟩ | ⟨location, found, seen | fresh⟩
      · rw [discarded]
        exact .discarded nowhere
      · rw [seen.2]
        exact .skipped found ((claims _).mpr (.inr seen.1))
      · have claim : (scene.visit t.claims addr).claim? = some location.position := by
          rw [fresh.2, Scene.claim?_inspect]
        have claimed := (claims _).mpr (.inl claim)
        rw [fresh.2]
        exact .inspected found claimed
    · exact (consistent.explained v earlier).mono fun p known => (claims p).mpr (.inr known)
  case claimed =>
    intro p
    rw [claims, visits, List.filterMap_cons, consistent.claimed]
    cases (scene.visit t.claims addr).claim? with
    | none => simp
    | some q =>
      simp only [Option.some_inj, List.mem_cons]
      exact or_congr_left ⟨Eq.symm, Eq.symm⟩
  case once =>
    rw [visits, List.filterMap_cons]
    cases claim : (scene.visit t.claims addr).claim? with
    | none => exact consistent.once
    | some p =>
      obtain ⟨_, _, _, fresh⟩ := claim?_visit_eq_some_iff.mp claim
      refine List.nodup_cons.mpr ⟨?_, consistent.once⟩
      rw [← consistent.claimed, fresh]
      exact Bool.false_ne_true

/-- A traversal stays consistent under every schedule. -/
theorem Consistent.leads {scene : Scene} {starts : List Int} {t u : Traversal}
    (consistent : Consistent scene starts t) (led : Leads scene t u) :
    Consistent scene starts u := by
  induction led with
  | refl => exact consistent
  | tail _ step ih =>
    obtain ⟨taken⟩ := step
    exact ih.visit taken

/-! ## Termination -/

/-- A visit that claims nothing leads nowhere, and every other one to two addresses at most. -/
theorem length_successors_le {scene : Scene} {claims : Registry Cdl.Position} {v : Visit}
    (explained : Explains scene claims v) :
    v.outcome.successors.length ≤ 2 * v.outcome.claim?.toList.length := by
  cases explained with
  | discarded => exact Nat.zero_le _
  | skipped => exact Nat.zero_le _
  | @inspected addr location =>
    dsimp only
    rw [Scene.claim?_inspect]
    cases found : scene.inspect addr location with
    | accepted place insn warnings successors =>
      have goesOn := (Scene.inspect_eq_accepted_iff.mp found).2.1
      have two := Instruction.length_successors_le scene.map insn
      rw [goesOn] at two
      exact two
    | discarded => exact Nat.zero_le _
    | skipped => exact Nat.zero_le _
    | undecodable place error => exact Nat.zero_le _
    | refused place insn reason => exact Nat.zero_le _

/-- The positions of all addresses. -/
def positions (scene : Scene) : List Cdl.Position :=
  (List.range addressCount).filterMap fun (addr : Nat) =>
    (scene.candidate? addr).map Location.position

/-- A claimed position is that of an address. -/
theorem Consistent.mem_positions {scene : Scene} {starts : List Int} {t : Traversal}
    (consistent : Consistent scene starts t) {p : Cdl.Position}
    (claimed : p ∈ t.visits.filterMap fun v => v.outcome.claim?) : p ∈ positions scene := by
  obtain ⟨v, member, claim⟩ := List.mem_filterMap.mp claimed
  obtain ⟨location, candidate, position, _⟩ := (consistent.explained v member).exists_inspect claim
  have executable := (Scene.candidate?_eq_some_iff.mp candidate).2.2.1
  have bounds := AddressSpace.bounds_of_executable executable
  refine List.mem_filterMap.mpr ⟨v.address.toNat, ?_, ?_⟩
  · rw [List.mem_range]
    unfold addressCount
    omega
  · rw [Int.toNat_of_nonneg bounds.1, candidate, ← position]
    rfl

/-- There are no more claims than addresses. -/
theorem Consistent.length_claims_le {scene : Scene} {starts : List Int} {t : Traversal}
    (consistent : Consistent scene starts t) :
    (t.visits.filterMap fun v => v.outcome.claim?).length ≤ addressCount := by
  have inside : (t.visits.filterMap fun v => v.outcome.claim?).Subperm (positions scene) :=
    consistent.once.subperm fun _ claimed => consistent.mem_positions claimed
  calc (t.visits.filterMap fun v => v.outcome.claim?).length
      ≤ (positions scene).length := inside.length_le
    _ ≤ (List.range addressCount).length := List.length_filterMap_le _ _
    _ = addressCount := List.length_range

/-- The successors of visits are at most twice as many as their claims. -/
theorem length_flatMap_successors_le {visits : List Visit}
    (two : ∀ v ∈ visits, v.outcome.successors.length ≤ 2 * v.outcome.claim?.toList.length) :
    (visits.flatMap fun v => v.outcome.successors).length ≤
      2 * (visits.filterMap fun v => v.outcome.claim?).length := by
  induction visits with
  | nil => simp
  | cons v rest ih =>
    have first := two v List.mem_cons_self
    have others := ih fun w later => two w (List.mem_cons_of_mem v later)
    rw [List.flatMap_cons, List.length_append, List.filterMap_cons]
    cases claim : v.outcome.claim? with
    | none =>
      rw [claim] at first
      simp only [Option.toList_none, List.length_nil] at first
      dsimp only
      omega
    | some p =>
      rw [claim] at first
      simp only [Option.toList_some, List.length_singleton] at first
      simp only [List.length_cons]
      omega

/-- What waits and what was visited are at most as many as the starts and two for every address. -/
theorem Consistent.length_le {scene : Scene} {starts : List Int} {t : Traversal}
    (consistent : Consistent scene starts t) :
    t.waiting.toList.length + t.visits.length ≤ starts.length + 2 * addressCount := by
  have conserved := consistent.conserved.length_eq
  have claims := consistent.length_claims_le
  have successors := length_flatMap_successors_le fun v member =>
    length_successors_le (consistent.explained v member)
  simp only [List.length_append, List.length_map] at conserved
  omega

/-- Without a limit a traversal goes on until nothing waits. -/
theorem isComplete_run (scene : Scene) (order : Order) (schedule : Schedule)
    (starts : List Int) : (run scene order schedule starts none).IsComplete := by
  have led := leads_advance scene schedule (ceiling starts.length)
    { waiting := .ofList order starts }
  have begun := consistent_start scene (Worklist.toList_ofList_perm order starts)
  have bound := (begun.leads led).length_le
  have done := complete_or_length_advance scene schedule (ceiling starts.length)
    { waiting := .ofList order starts }
  rcases done with complete | used
  · exact complete
  · simp only [List.length_nil] at used
    unfold ceiling at *
    omega

end Traversal

end BankTrace
