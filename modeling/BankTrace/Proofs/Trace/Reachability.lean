import Mathlib.Data.List.Nodup
import BankTrace.Proofs.Trace.Schedule

/-!
# Reachability

The reachable addresses are the least set that has the starts and the successors of every accepted
instruction at a reachable address. Where no two candidates share a log byte, a complete traversal
visits exactly the reachable addresses and believes exactly the accepted instructions among them,
and two complete traversals make the same visits, each as often, in whatever order they make them.
-/

namespace BankTrace

namespace Scene

/-- The addresses that are reached from `starts`. -/
inductive Reaches (scene : Scene) (starts : List Int) : Int → Prop
  /-- A start is reached. -/
  | start {addr : Int} (member : addr ∈ starts) : Reaches scene starts addr
  /-- Execution goes on at the successors of accepted instructions. -/
  | next {addr target : Int} {location : Location} {insn : Instruction}
    (reached : Reaches scene starts addr) (accepted : scene.Accepts addr location insn)
    (follows : target ∈ (insn.successors scene.map).2) : Reaches scene starts target

/-- Candidates at different addresses have different log bytes. -/
def CandidatesApart (scene : Scene) : Prop :=
  ∀ x y l m, scene.candidate? x = some l → scene.candidate? y = some m →
    l.position = m.position → x = y

end Scene

namespace Traversal

variable {scene : Scene} {starts : List Int} {t u : Traversal}

/-- A visit that follows an instruction accepts it. -/
theorem accepts_of_explained {claims : Registry Cdl.Position} {v : Visit}
    (explained : Explains scene claims v) {location : Location} {insn : Instruction}
    {warnings : List Event} {successors : List Int}
    (followed : v.outcome = .accepted location insn warnings successors) :
    scene.Accepts v.address location insn ∧
      insn.successors scene.map = (warnings, successors) := by
  have claim : v.outcome.claim? = some location.position := by
    rw [followed]
    rfl
  obtain ⟨place, candidate, _, inspected⟩ := explained.exists_inspect claim
  obtain ⟨rfl, goesOn, _, _⟩ := Scene.inspect_eq_accepted_iff.mp (inspected.symm.trans followed)
  refine ⟨Scene.accepts_iff.mpr ⟨candidate, ?_⟩, goesOn⟩
  rw [← inspected, goesOn]
  exact followed

/-- An inspected candidate is accepted as the scene accepts it. -/
theorem inspect_of_accepts {addr : Int} {location : Location} {insn : Instruction}
    (accepted : scene.Accepts addr location insn) :
    scene.inspect addr location = .accepted location insn (insn.successors scene.map).1
      (insn.successors scene.map).2 :=
  (Scene.accepts_iff.mp accepted).2

/-- The successors of a visit are those of an instruction that the scene accepts there. -/
theorem exists_accepts_of_mem_successors {claims : Registry Cdl.Position} {v : Visit}
    (explained : Explains scene claims v) {target : Int} (follows : target ∈ v.outcome.successors) :
    ∃ location insn, scene.Accepts v.address location insn ∧
      target ∈ (insn.successors scene.map).2 := by
  cases outcome : v.outcome with
  | accepted location insn warnings successors =>
    obtain ⟨accepted, goesOn⟩ := accepts_of_explained explained outcome
    rw [outcome] at follows
    refine ⟨location, insn, accepted, ?_⟩
    rw [goesOn]
    exact follows
  | discarded => simp [outcome, Outcome.successors] at follows
  | skipped => simp [outcome, Outcome.successors] at follows
  | undecodable location error => simp [outcome, Outcome.successors] at follows
  | refused location insn reason => simp [outcome, Outcome.successors] at follows

/-! ## What is visited -/

/-- Every address that waits or was visited is reached. -/
theorem reaches_of_leads (consistent : Consistent scene starts t) (led : Leads scene t u)
    (reached : ∀ addr ∈ t.waiting.toList ++ t.visits.map Visit.address, scene.Reaches starts addr) :
    ∀ addr ∈ u.waiting.toList ++ u.visits.map Visit.address, scene.Reaches starts addr := by
  induction led with
  | refl => exact reached
  | @tail u' u'' led step ih =>
    obtain ⟨taken⟩ := step
    rename_i addr rest
    have later := (consistent.leads led).visit taken
    have here : scene.Reaches starts addr := by
      apply ih
      exact List.mem_append_left _ (taken.symm.mem_iff.mp List.mem_cons_self)
    have first := later.explained ⟨addr, scene.visit u'.claims addr⟩ List.mem_cons_self
    intro target member
    rcases List.mem_append.mp member with waits | visited
    · have pushed := (Worklist.toList_push_perm rest _).mem_iff.mp waits
      rcases List.mem_append.mp pushed with waited | follows
      · apply ih
        exact List.mem_append_left _ (taken.symm.mem_iff.mp (List.mem_cons_of_mem addr waited))
      · obtain ⟨location, insn, accepted, goesOn⟩ :=
          exists_accepts_of_mem_successors first follows
        exact here.next accepted goesOn
    · rcases List.mem_cons.mp visited with rfl | earlier
      · exact here
      · exact ih target (List.mem_append_right _ earlier)

/-- Where candidates are apart, a visited candidate was inspected. -/
theorem Consistent.inspected (consistent : Consistent scene starts t)
    (apart : scene.CandidatesApart) {v : Visit} (member : v ∈ t.visits) {location : Location}
    (candidate : scene.candidate? v.address = some location) :
    ⟨v.address, scene.inspect v.address location⟩ ∈ t.visits := by
  have claimed := (consistent.explained v member).claimed candidate
  -- The claim of the position was made by a visit, and by apartness it was one to this address.
  obtain ⟨w, visited, claim⟩ :=
    List.mem_filterMap.mp ((consistent.claimed location.position).mp claimed)
  obtain ⟨place, other, position, outcome⟩ :=
    (consistent.explained w visited).exists_inspect claim
  have same := apart _ _ _ _ other candidate position
  rw [same, candidate, Option.some_inj] at other
  have visit : w = ⟨v.address, scene.inspect v.address location⟩ := by
    rw [← same, other, ← outcome]
  rw [← visit]
  exact visited

/-- When nothing waits, every reachable address was visited. -/
theorem Consistent.mem_visited (consistent : Consistent scene starts t)
    (apart : scene.CandidatesApart) (complete : t.IsComplete) {addr : Int}
    (reached : scene.Reaches starts addr) : ∃ v ∈ t.visits, v.address = addr := by
  have conserved := consistent.conserved
  rw [show t.waiting.toList = [] from complete, List.nil_append] at conserved
  have listed : addr ∈ t.visits.map Visit.address := by
    induction reached with
    | start member => exact conserved.symm.mem_iff.mp (List.mem_append_left _ member)
    | @next addr target location insn reached accepted follows ih =>
      obtain ⟨v, member, rfl⟩ := List.mem_map.mp ih
      have candidate := (Scene.accepts_iff.mp accepted).1
      have inspected := consistent.inspected apart member candidate
      apply conserved.symm.mem_iff.mp
      apply List.mem_append_right
      refine List.mem_flatMap.mpr ⟨_, inspected, ?_⟩
      rw [inspect_of_accepts accepted]
      exact follows
  exact List.mem_map.mp listed

/-! ## The visits of two complete traversals -/

/-- The visits that claim a position. -/
def claiming (visits : List Visit) : List Visit :=
  visits.filter fun v => v.outcome.claim?.isSome

/-- The visits that claim nothing. -/
def idle (visits : List Visit) : List Visit :=
  visits.filter fun v => !v.outcome.claim?.isSome

/-- What a visit to an address finds when it claims nothing. -/
def idleVisit (scene : Scene) (addr : Int) : Visit :=
  ⟨addr, if (scene.candidate? addr).isNone then .discarded else .skipped⟩

/-- Visits either claim a position or do not. -/
theorem claiming_append_idle (visits : List Visit) : (claiming visits ++ idle visits).Perm visits :=
  List.filter_append_perm _ visits

/-- No visit that claims a position is made twice. -/
theorem Consistent.nodup_claiming (consistent : Consistent scene starts t) :
    (claiming t.visits).Nodup := by
  have claims : (claiming t.visits).map (fun v => v.outcome.claim?) =
      (t.visits.filterMap fun v => v.outcome.claim?).map some := by
    rw [List.map_filterMap_some_eq_filter_map_isSome, List.filter_map]
    rfl
  have distinct := consistent.once.map (fun _ _ => Option.some.inj)
  rw [← claims] at distinct
  exact distinct.of_map

/-- A complete traversal claims where a reachable address has a candidate. -/
theorem Consistent.mem_claiming_iff (consistent : Consistent scene starts t)
    (reached : ∀ v ∈ t.visits, scene.Reaches starts v.address) (apart : scene.CandidatesApart)
    (complete : t.IsComplete) {v : Visit} :
    v ∈ claiming t.visits ↔ scene.Reaches starts v.address ∧
      ∃ location, scene.candidate? v.address = some location ∧
        v.outcome = scene.inspect v.address location := by
  unfold claiming
  rw [List.mem_filter]
  constructor
  · rintro ⟨member, claims⟩
    obtain ⟨p, claim⟩ := Option.isSome_iff_exists.mp claims
    obtain ⟨location, candidate, _, outcome⟩ :=
      (consistent.explained v member).exists_inspect claim
    exact ⟨reached v member, location, candidate, outcome⟩
  · rintro ⟨reaches, location, candidate, outcome⟩
    obtain ⟨w, member, address⟩ := consistent.mem_visited apart complete reaches
    rw [← address] at candidate
    have inspected := consistent.inspected apart member candidate
    obtain ⟨addr, found⟩ := v
    dsimp only at outcome address
    rw [outcome, ← address]
    refine ⟨inspected, ?_⟩
    rw [Scene.claim?_inspect]
    rfl

/-- An idle visit is determined by its address. -/
theorem eq_idleVisit {claims : Registry Cdl.Position} {v : Visit}
    (explained : Explains scene claims v) (nothing : v.outcome.claim?.isSome = false) :
    v = idleVisit scene v.address := by
  unfold idleVisit
  cases explained with
  | discarded nowhere =>
    rw [nowhere]
    rfl
  | skipped candidate =>
    rw [candidate]
    rfl
  | inspected =>
    rw [Scene.claim?_inspect] at nothing
    contradiction

/-- The idle visits are those that their addresses determine. -/
theorem Consistent.idle_eq (consistent : Consistent scene starts t) :
    idle t.visits = ((idle t.visits).map Visit.address).map (idleVisit scene) := by
  have same : ∀ v ∈ idle t.visits, (idleVisit scene ∘ Visit.address) v = v := by
    intro v member
    obtain ⟨visited, nothing⟩ := List.mem_filter.mp member
    rw [Bool.not_eq_true'] at nothing
    exact (eq_idleVisit (consistent.explained v visited) nothing).symm
  rw [List.map_map, List.map_congr_left same, List.map_id']

/-- Execution goes on behind visits that claim a position only. -/
theorem Consistent.successors_perm (consistent : Consistent scene starts t) :
    (t.visits.flatMap fun v => v.outcome.successors).Perm
      ((claiming t.visits).flatMap fun v => v.outcome.successors) := by
  have parts := (claiming_append_idle t.visits).symm.flatMap_right fun v => v.outcome.successors
  have nothing : ((idle t.visits).flatMap fun v => v.outcome.successors) = [] := by
    rw [List.flatMap_eq_nil_iff]
    intro v member
    obtain ⟨visited, unclaimed⟩ := List.mem_filter.mp member
    have two := length_successors_le (consistent.explained v visited)
    rw [Bool.not_eq_true', Option.isSome_eq_false_iff, Option.isNone_iff_eq_none] at unclaimed
    rw [unclaimed] at two
    exact List.length_eq_zero_iff.mp (Nat.le_zero.mp two)
  rw [List.flatMap_append, nothing, List.append_nil] at parts
  exact parts

/-- Two complete traversals make the same visits, each as often, where candidates are apart. -/
theorem Consistent.visits_perm (first : Consistent scene starts t)
    (second : Consistent scene starts u) (apart : scene.CandidatesApart)
    (reached : ∀ v ∈ t.visits, scene.Reaches starts v.address)
    (reached' : ∀ v ∈ u.visits, scene.Reaches starts v.address)
    (complete : t.IsComplete) (complete' : u.IsComplete) : t.visits.Perm u.visits := by
  have claims : (claiming t.visits).Perm (claiming u.visits) := by
    rw [List.perm_ext_iff_of_nodup first.nodup_claiming second.nodup_claiming]
    intro v
    rw [first.mem_claiming_iff reached apart complete,
      second.mem_claiming_iff reached' apart complete']
  have successors : (t.visits.flatMap fun v => v.outcome.successors).Perm
      (u.visits.flatMap fun v => v.outcome.successors) :=
    calc (t.visits.flatMap fun v => v.outcome.successors).Perm
          ((claiming t.visits).flatMap fun v => v.outcome.successors) := first.successors_perm
      List.Perm _ ((claiming u.visits).flatMap fun v => v.outcome.successors) :=
        claims.flatMap_right _
      List.Perm _ (u.visits.flatMap fun v => v.outcome.successors) := second.successors_perm.symm
  have conserved := first.conserved
  have conserved' := second.conserved
  rw [show t.waiting.toList = [] from complete, List.nil_append] at conserved
  rw [show u.waiting.toList = [] from complete', List.nil_append] at conserved'
  have addresses : (t.visits.map Visit.address).Perm (u.visits.map Visit.address) :=
    (conserved.trans (successors.append_left starts)).trans conserved'.symm
  -- The claiming visits agree, so the addresses that are left for the idle ones agree as well.
  have idleAddresses : ((idle t.visits).map Visit.address).Perm
      ((idle u.visits).map Visit.address) := by
    have split := (claiming_append_idle t.visits).map Visit.address
    have split' := (claiming_append_idle u.visits).map Visit.address
    rw [List.map_append] at split split'
    have whole := (split.trans addresses).trans split'.symm
    have aligned := whole.trans ((claims.map Visit.address).symm.append_right _)
    exact (List.perm_append_left_iff _).mp aligned
  have idles : (idle t.visits).Perm (idle u.visits) := by
    rw [first.idle_eq, second.idle_eq]
    exact idleAddresses.map (idleVisit scene)
  calc t.visits.Perm (claiming t.visits ++ idle t.visits) := (claiming_append_idle t.visits).symm
    List.Perm _ (claiming u.visits ++ idle u.visits) := claims.append idles
    List.Perm _ u.visits := claiming_append_idle u.visits

end Traversal

end BankTrace
