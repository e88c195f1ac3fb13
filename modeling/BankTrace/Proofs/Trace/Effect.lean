import BankTrace.Proofs.Cdl.Dirty
import BankTrace.Proofs.Trace.Contest
import BankTrace.Proofs.Trace.Journal
import BankTrace.Proofs.Trace.Run

/-!
# The effect of a run

What a run answers and what it does is fixed by what was last read from the log. The marks, claims
and instructions that are there already have no say in it: they are only added to. So two analyses
whose logs were read alike answer a run alike, and a run that is repeated at once changes nothing.
-/

namespace BankTrace

namespace Cdl.Store

/-- A store has the files of another one, with the bits of a mask added to their bytes. -/
def Adds (mask : Position → UInt8) (before after : Store) : Prop :=
  after.reading = before.reading ∧ ∀ p, before.Has p → after.byteAt p = before.byteAt p ||| mask p

/-- A range is checked alike in all stores that were read alike: either it is refused for the same
reason, or the marks can be made. -/
theorem markRange_cases (log : Store) (path : Path) (offset : Int) (mask : Mask) :
    (∃ e, ∀ s, log.ReadAlike s → s.markRange path offset 1 mask = .error e) ∨
      ∀ s, log.ReadAlike s →
        s.markRange path offset 1 mask = .ok (s.mark ⟨path, offset⟩ 1 mask) := by
  cases found : log.file? path with
  | none =>
    left
    refine ⟨.read (.unknownFile path.toString), ?_⟩
    intro s alike
    rcases alike.files path with ⟨_, absent⟩ | ⟨f, _, present, _⟩
    · unfold markRange checkRange file
      simp only [absent, bind, Except.bind]
    · rw [found] at present
      contradiction
  | some f =>
    have sized : ∀ s, log.ReadAlike s → ∃ g, s.file? path = some g ∧ g.size = f.size := by
      intro s alike
      rcases alike.files path with ⟨absent, _⟩ | ⟨f', g, present, known, sizes, _⟩
      · rw [found] at absent
        contradiction
      · rw [found, Option.some_inj] at present
        exact ⟨g, known, by rw [present, sizes]⟩
    by_cases outside : offset < 0 ∨ offset + 1 > f.size
    · left
      refine ⟨.read (.outsideFile offset 1 path.toString f.size), ?_⟩
      intro s alike
      obtain ⟨g, known, sizes⟩ := sized s alike
      unfold markRange checkRange file
      simp only [known, sizes, outside, bind, Except.bind, if_true]
      rfl
    · right
      intro s alike
      obtain ⟨g, known, sizes⟩ := sized s alike
      unfold markRange checkRange file
      simp only [known, sizes, outside, bind, Except.bind, if_false]
      rfl

end Cdl.Store

/-- Instructions that have just been recorded are not recorded again. -/
theorem Journal.record_record (j : Journal) (snapshot : Snapshot) (insns : List Instruction) :
    (j.record snapshot insns).record snapshot insns = j.record snapshot insns := by
  have nothing : ∀ known : List Instruction, (∀ insn ∈ insns, ∃ other ∈ known,
      other.address = insn.address) → unseen known insns = [] := by
    intro known seen
    apply List.eq_nil_iff_forall_not_mem.mpr
    intro insn member
    obtain ⟨new, apart⟩ := mem_unseen.mp member
    obtain ⟨other, here, address⟩ := seen insn new
    exact apart other here address
  have twice : ∀ chapters, extend snapshot.unversioned insns
      (extend snapshot.unversioned insns chapters) =
        extend snapshot.unversioned insns chapters := by
    intro chapters
    induction chapters with
    | nil =>
      rw [extend, extend, if_pos rfl, nothing insns fun insn member => ⟨insn, member, rfl⟩,
        List.append_nil]
    | cons chapter rest ih =>
      obtain ⟨s, known⟩ := chapter
      rw [extend]
      by_cases here : s = snapshot.unversioned
      · have covered : ∀ insn ∈ insns, ∃ other ∈ known ++ unseen known insns,
            other.address = insn.address := by
          intro insn member
          by_cases seen : ∃ other ∈ known, other.address = insn.address
          · obtain ⟨other, old, address⟩ := seen
            exact ⟨other, List.mem_append_left _ old, address⟩
          · have new : insn ∈ unseen known insns :=
              mem_unseen.mpr ⟨member, fun other old same => seen ⟨other, old, same⟩⟩
            exact ⟨insn, List.mem_append_right _ new, rfl⟩
        rw [if_pos here, extend, if_pos here, nothing _ covered, List.append_nil]
      · rw [if_neg here, extend, if_neg here, ih]
  unfold record
  rw [twice]

namespace Analyzer

/-- What a request does to an analysis, and what it answers. -/
structure Effect (α : Type) where
  /-- The marks that are added to the log. -/
  marks : List Cdl.Mark
  /-- The claims that are left. -/
  claims : Registry Cdl.Position
  /-- What becomes of the journal. -/
  record : Journal → Journal
  /-- What happens. -/
  events : List Event
  /-- The answer, or why there is none. -/
  result : Except Error α
  /-- A journal that has the record keeps it. -/
  settled : ∀ j, record (record j) = record j

/-- The answer of an analysis to a request with an effect. -/
def Effect.on {α : Type} (e : Effect α) (x : Analysis) : Answer α :=
  ⟨⟨{ x.store.markAll e.marks with claims := e.claims }, e.record x.journal⟩, e.events, e.result⟩

/-- An effect adds the bits of its marks to the log. -/
theorem Effect.adds {α : Type} (e : Effect α) (x : Analysis) :
    x.store.Adds (Cdl.Mark.bitsAt e.marks) (e.on x).analysis.store :=
  ⟨Cdl.Store.reading_markAll x.store e.marks,
    fun _ present => Cdl.Store.byteAt_markAll present e.marks⟩

/-- An effect on an analysis that has had it changes nothing. -/
theorem Effect.on_on {α : Type} (e : Effect α) (x : Analysis) :
    (e.on (e.on x).analysis).analysis = (e.on x).analysis := by
  unfold Effect.on
  dsimp only
  rw [Cdl.Store.markAll_with_claims, Cdl.Store.markAll_markAll, e.settled]

section

variable (a : Analyzer) (log : Cdl.Store)

/-- Locations are marked alike in all stores that were read alike. -/
theorem exists_markEach (mask : Cdl.Mask) (locations : List Location) :
    ∃ marks result, ∀ store, log.ReadAlike store →
      markEach store mask locations = (store.markAll marks, result) := by
  induction locations with
  | nil => exact ⟨[], .ok (), fun _ _ => rfl⟩
  | cons l rest ih =>
    obtain ⟨marks, result, others⟩ := ih
    rcases log.markRange_cases l.position.file l.position.offset mask with ⟨e, refused⟩ | marked
    · refine ⟨[], .error e, ?_⟩
      intro store alike
      rw [markEach, refused store alike]
      rfl
    · refine ⟨⟨l.position, 1, mask⟩ :: marks, result, ?_⟩
      intro store alike
      have behind : log.ReadAlike (store.mark l.position 1 mask) :=
        alike.trans (.of_reading (Cdl.Store.reading_mark ..).symm)
      rw [markEach, marked store alike]
      exact others _ behind

/-- The vectors of handlers are marked alike in all stores that were read alike. -/
theorem exists_markHandlers (map : MemoryMap) (handlers : List (Interrupt × Nat)) :
    ∃ marks events result, ∀ store, log.ReadAlike store →
      a.markHandlers map store handlers = (store.markAll marks, events, result) := by
  induction handlers with
  | nil => exact ⟨[], [], .ok (), fun _ _ => rfl⟩
  | cons pair rest ih =>
    obtain ⟨interrupt, handler⟩ := pair
    obtain ⟨marks, events, result, others⟩ := ih
    obtain ⟨first, answer, marked⟩ :=
      exists_markEach log Cdl.data (map.vectorLocations interrupt)
    cases answer with
    | error e =>
      refine ⟨first, [], .error e, ?_⟩
      intro store alike
      rw [markHandlers, marked store alike]
    | ok _ =>
      refine ⟨first ++ marks,
        (if (a.space.permissionAt handler).executable then []
          else [.handlerNotExecutable interrupt handler]) ++ events, result, ?_⟩
      intro store alike
      have behind : log.ReadAlike (store.markAll first) :=
        alike.trans (.of_reading (Cdl.Store.reading_markAll ..).symm)
      rw [markHandlers, marked store alike]
      dsimp only
      rw [others _ behind, Cdl.Store.markAll_append]

/-- The seeds of a run are found alike in all stores that were read alike. -/
theorem exists_seedIn (map : MemoryMap) (entries : List Int) :
    ∃ marks events result, ∀ store, log.ReadAlike store →
      a.seedIn map store entries = (store.markAll marks, events, result) := by
  obtain ⟨marks, events, result, marked⟩ := a.exists_markHandlers log map (a.handlersIn map)
  refine ⟨marks, (map.handlers (Interrupt.enabled a.settings)).1 ++ events,
    result.map fun _ => a.seeds map entries, ?_⟩
  intro store alike
  have done := marked store alike
  unfold handlersIn at done
  unfold seedIn
  dsimp only
  rw [done]
  rfl

/-- A run is prepared alike in all analyses whose logs were read alike. -/
theorem exists_prepare (snapshot : Snapshot) (entries : List Int) :
    ∃ marks events result, ∀ x : Analysis, log.ReadAlike x.store →
      a.prepare x snapshot entries =
        ⟨{ x with store := x.store.resetClaims.markAll marks }, events, result⟩ := by
  unfold prepare
  cases MemoryMap.ofSnapshot a.banks snapshot with
  | error e => exact ⟨[], [], .error e, fun _ _ => rfl⟩
  | ok map =>
    obtain ⟨marks, events, seeds, seeded⟩ := a.exists_seedIn log map entries
    refine ⟨marks, events, (do
      let seeds ← seeds
      let loaded ← map.loadedStarts log
      return { map, seeds, loaded }), ?_⟩
    intro x alike
    have reset : log.ReadAlike x.store.resetClaims := alike.trans (.of_reading rfl)
    have behind : log.ReadAlike (x.store.resetClaims.markAll marks) :=
      reset.trans (.of_reading (Cdl.Store.reading_markAll ..).symm)
    dsimp only
    rw [seeded _ reset]
    dsimp only
    rw [← MemoryMap.loadedStarts_congr behind]

/-- A run has one effect on all analyses whose logs were read alike. -/
theorem exists_effect (snapshot : Snapshot) (entries : List Int) (limit : Option Int) :
    ∃ e : Effect Result, ∀ x : Analysis, log.ReadAlike x.store →
      a.run x snapshot entries 1 limit = e.on x := by
  obtain ⟨marks, events, result, prepared⟩ := a.exists_prepare log snapshot entries
  have begun : ∀ x : Analysis, log.ReadAlike x.store → a.run x snapshot entries 1 limit =
      (⟨{ x with store := x.store.resetClaims.markAll marks }, events, result⟩ :
        Answer Start).bind fun analysis start => a.traverse analysis snapshot start 1 limit := by
    intro x alike
    rw [← prepared x alike]
    exact a.run_of_staffed x (Int.le_refl 1) ..
  cases result with
  | error e =>
    refine ⟨⟨marks, .empty, id, events, .error e, fun _ => rfl⟩, ?_⟩
    intro x alike
    have cleared := x.store.markAll_with_claims .empty marks
    rw [begun x alike, Answer.bind_of_error _ rfl]
    unfold Effect.on
    rw [← cleared]
    rfl
  | ok start =>
    let t := Traversal.run (a.scene start.map log start.loaded) a.order (a.schedule.ofWorkers 1)
      start.addresses limit
    let answer := conclude { store := log } snapshot start 1 limit t
    refine ⟨⟨marks ++ codeMarks t.outcomes, t.claims,
      fun j => j.record snapshot (t.outcomes.filterMap Outcome.accepted?),
      events ++ answer.events, answer.result, fun j => j.record_record snapshot _⟩, ?_⟩
    intro x alike
    have reset : log.ReadAlike x.store.resetClaims := alike.trans (.of_reading rfl)
    have behind : log.ReadAlike (x.store.resetClaims.markAll marks) :=
      reset.trans (.of_reading (Cdl.Store.reading_markAll ..).symm)
    have same : Traversal.run
        (a.scene start.map (x.store.resetClaims.markAll marks) start.loaded) a.order
        (a.schedule.ofWorkers 1) start.addresses limit = t :=
      Traversal.run_with_log (a.scene start.map log start.loaded) behind.symm.loaded ..
    have cleared := x.store.markAll_with_claims .empty marks
    rw [begun x alike, Answer.bind_of_ok _ rfl]
    unfold traverse
    dsimp only
    rw [same]
    have concluded := Cdl.Store.markAll_with_claims (x.store.markAll marks) t.claims
      (codeMarks t.outcomes)
    unfold Effect.on conclude Cdl.Store.resetClaims
    rw [cleared]
    dsimp only
    rw [markCode_eq, Cdl.Store.markAll_append]
    exact congrArg (fun store => (⟨⟨store, _⟩, _, _⟩ : Answer Result)) concluded

end

/-- Two analyses whose logs were read alike answer a run alike, whatever has been marked, claimed
and recorded in them: they give the same result and report the same, the run leaves the same claims
and adds the same bits to both logs. Repeated at once it changes nothing. -/
theorem run_alike (a : Analyzer) (x y : Analysis) (alike : x.store.ReadAlike y.store)
    (snapshot : Snapshot) (entries : List Int) (limit : Option Int) :
    (a.run x snapshot entries 1 limit).result = (a.run y snapshot entries 1 limit).result ∧
      (a.run x snapshot entries 1 limit).events = (a.run y snapshot entries 1 limit).events ∧
      (a.run x snapshot entries 1 limit).analysis.store.claims =
        (a.run y snapshot entries 1 limit).analysis.store.claims ∧
      (∃ mask : Cdl.Position → UInt8,
        x.store.Adds mask (a.run x snapshot entries 1 limit).analysis.store ∧
          y.store.Adds mask (a.run y snapshot entries 1 limit).analysis.store) ∧
      (a.run (a.run x snapshot entries 1 limit).analysis snapshot entries 1 limit).analysis =
        (a.run x snapshot entries 1 limit).analysis := by
  obtain ⟨e, effect⟩ := a.exists_effect x.store snapshot entries limit
  have first := effect x (.of_reading rfl)
  have second := effect y alike
  have again : x.store.ReadAlike (e.on x).analysis.store := .of_reading (e.adds x).1.symm
  rw [first, second, effect _ again]
  exact ⟨rfl, rfl, rfl, ⟨_, e.adds x, e.adds y⟩, e.on_on x⟩

/-- A mark on the first byte of a bank has no say in the result of a run from there. -/
theorem run_alike_sole :
    soleLog.byteAt ⟨soleBank.cdl, 0⟩ ≠
        (soleLog.mark ⟨soleBank.cdl, 0⟩ 1 Cdl.code).byteAt ⟨soleBank.cdl, 0⟩ ∧
      (sole.run { store := soleLog } {} [0x8000] 1 none).result =
        (sole.run { store := soleLog.mark ⟨soleBank.cdl, 0⟩ 1 Cdl.code } {} [0x8000] 1
          none).result := by
  have alike : soleLog.ReadAlike (soleLog.mark ⟨soleBank.cdl, 0⟩ 1 Cdl.code) :=
    .of_reading (Cdl.Store.reading_mark ..).symm
  refine ⟨by decide, ?_⟩
  exact (run_alike sole { store := soleLog }
    { store := soleLog.mark ⟨soleBank.cdl, 0⟩ 1 Cdl.code } alike {} [0x8000] none).1

end Analyzer

end BankTrace
