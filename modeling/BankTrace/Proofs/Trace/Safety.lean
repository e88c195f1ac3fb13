import BankTrace.Proofs.Trace.CheckedVisit
import BankTrace.Proofs.Trace.Contest

/-!
# No request of a run is refused

A checked traversal visits addresses as a traversal does, but each visit is a checked one. All that
waits is an address: that is so at the start, as entries are wrapped, handlers are words and loaded
code lies in mapped banks, and each visit keeps it. So no request is refused, a checked run answers
as a run does, and so does marking what the journal refers to.
-/

namespace BankTrace

namespace Checked

/-! ## Traversals -/

/-- How far a checked traversal has come. The claims and the marks so far are in the store. -/
structure Progress where
  /-- The addresses that wait. -/
  waiting : Worklist
  /-- The log with the marks and the claims of the visits so far. -/
  store : Cdl.Store
  /-- The visits so far, the last one in front. -/
  visits : List Visit := []

/-- Visit addresses as long as any wait, and at most as many as the allowance says. -/
def advance (scene : Scene) (set : BankSet) :
    (allowance : Nat) → Progress → Except Error Progress
  | 0, p => .ok p
  | allowance + 1, p =>
    match p.waiting.pop? with
    | none => .ok p
    | some (addr, rest) => do
      let (outcome, store) ← visit scene set p.store addr
      advance scene set allowance
        { waiting := rest.push outcome.successors, store, visits := ⟨addr, outcome⟩ :: p.visits }

/-- The checked traversal that has come as far as a traversal from a log. -/
def standing (log : Cdl.Store) (t : Traversal) : Progress where
  waiting := t.waiting
  store := { log.markAll (Analyzer.codeMarks t.outcomes) with claims := t.claims }
  visits := t.visits

/-- All that waits and all that has been visited is an address. -/
structure Inside (t : Traversal) : Prop where
  /-- Addresses wait. -/
  waiting : ∀ addr ∈ t.waiting.toList, IsAddress addr
  /-- Addresses have been visited. -/
  visited : ∀ v ∈ t.visits, IsAddress v.address

/-- From an address a visit goes on to addresses. -/
theorem isAddress_of_visit {scene : Scene} {claims : Registry Cdl.Position} {addr : Int}
    (inside : IsAddress addr) :
    ∀ next ∈ (scene.visit claims addr).successors, IsAddress next := by
  intro next member
  cases believed : (scene.visit claims addr).accepted? with
  | none =>
    rw [Outcome.successors_of_accepted?_eq_none believed] at member
    contradiction
  | some insn =>
    obtain ⟨l, warnings, addrs, accepted⟩ := Outcome.accepted?_eq_some_iff.mp believed
    rcases scene.visit_cases claims addr with ⟨_, discarded⟩ | ⟨place, _, seen | fresh⟩
    · rw [discarded] at accepted
      contradiction
    · rw [seen.2] at accepted
      contradiction
    · have inspected := fresh.2.symm.trans accepted
      obtain ⟨_, goesOn, decoded, _⟩ := Scene.inspect_eq_accepted_iff.mp inspected
      have address : insn.address = addr := (Instruction.decode_eq_ok_iff.mp decoded).1
      have listed : addrs = (insn.successors scene.map).2 := by rw [goesOn]
      rw [accepted] at member
      apply isAddress_of_successors (address.symm ▸ inside) scene.map
      rw [← listed]
      exact member

/-- A visit of a waiting address keeps a traversal among addresses. -/
theorem Inside.visit {scene : Scene} {t : Traversal} (among : Inside t) {addr : Int}
    {rest : Worklist} (taken : t.waiting.pop? = some (addr, rest)) :
    Inside (t.visit scene addr rest) := by
  have order := (Worklist.toList_of_pop? taken).1
  have here : IsAddress addr := by
    apply among.waiting
    rw [order]
    exact List.mem_cons_self
  constructor
  case waiting =>
    intro next member
    have pushed := (Worklist.toList_push_perm rest
      (scene.visit t.claims addr).successors).mem_iff.mp member
    rcases List.mem_append.mp pushed with old | new
    · apply among.waiting
      rw [order]
      exact List.mem_cons_of_mem addr old
    · exact isAddress_of_visit here next new
  case visited =>
    intro v member
    rcases List.mem_cons.mp member with rfl | earlier
    · exact here
    · exact among.visited v earlier

/-- The store behind a visit is that of the traversal behind the visit. -/
theorem behind_standing (log : Cdl.Store) (scene : Scene) (t : Traversal) (addr : Int)
    (rest : Worklist) :
    behind (standing log t).store (scene.visit t.claims addr) =
      (standing log (t.visit scene addr rest)).store := by
  have outcomes : (t.visit scene addr rest).outcomes =
      t.outcomes ++ [scene.visit t.claims addr] := by
    have visits : (t.visit scene addr rest).visits =
        ⟨addr, scene.visit t.claims addr⟩ :: t.visits := rfl
    unfold Traversal.outcomes
    rw [visits, List.reverse_cons, List.map_append]
    rfl
  have marks : Analyzer.codeMarks (t.visit scene addr rest).outcomes =
      Analyzer.codeMarks t.outcomes ++ Analyzer.codeMarks [scene.visit t.claims addr] := by
    unfold Analyzer.codeMarks
    rw [outcomes, List.filterMap_append, List.map_append]
  have apart := (log.markAll (Analyzer.codeMarks t.outcomes)).markAll_with_claims t.claims
    (Analyzer.codeMarks [scene.visit t.claims addr])
  unfold behind standing
  rw [marks, Cdl.Store.markAll_append, apart]
  rfl

/-- A checked traversal goes as far as a traversal does, and stays among addresses. -/
theorem advance_eq (scene : Scene) {set : BankSet}
    (mapped : ∀ b ∈ scene.map.active, b ∈ set.banks) (made : scene.log.MadeFor set.declared)
    (allowance : Nat) {t : Traversal} (among : Inside t) :
    Inside (Traversal.advance scene .inOrder allowance t) ∧
      advance scene set allowance (standing scene.log t) =
        .ok (standing scene.log (Traversal.advance scene .inOrder allowance t)) := by
  induction allowance generalizing t with
  | zero => exact ⟨among, rfl⟩
  | succ allowance ih =>
    have waiting : (standing scene.log t).waiting = t.waiting := rfl
    rw [Traversal.advance, Schedule.take?_inOrder, advance, waiting]
    cases taken : t.waiting.pop? with
    | none => exact ⟨among, rfl⟩
    | some next =>
      obtain ⟨addr, rest⟩ := next
      have here : IsAddress addr := by
        apply among.waiting
        rw [(Worklist.toList_of_pop? taken).1]
        exact List.mem_cons_self
      have reading : (standing scene.log t).store.reading = scene.log.reading :=
        Cdl.Store.reading_markAll ..
      have kept : (standing scene.log t).store.MadeFor set.declared := made.of_reading reading
      have visited := visit_eq mapped kept here (Cdl.Store.loadedAt_congr reading)
      have claims : (standing scene.log t).store.claims = t.claims := rfl
      rw [claims, behind_standing scene.log scene t addr rest] at visited
      obtain ⟨later, gone⟩ := ih (among.visit taken)
      refine ⟨later, ?_⟩
      dsimp only
      rw [visited, ← gone]
      rfl

/-! ## Runs -/

/-- Prepare a run under a snapshot. -/
def prepare (a : Analyzer) (before : Analysis) (snapshot : Snapshot) (entries : List Int) :
    Except Error (Analysis × Start) := do
  let map ← (MemoryMap.ofSnapshot a.banks snapshot).mapError .config
  let (store, seeds) ← seed a map before.store.resetClaims entries
  let loaded ← loadedStarts a.banks map store
  return ({ before with store }, { map, seeds, loaded })

/-- Traverse what can be reached from a start under a snapshot. -/
def traverse (a : Analyzer) (prepared : Analysis) (snapshot : Snapshot) (start : Start)
    (limit : Option Int) : Except Error (Analysis × Result) := do
  let ended ← advance (a.scene start.map prepared.store start.loaded) a.banks
    ((limit.map Int.toNat).getD (Traversal.ceiling start.addresses.length))
    { waiting := Worklist.ofList a.order start.addresses, store := prepared.store }
  let result : Result :=
    { snapshot, seeds := start.seeds, loadedSeeds := start.loaded, visits := ended.visits.reverse
      limitReached := ended.waiting.size ≠ 0 }
  return (⟨ended.store, prepared.journal.record snapshot result.instructions⟩, result)

/-- Run under a snapshot. -/
def run (a : Analyzer) (before : Analysis) (snapshot : Snapshot) (entries : List Int)
    (limit : Option Int) : Except Error (Analysis × Result) := do
  let (prepared, start) ← prepare a before snapshot entries
  traverse a prepared snapshot start limit

/-- A traversal can go on from what has been prepared. -/
structure Ready (a : Analyzer) (prepared : Analysis) (start : Start) : Prop where
  /-- The mapped banks are banks of the set. -/
  mapped : ∀ b ∈ start.map.active, b ∈ a.banks.banks
  /-- The store was made for the banks. -/
  made : prepared.store.MadeFor a.banks.declared
  /-- Nothing is claimed. -/
  unclaimed : prepared.store.claims = .empty
  /-- The traversal starts from addresses. -/
  addresses : ∀ addr ∈ start.addresses, IsAddress addr

/-- The handlers, the wrapped entries and the starts in the loaded code are addresses. -/
theorem isAddress_of_start {a : Analyzer} {map : MemoryMap} {store : Cdl.Store}
    {entries loaded : List Int} (found : map.loadedStarts store = .ok loaded) :
    ∀ addr ∈ a.seeds map entries ++ loaded, IsAddress addr := by
  intro addr member
  rcases List.mem_append.mp member with seeded | swept
  · rcases List.mem_append.mp seeded with handled | entered
    · obtain ⟨⟨interrupt, handler⟩, listed, rfl⟩ := List.mem_map.mp handled
      have read := (MemoryMap.mem_handlers.mp listed).2
      exact isAddress_natCast (lt_of_readWord read)
    · obtain ⟨entry, _, rfl⟩ := List.mem_map.mp entered
      apply isAddress_wrapAddress
  · obtain ⟨l, _, _, rfl, _⟩ := (MemoryMap.mem_loadedStarts_iff found).mp swept
    exact l.isAddress

/-- Under a snapshot that the banks admit the preparation of a run is granted. -/
theorem prepare_eq {a : Analyzer} {before : Analysis} {snapshot : Snapshot} {map : MemoryMap}
    (made : before.store.MadeFor a.banks.declared)
    (valid : MemoryMap.ofSnapshot a.banks snapshot = .ok map) (entries : List Int) :
    ∃ start, (a.prepare before snapshot entries).result = .ok start ∧
      prepare a before snapshot entries =
        .ok ((a.prepare before snapshot entries).analysis, start) ∧
      Ready a (a.prepare before snapshot entries).analysis start := by
  have mapped : ∀ b ∈ map.active, b ∈ a.banks.banks :=
    fun _ => MemoryMap.mem_banks_of_mem_active valid
  have reset : before.store.resetClaims.MadeFor a.banks.declared := made.of_sizes rfl
  have seeded := seed_eq mapped reset entries
  have marks := before.store.markAll_with_claims .empty
    (Analyzer.vectorMarks map (a.handlersIn map))
  obtain ⟨events, loaded, found, prepared⟩ := a.prepare_of_valid made valid entries
  have swept : loadedStarts a.banks map
      (before.store.resetClaims.markAll (Analyzer.vectorMarks map (a.handlersIn map))) =
        .ok loaded := by
    rw [loadedStarts_eq mapped, ← found]
    exact MemoryMap.loadedStarts_congr (.of_reading (Cdl.Store.reading_markAll ..)) map
  refine ⟨⟨map, a.seeds map entries, loaded⟩, ?_, ?_, ?_⟩
  · rw [prepared]
  · rw [prepared]
    unfold prepare
    rw [valid]
    simp only [Except.mapError, bind, Except.bind, seeded, swept]
    rfl
  · rw [prepared]
    constructor
    case mapped => exact mapped
    case made => exact Analyzer.madeFor_markAll reset _
    case unclaimed => exact congrArg Cdl.Store.claims marks
    case addresses => exact isAddress_of_start found

/-- From what has been prepared a traversal is granted, and it visits only addresses. -/
theorem traverse_eq {a : Analyzer} {prepared : Analysis} {start : Start}
    (ready : Ready a prepared start) (snapshot : Snapshot) (limit : Option Int) :
    ∃ result, (a.traverse prepared snapshot start 1 limit).result = .ok result ∧
      traverse a prepared snapshot start limit =
        .ok ((a.traverse prepared snapshot start 1 limit).analysis, result) ∧
      (∀ v ∈ result.visits, IsAddress v.address) ∧
      (limit = none → result.limitReached = false) := by
  let scene := a.scene start.map prepared.store start.loaded
  let first : Traversal := { waiting := Worklist.ofList a.order start.addresses }
  let t := Traversal.run scene a.order .inOrder start.addresses limit
  have begun : standing prepared.store first =
      { waiting := first.waiting, store := prepared.store } := by
    unfold standing
    rw [show first.claims = prepared.store.claims from ready.unclaimed.symm]
    rfl
  have among : Inside first := by
    constructor
    case waiting =>
      intro addr member
      exact ready.addresses addr ((Worklist.toList_ofList_perm ..).mem_iff.mp member)
    case visited =>
      intro v member
      contradiction
  obtain ⟨inside, advanced⟩ := advance_eq scene ready.mapped ready.made
    ((limit.map Int.toNat).getD (Traversal.ceiling start.addresses.length)) among
  have marked := prepared.store.markAll_with_claims t.claims (Analyzer.codeMarks t.outcomes)
  have left : (a.traverse prepared snapshot start 1 limit).analysis =
      ⟨(standing prepared.store t).store, prepared.journal.record snapshot t.believed⟩ := by
    unfold standing
    rw [← marked, ← Analyzer.markCode_eq]
    rfl
  refine ⟨_, rfl, ?_, ?_, ?_⟩
  · rw [left]
    unfold traverse
    change (advance scene a.banks _ { waiting := first.waiting, store := prepared.store } >>= _) = _
    rw [← begun]
    change (advance scene a.banks _ (standing scene.log first) >>= _) = _
    rw [advanced]
    rfl
  · intro v member
    exact inside.visited v (List.mem_reverse.mp member)
  · rintro rfl
    exact Traversal.isUnfinished_eq_false_iff.mpr
      (Traversal.isComplete_run scene a.order .inOrder start.addresses)

/-- A run under a snapshot that the banks admit is granted, and it visits only addresses. -/
theorem run_eq {a : Analyzer} {before : Analysis} {snapshot : Snapshot} {map : MemoryMap}
    (made : before.store.MadeFor a.banks.declared)
    (valid : MemoryMap.ofSnapshot a.banks snapshot = .ok map) (entries : List Int)
    (limit : Option Int) :
    ∃ result, (a.run before snapshot entries 1 limit).result = .ok result ∧
      run a before snapshot entries limit =
        .ok ((a.run before snapshot entries 1 limit).analysis, result) ∧
      (∀ v ∈ result.visits, IsAddress v.address) ∧
      (limit = none → result.limitReached = false) := by
  have staffed : (1 : Int) ≤ 1 := Int.le_refl 1
  obtain ⟨start, begun, prepared, ready⟩ := prepare_eq made valid entries
  obtain ⟨result, answer, traversed, inside, ended⟩ := traverse_eq ready snapshot limit
  refine ⟨result, ?_, ?_, inside, ended⟩
  · rw [a.run_of_prepared staffed begun]
    exact answer
  · unfold run
    rw [a.run_of_prepared staffed begun, prepared]
    exact traversed

/-! ## References -/

/-- Mark the bytes that chapters of a journal refer to as data; the answer is their number. -/
def markReferences (set : BankSet) (store : Cdl.Store) :
    List (Snapshot × List Instruction) → Except Error (Cdl.Store × Nat)
  | [] => .ok (store, 0)
  | (snapshot, insns) :: rest => do
    let map ← (MemoryMap.ofSnapshot set snapshot).mapError .config
    let (marked, count) ← markData set map store (insns.flatMap Analyzer.references)
    let (left, others) ← markReferences set marked rest
    return (left, count + others)

/-- The banks admit the snapshot of every chapter. -/
def Admits (set : BankSet) (chapters : List (Snapshot × List Instruction)) : Prop :=
  ∀ chapter ∈ chapters, ∃ map, MemoryMap.ofSnapshot set chapter.1 = .ok map

/-- The locations that instructions refer to are those of the addresses that they refer to. -/
theorem locations_references (map : MemoryMap) (insns : List Instruction) :
    insns.flatMap (Analyzer.referencedLocations map) =
      locations map (insns.flatMap Analyzer.references) := by
  unfold locations Analyzer.referencedLocations
  rw [List.filterMap_flatMap, List.filter_flatMap]

/-- Marking what chapters of admitted snapshots refer to is granted. -/
theorem markReferences_eq {a : Analyzer} {store : Cdl.Store}
    (made : store.MadeFor a.banks.declared) {journal : Journal}
    (admitted : Admits a.banks journal.chapters) :
    markReferences a.banks store journal.chapters =
      .ok (store.markAll (dataMarks (a.journalReferences journal)),
        (a.journalReferences journal).length) := by
  obtain ⟨chapters⟩ := journal
  induction chapters generalizing store with
  | nil => rfl
  | cons chapter rest ih =>
    obtain ⟨snapshot, insns⟩ := chapter
    obtain ⟨map, valid⟩ : ∃ map, MemoryMap.ofSnapshot a.banks snapshot = .ok map :=
      admitted (snapshot, insns) List.mem_cons_self
    have mapped : ∀ b ∈ map.active, b ∈ a.banks.banks :=
      fun _ => MemoryMap.mem_banks_of_mem_active valid
    have listed : a.journalReferences ⟨(snapshot, insns) :: rest⟩ =
        locations map (insns.flatMap Analyzer.references) ++ a.journalReferences ⟨rest⟩ := by
      unfold Analyzer.journalReferences
      rw [List.flatMap_cons]
      dsimp only
      rw [valid, ← locations_references]
    have first := markData_eq mapped made (insns.flatMap Analyzer.references)
    have others := ih (Analyzer.madeFor_markAll made
      (dataMarks (locations map (insns.flatMap Analyzer.references))))
      fun chapter member => admitted chapter (List.mem_cons_of_mem _ member)
    have marks : dataMarks (a.journalReferences ⟨(snapshot, insns) :: rest⟩) =
        dataMarks (locations map (insns.flatMap Analyzer.references)) ++
          dataMarks (a.journalReferences ⟨rest⟩) := by
      unfold dataMarks
      rw [listed, List.map_append]
    rw [marks, Cdl.Store.markAll_append, listed, List.length_append]
    dsimp only at others ⊢
    rw [markReferences, valid]
    simp only [Except.mapError, bind, Except.bind, first, others]
    rfl

/-- The banks admit the snapshot of a chapter when they admit those that are recorded. -/
theorem admits_record {set : BankSet} {snapshot : Snapshot} {map : MemoryMap}
    (valid : MemoryMap.ofSnapshot set snapshot = .ok map) {journal : Journal}
    (admitted : Admits set journal.chapters) (insns : List Instruction) :
    Admits set (journal.record snapshot insns).chapters := by
  have recorded : MemoryMap.ofSnapshot set snapshot.unversioned = .ok map := valid
  unfold Journal.record
  dsimp only
  generalize snapshot.unversioned = s at recorded
  obtain ⟨chapters⟩ := journal
  dsimp only at admitted ⊢
  induction chapters with
  | nil =>
    intro chapter member
    obtain rfl := List.mem_singleton.mp member
    exact ⟨map, recorded⟩
  | cons first rest ih =>
    obtain ⟨other, known⟩ := first
    have here := admitted (other, known) List.mem_cons_self
    have behind : Admits set rest :=
      fun chapter member => admitted chapter (List.mem_cons_of_mem _ member)
    intro chapter member
    unfold Journal.extend at member
    split at member
    · rcases List.mem_cons.mp member with rfl | later
      · exact here
      · exact behind chapter later
    · rcases List.mem_cons.mp member with rfl | later
      · exact here
      · exact ih behind chapter later

end Checked

namespace Analyzer

/-- Nothing that a run asks for is refused. In a store that was made for the banks, whatever has
been read into it, under a snapshot that the banks admit, from any entries and with any limit, the
run with one worker and marking the references behind it answer as they do when each look at a
permission, a bank or the log is a request that is refused out of bounds; all visits are of
addresses; and without a limit nothing is left waiting. -/
theorem all_requests_granted (a : Analyzer) {before : Analysis} {snapshot : Snapshot}
    {map : MemoryMap} (made : before.store.MadeFor a.banks.declared)
    (valid : MemoryMap.ofSnapshot a.banks snapshot = .ok map)
    (admitted : Checked.Admits a.banks before.journal.chapters) (entries : List Int)
    (limit : Option Int) :
    let ran := a.run before snapshot entries 1 limit
    let marked := a.markReferences ran.analysis
    ∃ result count, ran.result = .ok result ∧ marked.result = .ok count ∧
      Checked.run a before snapshot entries limit = .ok (ran.analysis, result) ∧
      Checked.markReferences a.banks ran.analysis.store ran.analysis.journal.chapters =
        .ok (marked.analysis.store, count) ∧
      (∀ v ∈ result.visits, IsAddress v.address) ∧
      (limit = none → result.limitReached = false) := by
  intro ran marked
  obtain ⟨result, answer, granted, inside, ended⟩ := Checked.run_eq made valid entries limit
  obtain ⟨loaded, t, _, left, _⟩ := a.exists_ran made valid entries (Int.le_refl 1) limit
  have kept : ran.analysis.store.MadeFor a.banks.declared := by
    apply made.of_sizes
    rw [Cdl.Store.sizes, left.reading_eq]
    rfl
  have chapters : Checked.Admits a.banks ran.analysis.journal.chapters := by
    rw [left.journal_eq]
    exact Checked.admits_record valid admitted _
  have referred := Checked.markReferences_eq kept chapters
  have store : marked.analysis.store = ran.analysis.store.markAll
      (Checked.dataMarks (a.journalReferences ran.analysis.journal)) := by
    unfold Checked.dataMarks Cdl.Store.markAll
    rw [List.foldl_map]
    rfl
  rw [← store] at referred
  exact ⟨result, _, answer, rfl, granted, referred, inside, ended⟩

/-- The set with one bank meets the assumptions; one of the entries is a negative number that wraps
to the bank, and the other is far behind the address space. -/
theorem all_requests_granted_sole :
    let before : Analysis := { store := soleLog }
    let ran := sole.run before {} [-0x8000, 0x12345678] 1 none
    before.store.MadeFor sole.banks.declared ∧
      MemoryMap.ofSnapshot sole.banks {} = .ok soleMap ∧
      Checked.Admits sole.banks before.journal.chapters ∧
      ∃ result count, ran.result = .ok result ∧
        (sole.markReferences ran.analysis).result = .ok count ∧
        Checked.run sole before {} [-0x8000, 0x12345678] none = .ok (ran.analysis, result) ∧
        (∀ v ∈ result.visits, IsAddress v.address) ∧ result.limitReached = false := by
  intro before ran
  have admitted : Checked.Admits sole.banks before.journal.chapters := by
    intro chapter member
    contradiction
  obtain ⟨result, count, answer, marked, granted, _, inside, ended⟩ :=
    all_requests_granted sole madeFor_sole ofSnapshot_sole admitted
      [-0x8000, 0x12345678] none
  exact ⟨madeFor_sole, ofSnapshot_sole, admitted, result, count, answer, marked, granted, inside,
    ended rfl⟩

end Analyzer

end BankTrace
