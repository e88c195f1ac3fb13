import BankTrace.Proofs.Trace.Exactness

/-!
# When the order of visits counts

A visit claims the log byte of its address, and nobody else may claim it afterwards. Where every
mapped address has a log byte of its own, this settles nothing but repetitions, and a run leaves the
same log in whatever order it takes the waiting addresses. Where two mapped banks share a log byte,
the bank that is visited first decides what is marked there: some images and entries then lead to
different logs, already when the oldest or the newest address is taken first.
-/

namespace BankTrace

namespace Traversal

/-- Adding nothing changes nothing. -/
theorem toList_push_nil (w : Worklist) : (w.push []).toList = w.toList := by
  cases order : w.order with
  | fifo => rw [Worklist.toList_push_fifo order, List.append_nil]
  | lifo => rw [Worklist.toList_push_lifo order, List.reverse_nil, List.nil_append]

/-- A traversal in the order of the worklist first visits the first address that waits. -/
theorem exists_advance_eq (scene : Scene) {t : Traversal} {addr : Int} {others : List Int}
    (waits : t.waiting.toList = addr :: others) (allowance : Nat) :
    ∃ rest : Worklist, rest.toList = others ∧
      advance scene .inOrder (allowance + 1) t =
        advance scene .inOrder allowance (t.visit scene addr rest) := by
  rw [advance, Schedule.take?_inOrder]
  cases popped : t.waiting.pop? with
  | none =>
    have empty := Worklist.pop?_eq_none_iff.mp popped
    rw [empty] at waits
    contradiction
  | some next =>
    obtain ⟨first, rest⟩ := next
    have split := (Worklist.toList_of_pop? popped).1
    rw [split] at waits
    obtain ⟨rfl, rfl⟩ := List.cons.inj waits
    exact ⟨rest, rfl, rfl⟩

/-- From two addresses that lead nowhere a traversal visits the first one and then the other. -/
theorem visits_run_pair {scene : Scene} (order : Order) (starts : List Int) {first second : Int}
    (arranged : (Worklist.ofList order starts).toList = [first, second]) {one two : Outcome}
    (found : scene.visit .empty first = one) (ends : one.successors = [])
    (found' : ∀ claims : Registry Cdl.Position,
      (∀ p, claims.contains p = decide (one.claim? = some p)) → scene.visit claims second = two)
    (ends' : two.successors = []) :
    (run scene order .inOrder starts none).visits = [⟨second, two⟩, ⟨first, one⟩] := by
  have enough : ceiling starts.length = 2 * addressCount + starts.length - 1 + 1 + 1 := by
    unfold ceiling addressCount
    omega
  unfold run
  rw [Option.map_none, Option.getD_none, enough]
  obtain ⟨rest, listed, step⟩ := exists_advance_eq scene
    (t := { waiting := Worklist.ofList order starts }) arranged
    (2 * addressCount + starts.length - 1 + 1)
  rw [step]
  generalize begun : visit scene first rest { waiting := Worklist.ofList order starts } = t
  have visits : t.visits = [⟨first, one⟩] := by
    rw [← begun, ← found]
    rfl
  have waits : t.waiting.toList = [second] := by
    rw [← begun, ← listed, ← toList_push_nil rest, ← ends, ← found]
    rfl
  have claims : ∀ p, t.claims.contains p = decide (one.claim? = some p) := by
    intro p
    have known := contains_claims_visit scene first rest
      { waiting := Worklist.ofList order starts } p
    have unclaimed : ¬(Registry.empty : Registry Cdl.Position).contains p = true := by
      rw [Registry.contains_empty]
      exact Bool.false_ne_true
    rw [begun, found, or_iff_left unclaimed] at known
    exact Bool.eq_iff_iff.mpr (known.trans decide_eq_true_iff.symm)
  obtain ⟨behind, empty, step'⟩ := exists_advance_eq scene waits
    (2 * addressCount + starts.length - 1)
  have visited : (t.visit scene second behind).visits = [⟨second, two⟩, ⟨first, one⟩] := by
    rw [← visits, ← found' t.claims claims]
    rfl
  have complete : (t.visit scene second behind).IsComplete := by
    have nothing : (t.visit scene second behind).waiting.toList =
        (behind.push (scene.visit t.claims second).successors).toList := rfl
    rw [found' t.claims claims, ends', toList_push_nil, empty] at nothing
    exact nothing
  rw [step', advance_of_isComplete complete]
  exact visited

end Traversal

namespace Analyzer

/-- A run without limit leaves the same log when it takes the oldest address, when it takes the
newest one, and when it takes the addresses in any other order. -/
def OrderFree (a : Analyzer) (before : Analysis) (snapshot : Snapshot) (entries : List Int) :
    Prop :=
  (({ a with order := .fifo } : Analyzer).run before snapshot entries 1
        none).analysis.store.buffers =
      (({ a with order := .lifo } : Analyzer).run before snapshot entries 1
        none).analysis.store.buffers ∧
    ∀ after result, a.Completes before snapshot entries after result →
      after.store.buffers =
        (({ a with order := .fifo } : Analyzer).run before snapshot entries 1
          none).analysis.store.buffers

section

variable {a : Analyzer} {before : Analysis} {snapshot : Snapshot} {map : MemoryMap}

/-- Two runs from the same analysis that leave nothing waiting leave the same log, where addresses
have log bytes of their own. -/
theorem Ran.buffers_eq {entries loaded : List Int} {t u : Traversal} {after after' : Analysis}
    (ran : a.Ran before snapshot map entries loaded t after)
    (ran' : a.Ran before snapshot map entries loaded u after')
    (made : before.store.MadeFor a.banks.declared) (distinct : map.DistinctPositions)
    (complete : t.IsComplete) (complete' : u.IsComplete) :
    after.store.buffers = after'.store.buffers := by
  have visits := ran.visits_perm ran' distinct complete complete'
  have outcomes : t.outcomes.Perm u.outcomes :=
    (((List.reverse_perm _).trans visits).trans (List.reverse_perm _).symm).map Visit.outcome
  have marks : (vectorMarks map (a.handlersIn map) ++ codeMarks t.outcomes).Perm
      (vectorMarks map (a.handlersIn map) ++ codeMarks u.outcomes) :=
    ((outcomes.filterMap codeMark?).map _).append_left _
  have paths : after.store.paths.Nodup := (made.of_sizes ran.sizes_eq).nodup_paths
  apply Cdl.Store.buffers_eq (ran.sizes_eq.trans ran'.sizes_eq.symm) paths
  intro p present
  have had := (Cdl.Store.has_congr ran.reading_eq p).mp present
  rw [ran.byteAt_eq had, ran'.byteAt_eq had, Cdl.Mark.bitsAt_perm marks]

/-- A run from two addresses with one log byte finds something at the address that its order takes
first, and skips the other one. -/
theorem exists_ran_of_shared_position (made : before.store.MadeFor a.banks.declared)
    (valid : MemoryMap.ofSnapshot a.banks snapshot = .ok map)
    (unread : ∀ p, before.store.loadedAt p = 0) {entries : List Int}
    (seeds : a.seeds map entries = entries) (order : Order) {first second : Int}
    (arranged : (Worklist.ofList order entries).toList = [first, second]) {l m : Location}
    (candidate : (a.scene map before.store []).candidate? first = some l)
    (candidate' : (a.scene map before.store []).candidate? second = some m)
    (ends : ((a.scene map before.store []).inspect first l).successors = [])
    (shared : l.position = m.position) :
    ∃ t, a.Ran before snapshot map entries [] t
        (({ a with order } : Analyzer).run before snapshot entries 1 none).analysis ∧
      t.visits = [⟨second, .skipped⟩, ⟨first, (a.scene map before.store []).inspect first l⟩] := by
  obtain ⟨loaded, ran⟩ := a.ran_of_run made valid order a.schedule entries (Int.le_refl 1) none
  obtain rfl := MemoryMap.loadedStarts_eq_nil (fun l _ => unread l.position) ran.loaded_eq
  rw [seeds, List.append_nil] at ran
  have found := Scene.visit_of_unclaimed candidate (Registry.contains_empty _)
  have claimed : ∀ claims : Registry Cdl.Position,
      (∀ p, claims.contains p =
        decide (((a.scene map before.store []).inspect first l).claim? = some p)) →
      (a.scene map before.store []).visit claims second = .skipped := by
    intro claims known
    apply Scene.visit_of_claimed candidate'
    rw [known, Scene.claim?_inspect, shared]
    exact decide_eq_true rfl
  exact ⟨_, ran, Traversal.visits_run_pair order entries arranged found ends claimed rfl⟩

/-- Where two addresses share a log byte, one holds an instruction that leads nowhere and the other
none that is believed, it counts which of them is visited first. -/
theorem buffers_ne_of_shared_position (made : before.store.MadeFor a.banks.declared)
    (valid : MemoryMap.ofSnapshot a.banks snapshot = .ok map)
    (silent : Interrupt.enabled a.settings = []) (unread : ∀ p, before.store.loadedAt p = 0)
    (unmarked : ∀ p, before.store.byteAt p = 0) {x y : Int} {l m : Location} {insn : Instruction}
    (accepted : (a.scene map before.store []).Accepts x l insn)
    (halts : (insn.successors map).2 = [])
    (candidate' : (a.scene map before.store []).candidate? y = some m)
    (unbelieved : ((a.scene map before.store []).inspect y m).accepted? = none)
    (shared : l.position = m.position) :
    (({ a with order := .fifo } : Analyzer).run before snapshot [x, y] 1
        none).analysis.store.buffers ≠
      (({ a with order := .lifo } : Analyzer).run before snapshot [x, y] 1
        none).analysis.store.buffers := by
  obtain ⟨candidate, inspected⟩ := Scene.accepts_iff.mp accepted
  have executable' := (Scene.candidate?_eq_some_iff.mp candidate').2.2.1
  have bounds := AddressSpace.bounds_of_executable accepted.executable
  have bounds' := AddressSpace.bounds_of_executable executable'
  have seeds : a.seeds map [x, y] = [x, y] := by
    unfold seeds handlersIn
    rw [silent, List.map_cons, List.map_cons, wrapAddress_of_bounds bounds.1 bounds.2,
      wrapAddress_of_bounds bounds'.1 bounds'.2]
    rfl
  have ends : ((a.scene map before.store []).inspect x l).successors = [] := by
    rw [inspected]
    exact halts
  have ends' := Outcome.successors_of_accepted?_eq_none unbelieved
  -- Taking the oldest address first, the run believes the instruction and marks the byte.
  obtain ⟨t, ran, visits⟩ := exists_ran_of_shared_position made valid unread seeds .fifo rfl
    candidate candidate' ends shared
  have member : insn ∈ t.believed := by
    apply Traversal.mem_believed.mpr
    rw [visits]
    exact ⟨_, List.mem_cons_of_mem _ List.mem_cons_self, _, _, _, inspected⟩
  -- Taking the newest address first, it believes nothing.
  obtain ⟨u, ran', visits'⟩ := exists_ran_of_shared_position made valid unread seeds .lifo rfl
    candidate' candidate ends' shared.symm
  have nothing : ∀ other, other ∉ u.believed := by
    intro other believed
    obtain ⟨v, visited, place, warnings, successors, outcome⟩ :=
      Traversal.mem_believed.mp believed
    rw [visits'] at visited
    rcases List.mem_cons.mp visited with rfl | visited
    · contradiction
    · rw [List.mem_singleton] at visited
      subst visited
      dsimp only at outcome
      rw [outcome] at unbelieved
      contradiction
  have present : before.store.Has l.position :=
    made.has_position (MemoryMap.mem_banks_of_mem_active valid
      (MemoryMap.resolve_eq_some_iff.mp accepted.resolved).1)
  have covered : map.Covers insn.address insn.length l.position := by
    apply MemoryMap.covers_of_resolve
    rw [accepted.address_eq]
    exact accepted.resolved
  intro same
  have marked := (ran.code_iff present).mpr (.inr ⟨insn, member, covered⟩)
  rw [Cdl.Store.byteAt_congr same, ran'.code_iff present, unmarked, Cdl.hasAny_zero] at marked
  rcases marked with before | ⟨other, believed, _⟩
  · exact Bool.false_ne_true before
  · exact nothing other believed

end

section

variable {set : BankSet} {name : String} {snapshot : Snapshot} {map : MemoryMap} {l : Location}

/-- A contest for a log byte is won by the bank that is visited first. -/
theorem buffers_ne_of_contest {memory : Memory} {blank : Cdl.Store}
    (covered : Cdl.Store.forBanks memory set.declared = .ok blank)
    (valid : MemoryMap.ofSnapshot (contest set name).banks snapshot = .ok map) {m : Location}
    (member : l.bank ∈ map.active) (member' : m.bank ∈ map.active) (named : l.bank.name = name)
    (named' : m.bank.name ≠ name) (shared : l.position = m.position) :
    (({ contest set name with order := .fifo } : Analyzer).run { store := blank } snapshot
        [l.address, m.address] 1 none).analysis.store.buffers ≠
      (({ contest set name with order := .lifo } : Analyzer).run { store := blank } snapshot
        [l.address, m.address] 1 none).analysis.store.buffers := by
  have made : blank.MadeFor (contest set name).banks.declared :=
    ⟨memory, blank, (BankSet.declared_filled set _).symm ▸ covered, rfl⟩
  have unread := Cdl.Store.loadedAt_of_forBanks covered
  apply buffers_ne_of_shared_position made valid rfl unread (Cdl.Store.byteAt_of_forBanks covered)
    (accepts_of_contest unread valid member named) _ (candidate_of_contest unread valid member')
    (unbelieved_of_contest valid member' named' _) shared
  rfl

end

/-- A second bank with the log bytes of the first one. -/
def rivalBank : Bank :=
  { soleBank with
    name := "Q", start := 0xC000, name_ne := by decide, size_dvd := by decide
    end_le := by decide }

/-- The layout of both banks. -/
def rivalSet : BankSet := ⟨[⟨soleBank, none⟩, ⟨rivalBank, none⟩], rfl⟩

/-- The map of both banks when only the first one has instructions to believe. -/
def rivalMap : MemoryMap := ⟨[.filled soleBank 0x60, .filled rivalBank 0x00], by decide⟩

/-- The banks are a layout, and yet it counts for the log which of their first bytes is visited
first. -/
theorem rivals_depend_on_order : Layout.check rivalSet.declared = .ok () ∧
    ¬(contest rivalSet "P").OrderFree { store := soleLog } {} [0x8000, 0xC000] := by
  refine ⟨rivalSet.layout, ?_⟩
  intro free
  have valid : MemoryMap.ofSnapshot (contest rivalSet "P").banks {} = .ok rivalMap := rfl
  have covered : Cdl.Store.forBanks Platform.standard.memory rivalSet.declared = .ok soleLog := rfl
  have differ := buffers_ne_of_contest covered valid
    (l := soleStart) (m := ⟨.filled rivalBank 0x00, ⟨0, by decide⟩⟩) List.mem_cons_self
    (List.mem_cons_of_mem _ List.mem_cons_self) rfl (by decide) rfl
  exact differ free.1

/-- Runs of whatever analyses of declared banks under a snapshot leave logs that do not depend on
the order of their visits, exactly when no two of the mapped banks have a log byte in common. -/
theorem orderFree_iff_slicesApart (set : BankSet) (snapshot : Snapshot) (map : MemoryMap)
    (valid : MemoryMap.ofSnapshot set snapshot = .ok map) (memory : Memory) (blank : Cdl.Store)
    (covered : Cdl.Store.forBanks memory set.declared = .ok blank) :
    (∀ a : Analyzer, a.banks.declared = set.declared → ∀ before : Analysis,
      before.store.MadeFor set.declared → ∀ entries, a.OrderFree before snapshot entries) ↔
      map.SlicesApart := by
  constructor
  · intro free
    by_contra shared
    obtain ⟨b, c, member, member', apart, files, i, inside, j, inside', offsets⟩ :=
      MemoryMap.exists_shared_byte shared
    obtain ⟨map', valid', banks⟩ := MemoryMap.ofSnapshot_congr
      (BankSet.declared_filled set fun d => if d.name = b.name then 0x60 else 0x00).symm valid
    rw [← banks] at member member'
    obtain ⟨first, mapped, rfl⟩ := List.mem_map.mp member
    obtain ⟨second, mapped', rfl⟩ := List.mem_map.mp member'
    have names : second.name ≠ first.name := by
      intro same
      have alike := BankSet.toBank_eq_of_name_eq
        (MemoryMap.mem_banks_of_mem_active valid' mapped')
        (MemoryMap.mem_banks_of_mem_active valid' mapped) same
      rw [alike, Bank.overlaps_self] at apart
      contradiction
    have differ := buffers_ne_of_contest covered valid' (l := ⟨first, ⟨i, inside⟩⟩)
      (m := ⟨second, ⟨j, inside'⟩⟩) mapped mapped' rfl names (by
        simp only [Location.position, Cdl.Position.mk.injEq]
        exact ⟨files, by omega⟩)
    exact differ (free (contest set first.name) (BankSet.declared_filled set _) { store := blank }
      ⟨memory, blank, covered, rfl⟩ _).1
  · intro apart a declared before made entries
    obtain ⟨map', valid', banks⟩ := MemoryMap.ofSnapshot_congr declared.symm valid
    have apart' : map'.SlicesApart := by
      unfold MemoryMap.SlicesApart
      rw [banks]
      exact apart
    have distinct := apart'.distinctPositions
    have made' : before.store.MadeFor a.banks.declared := by
      rw [declared]
      exact made
    have agree : ∀ after result after' result', a.Completes before snapshot entries after result →
        a.Completes before snapshot entries after' result' →
          after.store.buffers = after'.store.buffers := by
      intro after result after' result' completes completes'
      obtain ⟨loaded, t, ran, complete, _⟩ := completes.ran made' valid'
      obtain ⟨loaded', u, ran', complete', _⟩ := completes'.ran made' valid'
      obtain rfl := Except.ok.inj (ran.loaded_eq.symm.trans ran'.loaded_eq)
      exact ran.buffers_eq ran' made' distinct complete complete'
    obtain ⟨result, _, oldest⟩ :=
      a.completes_of_run made' valid' .fifo entries (Int.le_refl 1)
    obtain ⟨result', _, newest⟩ :=
      a.completes_of_run made' valid' .lifo entries (Int.le_refl 1)
    refine ⟨agree _ _ _ _ oldest newest, ?_⟩
    intro after other completes
    exact agree _ _ _ _ completes oldest

/-- Two banks with the same log bytes do not leave all runs the same log. -/
theorem rivals_not_orderFree : ¬∀ a : Analyzer, a.banks.declared = rivalSet.declared →
    ∀ before : Analysis, before.store.MadeFor rivalSet.declared →
      ∀ entries, a.OrderFree before {} entries := by
  have valid : MemoryMap.ofSnapshot rivalSet {} =
      .ok ⟨[⟨soleBank, none⟩, ⟨rivalBank, none⟩], by decide⟩ := rfl
  rw [orderFree_iff_slicesApart rivalSet {} _ valid Platform.standard.memory soleLog rfl]
  decide

end Analyzer

end BankTrace
