import BankTrace.Proofs.Trace.Recovery

/-!
# Runs on their own logs

A run on the log of an earlier run, over the same banks and from the same entries, finds everything
again that the earlier run found. It can find more: where encodings overlap, the log does not tell
where instructions start, and the sweep comes to operand bytes, which are then trusted as starts. As
long as all recovered starts are those of instructions of the earlier run, nothing new is reached
from them, and the log stays as it is.
-/

namespace BankTrace

/-- A byte of code is not known to be data. -/
theorem Scene.isKnownData_of_code {byte : UInt8} (coded : Cdl.hasAny Cdl.code byte = true) :
    isKnownData byte = false := by
  unfold isKnownData
  rw [coded, Bool.not_true, Bool.and_false]

namespace Analyzer

/-- A run on a log changes no byte of it, so that nothing is written behind the run. -/
structure Stable (a : Analyzer) (snapshot : Snapshot) (entries : List Int) (disk : FileSystem)
    (log : Cdl.Store) : Prop where
  /-- The buffers are those in front of the run. -/
  buffers : (a.run { store := log } snapshot entries 1 none).analysis.store.buffers = log.buffers
  /-- No log file is written. -/
  flushed : (a.run { store := log } snapshot entries 1 none).analysis.store.flush disk =
    ((a.run { store := log } snapshot entries 1 none).analysis.store, disk, [], .ok [])

section

variable {a : Analyzer} {snapshot : Snapshot} {map : MemoryMap} {entries loaded starts : List Int}
  {fs written : FileSystem} {before again : Cdl.Store} {t u : Traversal}
  (cycle : a.Cycle snapshot entries fs written before again)
  (valid : MemoryMap.ofSnapshot a.banks snapshot = .ok map) (distinct : map.DistinctPositions)
  (places : (before.paths.map fs.placeOf).Nodup)
  (empty : ∀ p, before.Has p → fs.byteAt p = 0)
  (ran : a.Ran { store := before } snapshot map entries loaded t
    (a.run { store := before } snapshot entries 1 none).analysis)
  (complete : t.IsComplete)
  (rerun : a.Ran { store := again } snapshot map entries starts u
    (a.run { store := again } snapshot entries 1 none).analysis)
  (recomplete : u.IsComplete)

/-! ## What is read again -/

section

include cycle empty

/-- Nothing was read in front of the first run. -/
theorem Cycle.unread {p : Cdl.Position} (present : before.Has p) : before.loadedAt p = 0 := by
  obtain ⟨_, blank, _, read⟩ := cycle.first
  rcases read.loadedAt_cases present with nothing | found
  · exact nothing
  · exact found.trans (empty p present)

include valid ran in
/-- No start was recovered in front of the first run. -/
theorem Cycle.loaded_eq_nil : loaded = [] := by
  refine MemoryMap.loadedStarts_eq_nil ?_ ran.loaded_eq
  intro l member
  exact cycle.unread empty
    (cycle.madeFor.has_position (MemoryMap.mem_banks_of_mem_active valid member))

include places ran

/-- The bytes that are read again are those that the first run left. -/
theorem Cycle.byteAt_again {p : Cdl.Position} (present : before.Has p) :
    again.byteAt p = again.loadedAt p ∧ again.loadedAt p =
      (a.run { store := before } snapshot entries 1 none).analysis.store.byteAt p := by
  obtain ⟨_, _, _, reread⟩ := cycle.second
  refine ⟨(reread.byteAt_eq p).1, ?_⟩
  rcases cycle.loadedAt_cases places ran present with same | ⟨left, right⟩
  · exact same
  · rw [empty p present, or_self] at left right
    rw [left, right]

/-- The log that is read again has the buffers that the first run left. -/
theorem Cycle.buffers_again : again.buffers =
    (a.run { store := before } snapshot entries 1 none).analysis.store.buffers := by
  apply Cdl.Store.buffers_eq (cycle.sizes_eq.trans ran.sizes_eq.symm)
    cycle.madeFor_again.nodup_paths
  intro p present
  obtain ⟨loads, left⟩ := cycle.byteAt_again places empty ran (cycle.has_iff.mp present)
  exact loads.trans left

include valid

/-- The bytes of the instructions of the first run are code when they are read again. -/
theorem Cycle.code_again {insn : Instruction} (believed : insn ∈ t.believed) {p : Cdl.Position}
    (covered : map.Covers insn.address insn.length p) :
    Cdl.hasAny Cdl.code (again.loadedAt p) = true := by
  obtain ⟨i, small, l, found, rfl⟩ := id covered
  have present := cycle.madeFor.has_position
    (MemoryMap.mem_banks_of_mem_active valid (MemoryMap.resolve_eq_some_iff.mp found).1)
  rw [(cycle.byteAt_again places empty ran present).2]
  exact (ran.code_iff present).mpr (.inr ⟨insn, believed, covered⟩)

end

/-! ## What is found again -/

section

include cycle valid places empty ran

/-- What the first run believed is accepted again. -/
theorem Cycle.accepts_again {insn : Instruction} (believed : insn ∈ t.believed) :
    ∃ l, (a.scene map again starts).Accepts insn.address l insn := by
  obtain ⟨l, accepted⟩ := ran.consistent.exists_accepts believed
  have code := cycle.code_again valid places empty ran believed
    (MemoryMap.covers_of_resolve accepted.resolved)
  obtain rfl := cycle.loaded_eq_nil valid empty ran
  refine ⟨l, accepted.resolved, accepted.analyzable, accepted.executable,
    Scene.isKnownData_of_code code, accepted.decoded, ?_⟩
  rcases accepted.believed with trusted | unopposed
  · unfold scene at trusted
    rw [Registry.contains_ofList] at trusted
    contradiction
  · exact .inr unopposed

include distinct complete

/-- What the first run reached is reached again. -/
theorem Cycle.reaches_again {addr : Int}
    (reached : (a.scene map before loaded).Reaches (a.seeds map entries ++ loaded) addr) :
    (a.scene map again starts).Reaches (a.seeds map entries ++ starts) addr := by
  induction reached with
  | start member =>
    rw [cycle.loaded_eq_nil valid empty ran, List.append_nil] at member
    exact .start (List.mem_append_left _ member)
  | @next addr target l insn reached accepted follows ih =>
    have address := accepted.address_eq
    subst address
    have believed := (ran.mem_believed_iff distinct complete).mpr ⟨reached, l, accepted⟩
    obtain ⟨m, accepted'⟩ := cycle.accepts_again valid places empty ran believed
    exact ih.next accepted' follows

include rerun recomplete

/-- What the first run believed is believed again. -/
theorem Cycle.believed_again {insn : Instruction} (believed : insn ∈ t.believed) :
    insn ∈ u.believed := by
  have reached := ((ran.mem_believed_iff distinct complete).mp believed).1
  rw [rerun.mem_believed_iff distinct recomplete]
  exact ⟨cycle.reaches_again valid distinct places empty ran complete reached,
    cycle.accepts_again valid places empty ran believed⟩

end

/-! ## What is found in addition -/

section

variable (known : ∀ addr ∈ starts, ∃ insn ∈ t.believed, insn.address = addr)

include cycle valid empty ran known

/-- Where all recovered starts are those of instructions of the first run, nothing else is accepted
than then. -/
theorem Cycle.accepts_of_again {addr : Int} {l : Location} {insn : Instruction}
    (accepted : (a.scene map again starts).Accepts addr l insn) :
    (a.scene map before loaded).Accepts addr l insn := by
  have mapped := (MemoryMap.resolve_eq_some_iff.mp accepted.resolved).1
  have unread := cycle.unread empty
    (cycle.madeFor.has_position (MemoryMap.mem_banks_of_mem_active valid mapped))
  have notData : Scene.isKnownData (before.loadedAt l.position) = false := by
    rw [unread]
    decide
  refine ⟨accepted.resolved, accepted.analyzable, accepted.executable, notData,
    accepted.decoded, ?_⟩
  rcases accepted.believed with trusted | unopposed
  · unfold scene at trusted
    rw [Registry.contains_ofList, decide_eq_true_eq] at trusted
    obtain ⟨other, believed, rfl⟩ := known addr trusted
    obtain ⟨m, accepted'⟩ := ran.consistent.exists_accepts believed
    obtain rfl : m = l := Option.some.inj (accepted'.resolved.symm.trans accepted.resolved)
    obtain rfl : other = insn := Except.ok.inj (accepted'.decoded.symm.trans accepted.decoded)
    exact accepted'.believed
  · exact .inr unopposed

/-- Where all recovered starts are those of instructions of the first run, nothing else is reached
than then. -/
theorem Cycle.reaches_of_again {addr : Int}
    (reached : (a.scene map again starts).Reaches (a.seeds map entries ++ starts) addr) :
    (a.scene map before loaded).Reaches (a.seeds map entries ++ loaded) addr := by
  induction reached with
  | start member =>
    rcases List.mem_append.mp member with seed | recovered
    · exact .start (List.mem_append_left _ seed)
    · obtain ⟨insn, believed, rfl⟩ := known _ recovered
      obtain ⟨v, visited, l, _, _, outcome⟩ := Traversal.mem_believed.mp believed
      rw [← (ran.consistent.accepts visited outcome).1]
      exact ran.reached v visited
  | next _ accepted follows ih =>
    exact ih.next (cycle.accepts_of_again valid empty ran known accepted) follows

include distinct complete rerun recomplete

/-- Where all recovered starts are those of instructions of the first run, nothing else is believed
than then. -/
theorem Cycle.believed_of_again {insn : Instruction} (believed : insn ∈ u.believed) :
    insn ∈ t.believed := by
  obtain ⟨reached, l, accepted⟩ := (rerun.mem_believed_iff distinct recomplete).mp believed
  rw [ran.mem_believed_iff distinct complete]
  exact ⟨cycle.reaches_of_again valid empty ran known reached, l,
    cycle.accepts_of_again valid empty ran known accepted⟩

end

/-! ## When the log is stable -/

section

include cycle empty places ran rerun

/-- The log is stable when all instructions of the second run consist of code. -/
theorem Cycle.stable_of_code (coded : ∀ insn ∈ u.believed, ∀ p,
    map.Covers insn.address insn.length p → Cdl.hasAny Cdl.code (again.byteAt p) = true) :
    a.Stable snapshot entries written again := by
  have nothing : again.markAll (vectorMarks map (a.handlersIn map) ++ codeMarks u.outcomes) =
      again := by
    apply Cdl.Store.markAll_eq_self
    intro q present
    have had := cycle.has_iff.mp present
    obtain ⟨loads, left⟩ := cycle.byteAt_again places empty ran had
    apply Cdl.Mark.or_bitsAt_eq_self
    intro m member reached
    rcases List.mem_append.mp member with vector | instruction
    · -- The first run has marked the same vectors.
      obtain ⟨_, _, _, l, _, rfl⟩ := mem_vectorMarks.mp vector
      have self : Cdl.hasAny Cdl.data Cdl.data = true := by decide
      have marked : Cdl.hasAny Cdl.data (again.byteAt q) = true := by
        rw [loads, left, ran.byteAt_eq had, Cdl.hasAny_or, Bool.or_eq_true]
        exact .inr (Cdl.Mark.hasAny_bitsAt.mpr ⟨_, List.mem_append_left _ vector, reached, self⟩)
      exact Cdl.or_eq_self_of_hasAny (i := 1) rfl marked
    · obtain ⟨insn, believed, l, accepted, rfl⟩ := (mem_codeMarks rerun.consistent).mp instruction
      have covers := MemoryMap.covers_iff accepted.resolved accepted.fits present.offset_nonneg
        Cdl.code
      exact Cdl.or_eq_self_of_hasAny (i := 0) rfl (coded insn believed q (covers.mpr reached))
  obtain ⟨_, _, _, reread⟩ := cycle.second
  have store : (a.run { store := again } snapshot entries 1 none).analysis.store =
      { again with claims := u.claims } := by
    rw [rerun.store_eq, nothing]
  constructor
  case buffers =>
    rw [store]
    rfl
  case flushed =>
    rw [store]
    exact Cdl.Store.flush_of_clean (s := { again with claims := u.claims }) reread.isDirty_eq
      written

end

end

/-- When the log paths lead to different places and nothing is on disk at first, a run on what an
earlier run has written finds everything again. The log is stable under it exactly when all
instructions that it finds consist of code already; that is so as long as all recovered starts are
those of instructions of the earlier run, and in particular when the encodings of the earlier run do
not overlap. -/
theorem rerun_stable_iff (a : Analyzer) (snapshot : Snapshot) (map : MemoryMap)
    (valid : MemoryMap.ofSnapshot a.banks snapshot = .ok map) (distinct : map.DistinctPositions)
    (entries : List Int) (fs written : FileSystem) (before again : Cdl.Store)
    (cycle : a.Cycle snapshot entries fs written before again)
    (places : (before.paths.map fs.placeOf).Nodup)
    (empty : ∀ p, before.Has p → fs.byteAt p = 0) :
    ∃ result starts result',
      (a.run { store := before } snapshot entries 1 none).result = .ok result ∧
      a.loadedStarts again snapshot = .ok starts ∧
      (a.run { store := again } snapshot entries 1 none).result = .ok result' ∧
      again.buffers =
        (a.run { store := before } snapshot entries 1 none).analysis.store.buffers ∧
      (∀ insn ∈ result.instructions, insn ∈ result'.instructions) ∧
      (a.Stable snapshot entries written again ↔ ∀ insn ∈ result'.instructions, ∀ p,
        map.Covers insn.address insn.length p → Cdl.hasAny Cdl.code (again.byteAt p) = true) ∧
      ((∀ addr ∈ starts, ∃ insn ∈ result.instructions, insn.address = addr) →
        a.Stable snapshot entries written again ∧
          ∀ insn ∈ result'.instructions, insn ∈ result.instructions) ∧
      (result.EncodingsApart → ∀ addr ∈ starts, ∃ insn ∈ result.instructions,
        insn.address = addr) := by
  have made : ({ store := before } : Analysis).store.MadeFor a.banks.declared := cycle.madeFor
  have remade : ({ store := again } : Analysis).store.MadeFor a.banks.declared :=
    cycle.madeFor_again
  obtain ⟨loaded, t, result, ran, answer, visits, complete⟩ :=
    a.exists_ran made valid entries (Int.le_refl 1) none
  obtain ⟨starts, u, result', rerun, answer', visits', recomplete⟩ :=
    a.exists_ran remade valid entries (Int.le_refl 1) none
  obtain ⟨starts', swept, found⟩ := cycle.exists_loadedStarts valid
  obtain rfl : starts' = starts := Except.ok.inj (swept.symm.trans rerun.loaded_eq)
  have present : ∀ (insn : Instruction) p, map.Covers insn.address insn.length p → again.Has p := by
    rintro insn p ⟨i, _, l, place, rfl⟩
    exact cycle.madeFor_again.has_position
      (MemoryMap.mem_banks_of_mem_active valid (MemoryMap.resolve_eq_some_iff.mp place).1)
  refine ⟨result, starts', result', answer, found, answer',
    cycle.buffers_again places empty ran, ?_⟩
  unfold Result.EncodingsApart
  rw [Traversal.instructions_eq_believed visits, Traversal.instructions_eq_believed visits']
  refine ⟨?_, ⟨?_, ?_⟩, ?_, ?_⟩
  · intro insn believed
    exact cycle.believed_again valid distinct places empty ran (complete rfl) rerun
      (recomplete rfl) believed
  · intro stable insn believed p covered
    rw [← Cdl.Store.byteAt_congr stable.buffers p]
    exact (rerun.code_iff (present insn p covered)).mpr (.inr ⟨insn, believed, covered⟩)
  · exact cycle.stable_of_code places empty ran rerun
  · intro known
    have same : ∀ insn ∈ u.believed, insn ∈ t.believed := fun _ =>
      cycle.believed_of_again valid distinct empty ran (complete rfl) rerun (recomplete rfl) known
    refine ⟨cycle.stable_of_code places empty ran rerun ?_, same⟩
    intro insn believed p covered
    obtain ⟨_, _, _, reread⟩ := cycle.second
    rw [(reread.byteAt_eq p).1]
    exact cycle.code_again valid places empty ran (same insn believed) covered
  · intro apart addr recovered
    have uncoded : ∀ p, before.Has p → Cdl.hasAny Cdl.code (fs.byteAt p) = false := by
      intro p had
      rw [empty p had]
      exact Cdl.hasAny_zero Cdl.code
    exact (cycle.mem_loadedStarts_iff valid distinct places uncoded ran apart swept).mp recovered

/-- The log of a run from the first byte of a bank that is filled with `rts` is stable. -/
theorem rerun_stable_iff_returns : ∃ written before again,
    returns.Cycle {} [0x8000] .bare written before again ∧
      returns.Stable {} [0x8000] written again := by
  obtain ⟨written, before, again, cycle, places⟩ :=
    returns.exists_cycle_bare ofSnapshot_returns forBanks_returns rfl [0x8000]
  have made : ({ store := before } : Analysis).store.MadeFor returns.banks.declared := cycle.madeFor
  obtain ⟨result, _, _, answer, _, _, _, _, _, settled, recovered⟩ := rerun_stable_iff returns {}
    soleMap ofSnapshot_returns distinctPositions_returns [0x8000] .bare written before again cycle
    places fun p _ => FileSystem.byteAt_bare p
  obtain ⟨_, _, result', ran, answer', visits, _⟩ :=
    returns.exists_ran made ofSnapshot_returns [0x8000] (Int.le_refl 1) none
  obtain rfl : result = result' := Except.ok.inj (answer.symm.trans answer')
  have apart := encodingsApart_of_repetition ran ofSnapshot_returns (by decide) visits
  exact ⟨written, before, again, cycle, (settled (recovered apart)).1⟩

/-! ## Jumps that overlap -/

/-- A run on the bank of jumps from its first two bytes, without loaded code, believes nothing
behind them. -/
theorem address_of_believed_jumps {before after : Analysis} {t : Traversal}
    (ran : jumps.Ran before {} jumpMap [0x8000, 0x8001] [] t after) {insn : Instruction}
    (believed : insn ∈ t.believed) : insn.address = 0x8000 ∨ insn.address = 0x8001 := by
  have each : ∀ addr, (jumps.scene jumpMap before.store []).Reaches [0x8000, 0x8001] addr →
      addr = 0x8000 ∨ addr = 0x8001 ∨ addr = 0x4C4C := by
    intro addr reached
    induction reached with
    | start member =>
      simp only [List.mem_cons, List.not_mem_nil, or_false] at member
      rcases member with rfl | rfl
      · exact .inl rfl
      · exact .inr (.inl rfl)
    | @next _ _ _ jump _ accepted follows _ =>
      obtain ⟨first, operand⟩ := eq_repeated_of_accepts ofSnapshot_jumps accepted
      obtain ⟨address, opcode, operandBytes, complete⟩ := jump
      dsimp only at first operand
      subst first
      subst operand
      exact .inr (.inr (List.mem_singleton.mp follows))
  obtain ⟨v, visited, l, _, _, outcome⟩ := Traversal.mem_believed.mp believed
  obtain ⟨address, accepted⟩ := ran.consistent.accepts visited outcome
  have reached := each _ (ran.reached v visited)
  rw [address] at reached
  rcases reached with first | second | target
  · exact .inl first
  · exact .inr second
  · have nowhere := accepted.resolved
    rw [target] at nowhere
    contradiction

section

variable {written : FileSystem} {before again : Cdl.Store} {starts : List Int} {t u : Traversal}
  (cycle : jumps.Cycle {} [0x8000, 0x8001] .bare written before again)
  (places : (before.paths.map FileSystem.bare.placeOf).Nodup)
  (ran : jumps.Ran { store := before } {} jumpMap [0x8000, 0x8001] [] t
    (jumps.run { store := before } {} [0x8000, 0x8001] 1 none).analysis)
  (complete : t.IsComplete)

include cycle

/-- The store has the bytes of the bank of jumps, and nothing was read of them in front of the
run. -/
theorem unread_jumps (offset : Fin 8) :
    before.Has (jumpAt offset).position ∧ before.loadedAt (jumpAt offset).position = 0 := by
  have present : before.Has (jumpAt offset).position := cycle.madeFor.has_position
    (MemoryMap.mem_banks_of_mem_active ofSnapshot_jumps List.mem_cons_self)
  exact ⟨present, cycle.unread (fun p _ => FileSystem.byteAt_bare p) present⟩

include places ran

include complete in
/-- The first four bytes of the bank are read again as code: those of a jump at the first byte and
the last one of a jump at the second byte. -/
theorem code_again_jumps {offset : Fin 8} (front : offset.val ≤ 3) :
    Cdl.hasAny Cdl.code (again.loadedAt (jumpAt offset).position) = true := by
  have empty : ∀ p, before.Has p → FileSystem.bare.byteAt p = 0 := fun p _ =>
    FileSystem.byteAt_bare p
  have believed : ∀ start : Fin 8, start.val + 3 ≤ 8 →
      ((jumpAt start).address : Int) ∈ ([0x8000, 0x8001] : List Int) →
        repeated 0x4C (jumpAt start).address ∈ t.believed := by
    intro start fits entry
    refine ran.believed_of_entry distinctPositions_jumps complete entry (accepts_jumps fits ?_)
    rw [(unread_jumps cycle start).2]
    decide
  rcases Nat.lt_or_ge offset.val 3 with first | last
  · have jump := believed 0 (by decide) List.mem_cons_self
    exact cycle.code_again ofSnapshot_jumps places empty ran jump
      ((covers_jump_iff (by decide)).mpr ⟨Nat.zero_le _, first⟩)
  · have jump := believed 1 (by decide) (List.mem_cons_of_mem _ List.mem_cons_self)
    exact cycle.code_again ofSnapshot_jumps places empty ran jump
      ((covers_jump_iff (by decide)).mpr ⟨Nat.le_trans (by decide) last, Nat.lt_succ_of_le front⟩)

/-- The byte behind them is not code when it is read again. -/
theorem uncoded_again_jumps : Cdl.hasAny Cdl.code (again.byteAt (jumpAt 4).position) = false := by
  have present := (unread_jumps cycle 4).1
  obtain ⟨loads, left⟩ :=
    cycle.byteAt_again places (fun p _ => FileSystem.byteAt_bare p) ran present
  rw [loads, left, Bool.eq_false_iff]
  intro coded
  rcases (ran.code_iff present).mp coded with marked | ⟨insn, believed, covered⟩
  · obtain ⟨_, _, _, read⟩ := cycle.first
    rw [read.byteAt_of_bare present] at marked
    contradiction
  · obtain ⟨_, accepted⟩ := ran.consistent.exists_accepts believed
    have three : insn.length = 3 := by
      unfold Instruction.length
      rw [(eq_repeated_of_accepts ofSnapshot_jumps accepted).1]
      decide
    have apart : ∀ offset : Fin 8, offset.val ≤ 1 →
        ¬jumpMap.Covers (jumpAt offset).address 3 (jumpAt 4).position := by
      intro offset front covered
      have reaches : 4 < offset.val + 3 := ((covers_jump_iff (by omega)).mp covered).2
      omega
    rw [three] at covered
    rcases address_of_believed_jumps ran believed with first | second
    · rw [first] at covered
      exact apart 0 (by decide) covered
    · rw [second] at covered
      exact apart 1 (by decide) covered

include complete

/-- Behind the first jump the sweep comes to the fourth byte, and a jump is believed there. -/
theorem believed_again_jumps
    (rerun : jumps.Ran { store := again } {} jumpMap [0x8000, 0x8001] starts u
      (jumps.run { store := again } {} [0x8000, 0x8001] 1 none).analysis)
    (recomplete : u.IsComplete) : repeated 0x4C (jumpAt 3).address ∈ u.believed := by
  have coded : ∀ offset : Fin 8, offset.val ≤ 3 →
      Cdl.hasAny Cdl.code (again.loadedAt (jumpAt offset).position) = true := fun _ =>
    code_again_jumps cycle places ran complete
  have three : Opcode.length ((jumpAt 3).bank.byte 0) = 3 := by decide
  have first : (jumpAt 3).bank.IsStart ((jumpAt 3).bank.loadedCode again) 0 :=
    .first (by decide) (coded 0 (by decide)) fun i impossible => by omega
  have next := first.next (by rw [three]; decide) (by
    intro i _ upper
    rw [three] at upper
    exact coded ⟨i, by omega⟩ upper)
  rw [three] at next
  have recovered : ((jumpAt 3).address : Int) ∈ starts :=
    (MemoryMap.mem_loadedStarts_iff rerun.loaded_eq).mpr
      ⟨jumpAt 3, List.mem_cons_self, rfl, rfl, next⟩
  rw [rerun.mem_believed_iff distinctPositions_jumps recomplete]
  refine ⟨.start (List.mem_append_right _ recovered), jumpAt 3, accepts_jumps (by decide) ?_⟩
  exact Scene.isKnownData_of_code (coded 3 (by decide))

end

/-- Two jumps that overlap are found again together with a third one, which starts at an operand
byte of the second and makes bytes code that were not. -/
theorem jumps_not_stable :
    MemoryMap.ofSnapshot jumps.banks {} = .ok jumpMap ∧ jumpMap.DistinctPositions ∧
      ∃ written before again,
        jumps.Cycle {} [0x8000, 0x8001] .bare written before again ∧
        (jumps.run { store := again } {} [0x8000, 0x8001] 1 none).analysis.store.buffers ≠
          again.buffers := by
  obtain ⟨written, before, again, cycle, places⟩ :=
    jumps.exists_cycle_bare ofSnapshot_jumps forBanks_jumps rfl [0x8000, 0x8001]
  refine ⟨ofSnapshot_jumps, distinctPositions_jumps, written, before, again, cycle, ?_⟩
  have made : ({ store := before } : Analysis).store.MadeFor jumps.banks.declared := cycle.madeFor
  have remade : ({ store := again } : Analysis).store.MadeFor jumps.banks.declared :=
    cycle.madeFor_again
  obtain ⟨loaded, t, _, ran, _, _, complete⟩ :=
    jumps.exists_ran made ofSnapshot_jumps [0x8000, 0x8001] (Int.le_refl 1) none
  obtain ⟨starts, u, _, rerun, _, _, recomplete⟩ :=
    jumps.exists_ran remade ofSnapshot_jumps [0x8000, 0x8001] (Int.le_refl 1) none
  obtain rfl := cycle.loaded_eq_nil ofSnapshot_jumps (fun p _ => FileSystem.byteAt_bare p) ran
  have third := believed_again_jumps cycle places ran (complete rfl) rerun (recomplete rfl)
  have present := cycle.has_iff.mpr (unread_jumps cycle 4).1
  have covered : jumpMap.Covers (jumpAt 3).address 3 (jumpAt 4).position :=
    (covers_jump_iff (by decide)).mpr (by decide)
  have coded := (rerun.code_iff present).mpr (.inr ⟨_, third, covered⟩)
  intro same
  rw [Cdl.Store.byteAt_congr same, uncoded_again_jumps cycle places ran] at coded
  contradiction

end Analyzer

end BankTrace
