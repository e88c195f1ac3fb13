import BankTrace.Proofs.MemoryMap.Requests
import BankTrace.Proofs.Trace.Belief
import BankTrace.Proofs.Trace.Preparation

/-!
# What a run asks for

A run looks at banks, at the address space and at the log, and some of its definitions have an
answer also where such a look would be out of bounds. The checked definitions ask for everything
that they touch: each byte of a bank, each permission and each byte of the log that is looked at or
marked is a request, and the first request that is refused ends them with its error. Where the banks
of a memory map are banks of the set and the store was made for them nothing is refused, and the
checked definitions answer as the others do.
-/

namespace BankTrace

namespace Checked

/-- Requests that are answered alike one by one are answered alike as a list. -/
theorem mapM_congr {α β ε : Type} {request other : α → Except ε β} {as : List α}
    (each : ∀ a ∈ as, request a = other a) : as.mapM request = as.mapM other := by
  induction as with
  | nil => rfl
  | cons a rest ih =>
    have first := each a List.mem_cons_self
    have others := ih fun other later => each other (List.mem_cons_of_mem a later)
    rw [List.mapM_cons, List.mapM_cons, first, others]

/-! ## Words and vectors -/

/-- The word at an address, each of its bytes requested from the bank. -/
def word (set : BankSet) (map : MemoryMap) (addr : Int) : Except Error (Option Nat) :=
  match map.resolve addr with
  | none => .ok none
  | some l =>
    if (l.offset : Int) + 1 < l.bank.size ∧ set.isAnalyzable l.bank.name then do
      let low ← set.readByte l.bank.toBank l.offset
      let high ← set.readByte l.bank.toBank (l.offset + 1)
      return some (low.toNat + 256 * high.toNat)
    else .ok none

/-- The handlers of interrupts, as far as they can be read. -/
def handlers (set : BankSet) (map : MemoryMap) :
    List Interrupt → Except Error (List (Interrupt × Nat))
  | [] => .ok []
  | interrupt :: rest => do
    let handler ← word set map interrupt.vector
    let others ← handlers set map rest
    return handler.toList.map (fun handler => (interrupt, handler)) ++ others

section

variable {set : BankSet} {map : MemoryMap} (mapped : ∀ b ∈ map.active, b ∈ set.banks)

include mapped

/-- What an address resolves to lies in a bank of the set. -/
theorem mem_banks_of_resolve {addr : Int} {l : Location} (found : map.resolve addr = some l) :
    l.bank ∈ set.banks :=
  mapped l.bank (MemoryMap.resolve_eq_some_iff.mp found).1

/-- The word at an address is granted. -/
theorem word_eq (addr : Int) : word set map addr = .ok (map.readWord addr) := by
  unfold word MemoryMap.readWord
  cases found : map.resolve addr with
  | none => rfl
  | some l =>
    have member := mem_banks_of_resolve mapped found
    rw [Option.bind_some]
    dsimp only
    rw [BankSet.isAnalyzable_eq member]
    unfold Location.word?
    cases known : l.bank.image with
    | none =>
      have blind : l.bank.isAnalyzable = false := by
        unfold LoadedBank.isAnalyzable
        rw [known]
        rfl
      simp [blind]
    | some image =>
      have analyzable : l.bank.isAnalyzable = true := by
        unfold LoadedBank.isAnalyzable
        rw [known]
        rfl
      by_cases room : l.offset.val + 1 < l.bank.size
      · have inside : (l.offset.val : Int) + 1 < l.bank.size := by omega
        have low := BankSet.readByte_eq member analyzable l.offset.isLt
        have high := BankSet.readByte_eq member analyzable room
        rw [LoadedBank.byte_of_image known l.offset.isLt] at low
        rw [LoadedBank.byte_of_image known room, Int.natCast_add] at high
        rw [if_pos ⟨inside, analyzable⟩]
        dsimp only
        rw [dif_pos room, low]
        simp only [bind, Except.bind]
        rw [show (l.offset.val : Int) + 1 = (l.offset.val : Int) + (1 : Nat) from rfl, high]
        rfl
      · have outside : ¬((l.offset.val : Int) + 1 < l.bank.size) := by omega
        simp [room, outside]

/-- The handlers of interrupts are granted. -/
theorem handlers_eq (interrupts : List Interrupt) :
    handlers set map interrupts = .ok (map.handlers interrupts).2 := by
  rw [MemoryMap.handlers_snd]
  induction interrupts with
  | nil => rfl
  | cons interrupt rest ih =>
    rw [handlers, word_eq mapped, ih, List.flatMap_cons]
    rfl

end

/-- A word is an address. -/
theorem lt_of_readWord {map : MemoryMap} {addr : Int} {handler : Nat}
    (read : map.readWord addr = some handler) : handler < 0x10000 := by
  unfold MemoryMap.readWord at read
  obtain ⟨l, _, seen⟩ := Option.bind_eq_some_iff.mp read
  unfold Location.word? at seen
  cases known : l.bank.image with
  | none =>
    rw [known] at seen
    contradiction
  | some image =>
    rw [known] at seen
    dsimp only at seen
    split at seen
    case isFalse => contradiction
    case isTrue inside =>
      have low := image[l.offset].toNat_lt
      have high := image[l.offset.val + 1].toNat_lt
      have sum := Option.some.inj seen
      omega

/-! ## Marks on data -/

/-- Mark the bytes at addresses as data, those that lie in banks with an image; the answer counts
them. -/
def markData (set : BankSet) (map : MemoryMap) (store : Cdl.Store) :
    List Int → Except Error (Cdl.Store × Nat)
  | [] => .ok (store, 0)
  | addr :: rest =>
    match map.resolve addr with
    | none => markData set map store rest
    | some l =>
      if set.isAnalyzable l.bank.name then do
        let (path, offset) ← BankSet.logPosition l.bank.toBank l.offset
        let marked ← store.markRange path offset 1 Cdl.data
        let (left, others) ← markData set map marked rest
        return (left, others + 1)
      else markData set map store rest

/-- Mark the vectors of handlers as data and ask whether the handlers may be executed. -/
def markHandlers (a : Analyzer) (map : MemoryMap) (store : Cdl.Store) :
    List (Interrupt × Nat) → Except Error Cdl.Store
  | [] => .ok store
  | (interrupt, handler) :: rest => do
    let (marked, _) ← markData a.banks map store [interrupt.vector, interrupt.vector + 1]
    let _ ← a.space.isExecutable handler
    markHandlers a map marked rest

/-- The addresses that a run starts from, apart from the loaded code. -/
def seed (a : Analyzer) (map : MemoryMap) (store : Cdl.Store) (entries : List Int) :
    Except Error (Cdl.Store × List Int) := do
  let found ← handlers a.banks map (Interrupt.enabled a.settings)
  let marked ← markHandlers a map store found
  return (marked, found.map (fun (_, handler) => (handler : Int)) ++ entries.map wrapAddress)

/-- The locations of addresses in banks with an image. -/
def locations (map : MemoryMap) (addrs : List Int) : List Location :=
  (addrs.filterMap map.resolve).filter fun l => l.bank.isAnalyzable

/-- The marks on the bytes at locations as data. -/
def dataMarks (found : List Location) : List Cdl.Mark :=
  found.map fun l => ⟨l.position, 1, Cdl.data⟩

/-- The bytes at addresses are marked in a store that was made for the banks. -/
theorem markData_eq {set : BankSet} {map : MemoryMap} (mapped : ∀ b ∈ map.active, b ∈ set.banks)
    {store : Cdl.Store} (made : store.MadeFor set.declared) (addrs : List Int) :
    markData set map store addrs =
      .ok (store.markAll (dataMarks (locations map addrs)), (locations map addrs).length) := by
  induction addrs generalizing store with
  | nil => rfl
  | cons addr rest ih =>
    rw [markData]
    cases found : map.resolve addr with
    | none =>
      have skipped : locations map (addr :: rest) = locations map rest := by
        unfold locations
        rw [List.filterMap_cons_none found]
      rw [skipped]
      exact ih made
    | some l =>
      have member := mem_banks_of_resolve mapped found
      dsimp only
      rw [BankSet.isAnalyzable_eq member]
      cases analyzable : l.bank.isAnalyzable with
      | false =>
        have skipped : locations map (addr :: rest) = locations map rest := by
          unfold locations
          rw [List.filterMap_cons_some found, List.filter_cons_of_neg (by simp [analyzable])]
        rw [if_neg Bool.false_ne_true, skipped]
        exact ih made
      | true =>
        have listed : locations map (addr :: rest) = l :: locations map rest := by
          unfold locations
          rw [List.filterMap_cons_some found, List.filter_cons_of_pos (by simp [analyzable])]
        have granted := Cdl.Store.markRange_eq (made.has_position member) Cdl.data
        have later := ih (Analyzer.madeFor_markAll made [⟨l.position, 1, Cdl.data⟩])
        rw [if_pos rfl, BankSet.logPosition_eq, listed]
        simp only [bind, Except.bind, granted]
        change (markData set map (store.markAll [⟨l.position, 1, Cdl.data⟩]) rest >>= _) = _
        rw [later]
        rfl

section

variable {a : Analyzer} {map : MemoryMap} (mapped : ∀ b ∈ map.active, b ∈ a.banks.banks)

include mapped

/-- The vectors of handlers are marked in a store that was made for the banks. -/
theorem markHandlers_eq {store : Cdl.Store} (made : store.MadeFor a.banks.declared)
    {found : List (Interrupt × Nat)} (addresses : ∀ pair ∈ found, IsAddress pair.2) :
    markHandlers a map store found =
      .ok (store.markAll (Analyzer.vectorMarks map found)) := by
  induction found generalizing store with
  | nil => rfl
  | cons pair rest ih =>
    obtain ⟨interrupt, handler⟩ := pair
    have joined : Analyzer.vectorMarks map ((interrupt, handler) :: rest) =
        dataMarks (locations map [interrupt.vector, interrupt.vector + 1]) ++
          Analyzer.vectorMarks map rest := by
      unfold Analyzer.vectorMarks
      rw [List.flatMap_cons]
      rfl
    have asked : a.space.isExecutable handler = .ok (a.space.permissionAt handler).executable :=
      a.space.isExecutable_eq (addresses (interrupt, handler) List.mem_cons_self)
    have later := ih (Analyzer.madeFor_markAll made
      (dataMarks (locations map [interrupt.vector, interrupt.vector + 1])))
      fun pair member => addresses pair (List.mem_cons_of_mem _ member)
    rw [markHandlers, markData_eq mapped made, asked, joined, Cdl.Store.markAll_append, ← later]
    rfl

/-- The addresses to start from are granted. -/
theorem seed_eq {store : Cdl.Store} (made : store.MadeFor a.banks.declared) (entries : List Int) :
    seed a map store entries =
      .ok (store.markAll (Analyzer.vectorMarks map (a.handlersIn map)), a.seeds map entries) := by
  have addresses : ∀ pair ∈ a.handlersIn map, IsAddress pair.2 := by
    rintro ⟨interrupt, handler⟩ member
    have read := (MemoryMap.mem_handlers.mp member).2
    exact isAddress_natCast (lt_of_readWord read)
  have marked := markHandlers_eq mapped made addresses
  unfold Analyzer.handlersIn at marked
  unfold seed
  rw [handlers_eq mapped]
  simp only [bind, Except.bind, marked]
  rfl

end

/-! ## Sweeps -/

/-- The addresses of the instructions from one offset up to another. -/
def sweep (set : BankSet) (b : LoadedBank) (offset stop : Int) : Except Error (List Int) :=
  if offset < stop then do
    let opcode ← set.readByte b.toBank offset
    let others ← sweep set b (offset + Opcode.length opcode) stop
    return (b.start + offset) :: others
  else .ok []
termination_by (stop - offset).toNat
decreasing_by
  have := Opcode.length_pos opcode
  omega

/-- The addresses of the instructions in the code of a bank that the log had when it was read. -/
def startsIn (set : BankSet) (store : Cdl.Store) (b : LoadedBank) : Except Error (List Int) := do
  let runs ← store.loadedRuns b.cdl Cdl.code b.cdlOffset b.size
  let starts ← runs.mapM fun (offset, length) =>
    sweep set b ((offset : Int) - b.cdlOffset) ((offset : Int) - b.cdlOffset + length)
  return starts.flatten

/-- The addresses of the instructions in the loaded code of all mapped banks with an image. -/
def loadedStarts (set : BankSet) (map : MemoryMap) (store : Cdl.Store) :
    Except Error (List Int) := do
  let starts ← (map.activeBanks.filter fun b => set.isAnalyzable b.name).mapM (startsIn set store)
  return starts.flatten

/-- A sweep inside a bank is granted. -/
theorem sweep_eq {set : BankSet} {b : LoadedBank} (member : b ∈ set.banks)
    (analyzable : b.isAnalyzable = true) (offset : Nat) {stop : Nat} (inside : stop ≤ b.size) :
    sweep set b offset stop = .ok (b.sweep offset stop) := by
  by_cases before : offset < stop
  · have opcode := BankSet.readByte_eq member analyzable (show offset < b.size by omega)
    have length := Opcode.length_pos (b.byte offset)
    have later := sweep_eq member analyzable (offset + Opcode.length (b.byte offset)) inside
    rw [Int.natCast_add] at later
    rw [sweep, LoadedBank.sweep, if_pos (Int.ofNat_lt.mpr before), if_pos before, opcode]
    simp only [bind, Except.bind, later]
    rfl
  · have ended : ¬(offset : Int) < stop := by omega
    rw [sweep, LoadedBank.sweep, if_neg ended, if_neg before]
termination_by stop - offset

/-- A stretch of loaded code lies in its window. -/
theorem bounds_of_mem_loadedRuns {store : Cdl.Store} {path : Path} {mask : Cdl.Mask}
    {start size : Nat} {runs : List (Nat × Nat)}
    (done : store.loadedRuns path mask start size = .ok runs) {offset length : Nat}
    (member : (offset, length) ∈ runs) : start ≤ offset ∧ offset + length ≤ start + size := by
  rw [Cdl.Store.loadedRuns_eq] at done
  split at done
  · contradiction
  · split at done
    · contradiction
    · obtain rfl := Except.ok.inj done
      have stretch := (Cdl.File.mem_stretches_iff (Cdl.File.underway_none _ _)).mp member
      exact ⟨stretch.lower_le, stretch.le_upper⟩

/-- The starts in the loaded code of a bank with an image are granted where they are found. -/
theorem startsIn_eq {set : BankSet} {b : LoadedBank} (member : b ∈ set.banks)
    (analyzable : b.isAnalyzable = true) (store : Cdl.Store) :
    startsIn set store b = b.loadedStarts store := by
  unfold startsIn LoadedBank.loadedStarts
  cases done : store.loadedRuns b.cdl Cdl.code b.cdlOffset b.size with
  | error e => rfl
  | ok runs =>
    have swept : runs.mapM (fun (offset, length) =>
        sweep set b ((offset : Int) - b.cdlOffset) ((offset : Int) - b.cdlOffset + length)) =
          pure (runs.map fun (offset, length) =>
            b.sweep (offset - b.cdlOffset) (offset - b.cdlOffset + length)) := by
      rw [← List.mapM_pure]
      apply mapM_congr
      rintro ⟨offset, length⟩ listed
      have bounds := bounds_of_mem_loadedRuns done listed
      have granted := sweep_eq member analyzable (offset - b.cdlOffset)
        (show offset - b.cdlOffset + length ≤ b.size by omega)
      rw [Int.natCast_add, Int.natCast_sub bounds.1] at granted
      exact granted
    simp only [bind, Except.bind, swept, List.flatMap]
    rfl

/-- The starts in the loaded code are granted where they are found. -/
theorem loadedStarts_eq {set : BankSet} {map : MemoryMap}
    (mapped : ∀ b ∈ map.active, b ∈ set.banks) (store : Cdl.Store) :
    loadedStarts set map store = map.loadedStarts store := by
  have known : ∀ b ∈ map.activeBanks, b ∈ set.banks := by
    intro b member
    exact mapped b ((List.mergeSort_perm ..).mem_iff.mp member)
  have same : map.activeBanks.filter (fun b => set.isAnalyzable b.name) =
      map.activeBanks.filter LoadedBank.isAnalyzable := by
    apply List.filter_congr
    intro b member
    exact BankSet.isAnalyzable_eq (known b member)
  have each : (map.activeBanks.filter LoadedBank.isAnalyzable).mapM (startsIn set store) =
      (map.activeBanks.filter LoadedBank.isAnalyzable).mapM fun b => b.loadedStarts store := by
    apply mapM_congr
    intro b member
    have seen := List.mem_filter.mp member
    exact startsIn_eq (known b seen.1) seen.2 store
  unfold loadedStarts MemoryMap.loadedStarts
  rw [same, each]

end Checked

end BankTrace
