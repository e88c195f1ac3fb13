import BankTrace.Proofs.FileSystem.Growth
import BankTrace.Proofs.MemoryMap.Table
import BankTrace.Proofs.Trace.Contest
import BankTrace.Proofs.Trace.LoadedCode
import BankTrace.Proofs.Trace.RefusedRun

/-!
# What a sweep lists

The loaded code of a mapped bank falls into runs, the longest stretches of bytes that were loaded as
code. A sweep lists the first address of every run and, as long as the run goes on, the address
behind every instruction that it lists. The last instruction of a run may end behind the run: what
lies there is listed only where a run of its own begins or goes on.
-/

namespace BankTrace

namespace MemoryMap

/-- A longest stretch of loaded code in a mapped bank with an image. -/
structure CodeRun (map : MemoryMap) (store : Cdl.Store) where
  /-- The bank. -/
  bank : LoadedBank
  /-- The bank is mapped. -/
  mapped : bank ∈ map.activeBanks
  /-- Its image is known. -/
  analyzable : bank.isAnalyzable = true
  /-- The offset of the first byte. -/
  first : Nat
  /-- The number of bytes. -/
  length : Nat
  /-- The bytes were loaded as code, and the run cannot be made longer inside the bank. -/
  stretch : Cdl.File.IsStretch (bank.loadedCode store) 0 bank.size first length

namespace CodeRun

variable {map : MemoryMap} {store : Cdl.Store}

/-- The offset is one of the run. -/
def Has (run : map.CodeRun store) (offset : Nat) : Prop :=
  run.first ≤ offset ∧ offset < run.first + run.length

/-- The address of an offset of the bank. -/
def address (run : map.CodeRun store) (offset : Nat) : Int := (run.bank.start + offset : Nat)

/-- The offset behind the instruction that is read at an offset. -/
def next (run : map.CodeRun store) (offset : Nat) : Nat :=
  offset + Opcode.length (run.bank.byte offset)

/-- The addresses of a list that lie in the run. -/
def among (run : map.CodeRun store) (starts : List Int) : List Int :=
  starts.filter fun addr =>
    decide (run.address run.first ≤ addr ∧ addr < run.address (run.first + run.length))

/-- A run ends in its bank. -/
theorem lt_size {run : map.CodeRun store} {offset : Nat} (inside : run.Has offset) :
    offset < run.bank.size := by
  have bound := run.stretch.le_upper
  have below := inside.2
  omega

/-- The address of an offset lies in the run exactly where the offset does. -/
theorem address_mem_among_iff {run : map.CodeRun store} {starts : List Int} {offset : Nat} :
    run.address offset ∈ run.among starts ↔ run.address offset ∈ starts ∧ run.Has offset := by
  simp only [among, List.mem_filter, decide_eq_true_eq]
  apply and_congr_right
  intro _
  simp only [address, Has]
  omega

/-- What lies in the run are addresses of its offsets. -/
theorem exists_offset {run : map.CodeRun store} {starts : List Int} {addr : Int}
    (member : addr ∈ run.among starts) :
    ∃ offset, addr = run.address offset ∧ addr ∈ starts ∧ run.Has offset := by
  simp only [among, List.mem_filter, decide_eq_true_eq] at member
  simp only [address] at member
  obtain ⟨listed, above, below⟩ := member
  refine ⟨(addr - run.bank.start).toNat, ?_, listed, ?_⟩
  · simp only [address]
    omega
  · simp only [Has]
    omega

/-- An address of a run is listed exactly where a sweep of the run comes to its offset. -/
theorem address_mem_iff {run : map.CodeRun store} {starts : List Int}
    (done : map.loadedStarts store = .ok starts) {offset : Nat} (inside : run.Has offset) :
    run.address offset ∈ starts ↔ run.bank.Sweeps run.first offset := by
  have mapped := BankTable.mem_activeBanks.mp run.mapped
  have listed := address_mem_loadedStarts_iff done (l := ⟨run.bank, ⟨offset, run.lt_size inside⟩⟩)
    mapped run.analyzable
  exact listed.trans (LoadedBank.isStart_iff_sweeps run.stretch inside.1 inside.2)

end CodeRun

/-- A list is what a sweep of the loaded code under a map has to give. -/
structure ListsStarts (map : MemoryMap) (store : Cdl.Store) (starts : List Int) : Prop where
  /-- The addresses ascend. -/
  ascending : starts.Pairwise (· < ·)
  /-- Every address resolves to its own location, which lies in a run of a mapped bank with an image
  and whose byte in the log was loaded as code. -/
  coded : ∀ addr ∈ starts, ∃ (run : map.CodeRun store) (l : Location),
    map.resolve addr = some l ∧ (l.address : Int) = addr ∧ l.bank = run.bank ∧ run.Has l.offset ∧
      Cdl.hasAny Cdl.code (store.loadedAt l.position) = true
  /-- No address of any other bank is listed. -/
  elsewhere : ∀ addr, (∀ b ∈ map.activeBanks, b.isAnalyzable = true → b.contains addr = false) →
    addr ∉ starts
  /-- The first address of every run is listed. -/
  first_mem : ∀ run : map.CodeRun store, run.address run.first ∈ starts
  /-- Inside a run, the address behind a listed instruction is listed exactly where it is still
  inside the run. -/
  next_mem_iff : ∀ (run : map.CodeRun store) (offset : Nat),
    run.address offset ∈ run.among starts →
      (run.address (run.next offset) ∈ run.among starts ↔ run.Has (run.next offset))
  /-- Where the instruction ends behind the run, the address there is listed only if it lies in
  another run. -/
  overhang : ∀ (run : map.CodeRun store) (offset : Nat), run.address offset ∈ run.among starts →
    ¬run.Has (run.next offset) → run.address (run.next offset) ∈ starts →
      ∃ (other : map.CodeRun store) (later : Nat), other ≠ run ∧ other.Has later ∧
        other.address later = run.address (run.next offset)
  /-- Inside a run, no address between a listed one and the one behind its instruction is listed. -/
  between : ∀ (run : map.CodeRun store) (offset : Nat), run.address offset ∈ run.among starts →
    ∀ addr ∈ run.among starts, ¬(run.address offset < addr ∧ addr < run.address (run.next offset))

section

variable {map : MemoryMap} {store : Cdl.Store} {starts : List Int}

/-- An address that is listed lies in a run. -/
theorem exists_codeRun (done : map.loadedStarts store = .ok starts) {addr : Int}
    (member : addr ∈ starts) : ∃ (run : map.CodeRun store) (l : Location),
    map.resolve addr = some l ∧ (l.address : Int) = addr ∧ l.bank = run.bank ∧ run.Has l.offset ∧
      Cdl.hasAny Cdl.code (store.loadedAt l.position) = true := by
  obtain ⟨l, mapped, analyzable, address, start⟩ := (mem_loadedStarts_iff done).mp member
  have coded := start.coded
  have around := Cdl.File.exists_isStretch_around (Nat.zero_le _) coded.1 coded.2
  obtain ⟨first, length, stretch, above, below⟩ := around
  have resolved := resolve_address mapped
  rw [address] at resolved
  have active := BankTable.mem_activeBanks.mpr mapped
  exact ⟨⟨l.bank, active, analyzable, first, length, stretch⟩, l, resolved, address, rfl,
    ⟨above, below⟩, coded.2⟩

/-- The starts in the loaded code are listed as a sweep has to list them. -/
theorem listsStarts (done : map.loadedStarts store = .ok starts) :
    map.ListsStarts store starts := by
  constructor
  case ascending => exact pairwise_loadedStarts done
  case coded =>
    intro addr member
    exact exists_codeRun done member
  case elsewhere =>
    intro addr nowhere member
    obtain ⟨run, l, _, address, same, _⟩ := exists_codeRun done member
    have outside := nowhere run.bank run.mapped run.analyzable
    have inside : run.bank.contains addr = true := by
      have bound := l.offset.isLt
      rw [← same, Bank.contains_iff, ← address]
      simp only [Location.address, Bank.endAddress]
      omega
    rw [inside] at outside
    contradiction
  case first_mem =>
    intro run
    have nonempty := run.stretch.length_pos
    have inside : run.Has run.first := ⟨Nat.le_refl _, by omega⟩
    exact (run.address_mem_iff done inside).mpr .start
  case next_mem_iff =>
    intro run offset member
    have here := CodeRun.address_mem_among_iff.mp member
    have swept := (run.address_mem_iff done here.2).mp here.1
    rw [CodeRun.address_mem_among_iff]
    constructor
    · intro listed
      exact listed.2
    · intro inside
      exact ⟨(run.address_mem_iff done inside).mpr swept.next, inside⟩
  case overhang =>
    intro run offset _ outside listed
    obtain ⟨other, l, _, address, same, inside, _⟩ := exists_codeRun done listed
    have there : other.address l.offset = run.address (run.next offset) := by
      rw [← address, CodeRun.address, ← same]
      rfl
    refine ⟨other, l.offset, ?_, inside, there⟩
    intro equal
    rw [equal] at there inside
    have offsets : (l.offset : Nat) = run.next offset := by
      simp only [CodeRun.address] at there
      omega
    rw [offsets] at inside
    exact outside inside
  case between =>
    intro run offset member addr listed order
    have here := CodeRun.address_mem_among_iff.mp member
    obtain ⟨later, same, there, inside⟩ := CodeRun.exists_offset listed
    rw [same] at there order
    have swept := (run.address_mem_iff done here.2).mp here.1
    have swept' := (run.address_mem_iff done inside).mp there
    simp only [CodeRun.address, CodeRun.next] at order
    have behind := swept.end_le swept' (by omega)
    omega

end

end MemoryMap

namespace Action

/-- The log files are read. -/
def isLoad : Action → Bool
  | log request => request.isLoad
  | _ => false

end Action

namespace Analyzer

/-- Nothing but reading the log files changes what was last read of them. -/
theorem reading_act (a : Analyzer) (before : Analysis) {action : Action}
    (quiet : action.isLoad = false) :
    (a.act before action).store.reading = before.store.reading := by
  cases action with
  | run r => exact (addsTo_run ..).marked.reading_eq
  | seed snapshot entries => exact (addsTo_seed ..).marked.reading_eq
  | references => exact (addsTo_markReferences ..).marked.reading_eq
  | log request => exact Cdl.Request.reading_after before.store quiet

/-- Without the log files being read, what was last read of them stays. -/
theorem reading_actAll (a : Analyzer) (before : Analysis) {actions : List Action}
    (quiet : ∀ action ∈ actions, action.isLoad = false) :
    (a.actAll before actions).store.reading = before.store.reading := by
  induction actions generalizing before with
  | nil => rfl
  | cons action rest ih =>
    have first := a.reading_act before (quiet action List.mem_cons_self)
    have others := ih (a.act before action) fun later member =>
      quiet later (List.mem_cons_of_mem action member)
    exact others.trans first

section

variable {a : Analyzer} {snapshot : Snapshot} {map : MemoryMap}

/-- Under a valid snapshot the starts are those of its map. -/
theorem loadedStarts_of_valid (valid : MemoryMap.ofSnapshot a.banks snapshot = .ok map)
    (store : Cdl.Store) : a.loadedStarts store snapshot = map.loadedStarts store := by
  simp only [loadedStarts, valid, Except.mapError]
  rfl

/-- Under a valid snapshot, a log that was made for the banks has starts. -/
theorem exists_loadedStarts_of_valid (valid : MemoryMap.ofSnapshot a.banks snapshot = .ok map)
    {store : Cdl.Store} (made : store.MadeFor a.banks.declared) :
    ∃ starts, map.loadedStarts store = .ok starts := by
  apply MemoryMap.exists_loadedStarts made
  intro b mapped
  exact BankSet.mem_declared (MemoryMap.mem_banks_of_mem_active valid mapped)

/-- Where the log has never been read there are no starts. -/
theorem loadedStarts_of_unread (valid : MemoryMap.ofSnapshot a.banks snapshot = .ok map)
    {memory : Memory} {blank : Cdl.Store}
    (made : Cdl.Store.forBanks memory a.banks.declared = .ok blank)
    {actions : List Action} (quiet : ∀ action ∈ actions, action.isLoad = false) :
    a.loadedStarts (a.actAll { store := blank } actions).store snapshot = .ok [] := by
  have reading := a.reading_actAll { store := blank } quiet
  have start : blank.MadeFor a.banks.declared := ⟨memory, blank, made, rfl⟩
  have later : (a.actAll { store := blank } actions).store.MadeFor a.banks.declared :=
    a.madeFor_actAll start actions
  have listed := exists_loadedStarts_of_valid valid later
  obtain ⟨starts, done⟩ := listed
  have unread : ∀ l : Location, l.bank ∈ map.active →
      (a.actAll { store := blank } actions).store.loadedAt l.position = 0 := by
    intro l _
    rw [Cdl.Store.loadedAt_congr reading]
    exact Cdl.Store.loadedAt_of_forBanks made l.position
  have none := MemoryMap.loadedStarts_eq_nil unread done
  rw [loadedStarts_of_valid valid, done, none]

end

/-- Whatever was read into the log of the banks and marked in it since: under a valid snapshot the
sweep of the loaded code ends and lists what it has to list. Where nothing was read, whatever else
was done, it lists nothing. -/
theorem loadedStarts_exact (a : Analyzer) {snapshot : Snapshot} {map : MemoryMap}
    (valid : MemoryMap.ofSnapshot a.banks snapshot = .ok map) {store : Cdl.Store}
    (made : store.MadeFor a.banks.declared) :
    (∃ starts, a.loadedStarts store snapshot = .ok starts ∧ map.ListsStarts store starts) ∧
    ∀ (memory : Memory) (blank : Cdl.Store) (actions : List Action),
      Cdl.Store.forBanks memory a.banks.declared = .ok blank →
      (∀ action ∈ actions, action.isLoad = false) →
        a.loadedStarts (a.actAll { store := blank } actions).store snapshot = .ok [] := by
  constructor
  · have listed := exists_loadedStarts_of_valid valid made
    obtain ⟨starts, done⟩ := listed
    refine ⟨starts, ?_, MemoryMap.listsStarts done⟩
    rw [loadedStarts_of_valid valid, done]
  · intro memory blank actions new quiet
    exact loadedStarts_of_unread valid new quiet

/-! ## An instruction that hangs over -/

/-- The bank of the last sixteen addresses, with the first byte of a jump at its end and another one
a little in front of it. -/
def hangingBank : LoadedBank where
  toBank := MapCache.lastBank
  image := some (.ofFn fun i => if i.val = 12 ∨ i.val = 15 then 0x4c else 0xea)

/-- The analysis of the bank. -/
def hanging : Analyzer where
  space := .unrestricted
  banks := ⟨[hangingBank], rfl⟩
  settings := bareSettings
  order := .fifo

/-- The map of the bank. -/
def hangingMap : MemoryMap := ⟨[hangingBank], List.pairwise_singleton _ _⟩

/-- The store that is made for the bank. -/
def hangingBlank : Cdl.Store := { files := [(hangingBank.cdl, Cdl.File.blank 48)] }

/-- A disk with a log in which the last four bytes are code but for the second of them. -/
def hangingDisk : FileSystem := .withLog (Array.replicate 44 0 ++ #[1, 0, 1, 1])

/-- The store after reading the log. -/
def hangingLog : Cdl.Store := (hangingBlank.load hangingDisk).1

/-- The loaded code of the bank. -/
theorem loadedCode_hangingLog :
    ∀ i < hangingBank.size, hangingBank.loadedCode hangingLog i = decide (i = 12 ∨ 14 ≤ i) := by
  decide

/-- The code in front of the byte that is none. -/
def hangingFront : hangingMap.CodeRun hangingLog where
  bank := hangingBank
  mapped := BankTable.mem_activeBanks.mpr List.mem_cons_self
  analyzable := rfl
  first := 12
  length := 1
  stretch := by
    constructor
    case length_pos => omega
    case lower_le => omega
    case le_upper => decide
    case holds =>
      intro i above below
      have inside : i < hangingBank.size := Nat.lt_of_lt_of_le below (by decide)
      rw [loadedCode_hangingLog i inside]
      simp only [decide_eq_true_eq]
      omega
    case front =>
      intro i above below
      have ahead : i = 11 := by omega
      rw [ahead]
      exact loadedCode_hangingLog 11 (by decide)
    case back => exact loadedCode_hangingLog 13

/-- The code behind it. -/
def hangingBack : hangingMap.CodeRun hangingLog where
  bank := hangingBank
  mapped := BankTable.mem_activeBanks.mpr List.mem_cons_self
  analyzable := rfl
  first := 14
  length := 2
  stretch := by
    constructor
    case length_pos => omega
    case lower_le => omega
    case le_upper => decide
    case holds =>
      intro i above below
      rw [loadedCode_hangingLog i below]
      simp only [decide_eq_true_eq]
      omega
    case front =>
      intro i above below
      have gap : i = 13 := by omega
      rw [gap]
      exact loadedCode_hangingLog 13 (by decide)
    case back =>
      intro inside
      exact absurd inside (by decide)

/-- The log was made for the bank. -/
theorem madeFor_hangingLog : hangingLog.MadeFor hanging.banks.declared :=
  ⟨Platform.standard.memory, hangingBlank, rfl, hangingBlank.sizes_load hangingDisk⟩

/-- The first address of each run is listed, and the one behind the first byte of the last run. -/
theorem hanging_listed {starts : List Int} (lists : hangingMap.ListsStarts hangingLog starts) :
    0xFFFC ∈ starts ∧ 0xFFFE ∈ starts ∧ 0xFFFF ∈ starts := by
  have front := lists.first_mem hangingFront
  have back := lists.first_mem hangingBack
  have first : hangingBack.address 14 ∈ hangingBack.among starts :=
    MemoryMap.CodeRun.address_mem_among_iff.mpr ⟨back, by decide, by decide⟩
  have next := (lists.next_mem_iff hangingBack 14 first).mpr ⟨by decide, by decide⟩
  have last := MemoryMap.CodeRun.address_mem_among_iff.mp next
  exact ⟨front, back, last.1⟩

/-- The first jump hangs over into the code behind the gap, which is swept from its own first byte,
and the last one hangs over the last address. A mark is not read. -/
theorem loadedStarts_exact_hanging :
    MemoryMap.ofSnapshot hanging.banks {} = .ok hangingMap ∧
      hangingLog.MadeFor hanging.banks.declared ∧
      (∃ starts, hanging.loadedStarts hangingLog {} = .ok starts ∧
        0xFFFC ∈ starts ∧ 0xFFFD ∉ starts ∧ 0xFFFE ∈ starts ∧ 0xFFFF ∈ starts) ∧
      Cdl.Store.forBanks Platform.standard.memory hanging.banks.declared = .ok hangingBlank ∧
      hanging.loadedStarts (hanging.actAll { store := hangingBlank }
        [.log (.mark hangingBank.cdl 0 1 .code)]).store {} = .ok [] := by
  have valid : MemoryMap.ofSnapshot hanging.banks {} = .ok hangingMap := rfl
  have blank : Cdl.Store.forBanks Platform.standard.memory hanging.banks.declared =
      .ok hangingBlank := rfl
  have exact := loadedStarts_exact hanging valid madeFor_hangingLog
  obtain ⟨⟨starts, answer, lists⟩, unread⟩ := exact
  have quiet : ∀ action ∈ [Action.log (.mark hangingBank.cdl 0 1 .code)],
      action.isLoad = false := by
    simp [Action.isLoad, Cdl.Request.isLoad]
  have listed := hanging_listed lists
  have gap : 0xFFFD ∉ starts := by
    intro member
    have coded := lists.coded 0xFFFD member
    obtain ⟨_, l, resolved, _, _, _, code⟩ := coded
    have there : hangingMap.resolve 0xFFFD = some ⟨hangingBank, ⟨13, by decide⟩⟩ := rfl
    obtain rfl := Option.some.inj (there.symm.trans resolved)
    exact absurd code (by decide)
  exact ⟨valid, madeFor_hangingLog, ⟨starts, answer, listed.1, gap, listed.2⟩, blank,
    unread _ hangingBlank _ blank quiet⟩

/-- Said of all the addresses that are listed, and not of those of the run alone, both rules for the
inside of a run fail: behind the first jump, outside its run, an address is listed, and so is one
between the two. Both belong to the other run. -/
theorem loadedStarts_overhanging :
    MemoryMap.ofSnapshot hanging.banks {} = .ok hangingMap ∧
      hangingLog.MadeFor hanging.banks.declared ∧
      ∃ starts, hanging.loadedStarts hangingLog {} = .ok starts ∧
        (¬∀ (run : hangingMap.CodeRun hangingLog) (offset : Nat), run.Has offset →
          run.address offset ∈ starts →
            (run.address (run.next offset) ∈ starts ↔ run.Has (run.next offset))) ∧
        ¬∀ (run : hangingMap.CodeRun hangingLog) (offset : Nat), run.Has offset →
          run.address offset ∈ starts → ∀ addr ∈ starts,
            ¬(run.address offset < addr ∧ addr < run.address (run.next offset)) := by
  have valid : MemoryMap.ofSnapshot hanging.banks {} = .ok hangingMap := rfl
  have some_starts := exists_loadedStarts_of_valid valid madeFor_hangingLog
  obtain ⟨starts, done⟩ := some_starts
  have answer : hanging.loadedStarts hangingLog {} = .ok starts := by
    rw [loadedStarts_of_valid valid, done]
  have listed := hanging_listed (MemoryMap.listsStarts done)
  obtain ⟨front, back, last⟩ := listed
  have inside : hangingFront.Has 12 := ⟨by decide, by decide⟩
  refine ⟨valid, madeFor_hangingLog, starts, answer, ?_, ?_⟩
  · intro next
    have still := (next hangingFront 12 inside front).mp last
    exact absurd still.2 (by decide)
  · intro between
    exact between hangingFront 12 inside front 0xFFFE back ⟨by decide, by decide⟩

end Analyzer

end BankTrace
