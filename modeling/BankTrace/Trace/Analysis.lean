import BankTrace.Trace.Journal
import BankTrace.Trace.Result

/-!
# Analyses

An analysis consists of the logs in memory and the journal of the instructions found so far. A run
traverses what can be reached from the interrupt handlers, from further addresses and from the code
that the log had when it was read; it marks the bytes of every believed instruction as code and
those of the vectors as data. A run that cannot be made leaves the journal alone.
-/

namespace BankTrace

/-- What is analysed, and how. -/
structure Analyzer where
  /-- The permissions. -/
  space : AddressSpace
  /-- The banks. -/
  banks : BankSet
  /-- What is believed. -/
  settings : Settings
  /-- The order in which addresses are taken. -/
  order : Order
  /-- The order in which several workers come to visit them. -/
  schedule : Schedule := .inOrder

/-- What has been found so far. -/
structure Analysis where
  /-- The log files. -/
  store : Cdl.Store
  /-- The believed instructions. -/
  journal : Journal := {}

/-- What one request to an analysis leads to. -/
structure Answer (α : Type) where
  /-- The analysis afterwards. -/
  analysis : Analysis
  /-- What happened. -/
  events : List Event
  /-- The answer, or why there is none. -/
  result : Except Error α

namespace Answer

/-- An answer that leaves the analysis as it is. -/
def ofExcept {α : Type} (analysis : Analysis) (result : Except Error α) : Answer α :=
  ⟨analysis, [], result⟩

/-- Go on from an answer with the analysis that it leaves; an error is passed on. -/
def bind {α β : Type} (answer : Answer α) (next : Analysis → α → Answer β) : Answer β :=
  match answer.result with
  | .error e => ⟨answer.analysis, answer.events, .error e⟩
  | .ok a =>
    let following := next answer.analysis a
    { following with events := answer.events ++ following.events }

/-- Going on from an answer that is just a value is to begin there. -/
theorem ofExcept_ok_bind {α β : Type} (analysis : Analysis) (a : α)
    (next : Analysis → α → Answer β) :
    (ofExcept analysis (.ok a)).bind next = next analysis a := by
  simp [bind, ofExcept]

/-- Nothing happens behind an error. -/
theorem bind_of_error {α β : Type} {answer : Answer α} {e : Error}
    (next : Analysis → α → Answer β) (h : answer.result = .error e) :
    answer.bind next = ⟨answer.analysis, answer.events, .error e⟩ := by
  simp [bind, h]

/-- Behind an answer that is a value its analysis is gone on with. -/
theorem bind_of_ok {α β : Type} {answer : Answer α} {a : α}
    (next : Analysis → α → Answer β) (h : answer.result = .ok a) :
    answer.bind next =
      { next answer.analysis a with
        events := answer.events ++ (next answer.analysis a).events } := by
  simp [bind, h]

/-- Where a sequence of requests is cut in two does not matter. -/
theorem bind_assoc {α β γ : Type} (answer : Answer α) (next : Analysis → α → Answer β)
    (last : Analysis → β → Answer γ) :
    (answer.bind next).bind last =
      answer.bind fun analysis a => (next analysis a).bind last := by
  cases answer with
  | mk analysis events result =>
    cases result with
    | error e => rfl
    | ok a =>
      simp only [bind]
      cases (next analysis a).result <;> simp

end Answer

/-- What a run starts from. -/
structure Start where
  /-- What is mapped. -/
  map : MemoryMap
  /-- The interrupt handlers and the further addresses. -/
  seeds : List Int
  /-- The addresses in the loaded code. -/
  loaded : List Int

/-- All addresses that wait at the start. -/
def Start.addresses (s : Start) : List Int := s.seeds ++ s.loaded

namespace Analyzer

/-- Mark the byte of the log that belongs to each location, as long as the log has it. -/
def markEach (store : Cdl.Store) (mask : Cdl.Mask) :
    List Location → Cdl.Store × Except Error Unit
  | [] => (store, .ok ())
  | location :: rest =>
    match store.markRange location.position.file location.position.offset 1 mask with
    | .ok marked => markEach marked mask rest
    | .error e => (store, .error e)

/-- Mark the vectors of handlers as data and warn of handlers that must not be executed. -/
def markHandlers (a : Analyzer) (map : MemoryMap) (store : Cdl.Store) :
    List (Interrupt × Nat) → Cdl.Store × List Event × Except Error Unit
  | [] => (store, [], .ok ())
  | (interrupt, handler) :: rest =>
    match markEach store Cdl.data (map.vectorLocations interrupt) with
    | (store, .error e) => (store, [], .error e)
    | (store, .ok ()) =>
      let (store, events, result) := a.markHandlers map store rest
      let warning :=
        if (a.space.permissionAt handler).executable then []
        else [.handlerNotExecutable interrupt handler]
      (store, warning ++ events, result)

/-- The addresses that a run starts from, apart from the loaded code: the handlers, whose vectors
are marked as data, and further addresses. -/
def seedIn (a : Analyzer) (map : MemoryMap) (store : Cdl.Store) (entries : List Int) :
    Cdl.Store × List Event × Except Error (List Int) :=
  let (read, handlers) := map.handlers (Interrupt.enabled a.settings)
  let (store, warnings, result) := a.markHandlers map store handlers
  (store, read ++ warnings,
    result.map fun _ =>
      handlers.map (fun (_, handler) => (handler : Int)) ++ entries.map wrapAddress)

/-- The handlers of the enabled interrupts under a snapshot. A snapshot that maps nothing is an
error only where some interrupt is enabled. -/
def handlersUnder (a : Analyzer) (snapshot : Snapshot) :
    Except ConfigError (List Event × List (Interrupt × Nat)) :=
  match Interrupt.enabled a.settings with
  | [] => .ok ([], [])
  | enabled => (MemoryMap.ofSnapshot a.banks snapshot).map fun map => map.handlers enabled

/-- The addresses that a run under a snapshot starts from, apart from the loaded code. -/
def seed (a : Analyzer) (analysis : Analysis) (snapshot : Snapshot) (entries : List Int) :
    Answer (List Int) :=
  match Interrupt.enabled a.settings with
  | [] => ⟨analysis, [], .ok (entries.map wrapAddress)⟩
  | _ =>
    match MemoryMap.ofSnapshot a.banks snapshot with
    | .error e => ⟨analysis, [], .error e⟩
    | .ok map =>
      let (store, events, result) := a.seedIn map analysis.store entries
      ⟨{ analysis with store }, events, result⟩

/-- The addresses of the instructions in the loaded code under a snapshot. -/
def loadedStarts (a : Analyzer) (store : Cdl.Store) (snapshot : Snapshot) :
    Except Error (List Int) := do
  (← (MemoryMap.ofSnapshot a.banks snapshot).mapError .config).loadedStarts store

/-- The bytes of the log that a visit marks as code, as a position and their number. -/
def codeMark? : Outcome → Option (Cdl.Position × Nat)
  | .accepted location insn .. => some (location.position, insn.length)
  | _ => none

/-- Mark the bytes of all believed instructions as code. -/
def markCode (store : Cdl.Store) (outcomes : List Outcome) : Cdl.Store :=
  (outcomes.filterMap codeMark?).foldl
    (fun store (position, count) => store.mark position count Cdl.code) store

/-- The setting of a run: what is mapped, and the loaded code that is trusted. -/
def scene (a : Analyzer) (map : MemoryMap) (store : Cdl.Store) (loaded : List Int) : Scene where
  space := a.space
  map := map
  settings := a.settings
  log := store
  trusted := .ofList loaded

/-- The warning about a run that ends early. -/
def limitWarning (t : Traversal) (workers : Int) : Option Int → List Event
  | some limit =>
    if t.isUnfinished then
      [.stepLimit limit (if workers = 1 then some t.waiting.size else none)]
    else []
  | none => []

/-- A run has one worker at least. -/
def checkWorkers (workers : Int) : Except Error Unit :=
  if workers < 1 then .error (.workers workers) else .ok ()

/-- Prepare a run under a snapshot: the claims of earlier runs are forgotten, and what the run
starts from is found. -/
def prepare (a : Analyzer) (analysis : Analysis) (snapshot : Snapshot) (entries : List Int) :
    Answer Start :=
  let store := analysis.store.resetClaims
  match MemoryMap.ofSnapshot a.banks snapshot with
  | .error e => ⟨{ analysis with store }, [], .error e⟩
  | .ok map =>
    let (store, events, seeds) := a.seedIn map store entries
    ⟨{ analysis with store }, events, do
      let seeds ← seeds
      let loaded ← map.loadedStarts store
      return { map, seeds, loaded }⟩

/-- What a traversal from a start under a snapshot leaves behind. -/
def conclude (analysis : Analysis) (snapshot : Snapshot) (start : Start) (workers : Int)
    (limit : Option Int) (t : Traversal) : Answer Result :=
  let result : Result :=
    { snapshot, seeds := start.seeds, loadedSeeds := start.loaded, visits := t.visits.reverse
      limitReached := t.isUnfinished }
  let store := markCode { analysis.store with claims := t.claims } result.outcomes
  ⟨⟨store, analysis.journal.record snapshot result.instructions⟩,
    result.events ++ limitWarning t workers limit ++
      [.traversed snapshot result.steps result.accepted result.rejected],
    .ok result⟩

/-- Traverse what can be reached from a start under a snapshot. -/
def traverse (a : Analyzer) (analysis : Analysis) (snapshot : Snapshot) (start : Start)
    (workers : Int) (limit : Option Int) : Answer Result :=
  let scene := a.scene start.map analysis.store start.loaded
  conclude analysis snapshot start workers limit
    (Traversal.run scene a.order (a.schedule.ofWorkers workers) start.addresses limit)

/-- Run under a snapshot. -/
def run (a : Analyzer) (analysis : Analysis) (snapshot : Snapshot) (entries : List Int)
    (workers : Int) (limit : Option Int) : Answer Result :=
  (Answer.ofExcept analysis (checkWorkers workers)).bind fun analysis _ =>
    (a.prepare analysis snapshot entries).bind fun analysis start =>
      a.traverse analysis snapshot start workers limit

/-- Run under one snapshot after the other. -/
def runAll (a : Analyzer) (analysis : Analysis) (entries : List Int) (workers : Int)
    (limit : Option Int) : List Snapshot → Answer (List Result)
  | [] => .ofExcept analysis (.ok [])
  | snapshot :: rest =>
    (a.run analysis snapshot entries workers limit).bind fun analysis result =>
      (a.runAll analysis entries workers limit rest).bind fun analysis results =>
        .ofExcept analysis (.ok (result :: results))

/-- The addresses of the bytes that an instruction refers to: those it reads by an address that
depends neither on a register nor on memory, and the pointer of an indirect jump. -/
def references (insn : Instruction) : List Int :=
  match insn.effectiveAddress?, insn.flow with
  | some addr, _ => if insn.opcode.reads then [(addr : Int)] else []
  | none, .indirectJump pointer => if insn.pointerWraps then [] else [pointer, pointer + 1]
  | none, _ => []

/-- The locations in banks with an image that an instruction refers to. -/
def referencedLocations (map : MemoryMap) (insn : Instruction) : List Location :=
  ((references insn).filterMap map.resolve).filter fun location => location.bank.isAnalyzable

/-- The locations that the journal refers to. -/
def journalReferences (a : Analyzer) (journal : Journal) : List Location :=
  journal.chapters.flatMap fun (snapshot, insns) =>
    match MemoryMap.ofSnapshot a.banks snapshot with
    | .ok map => insns.flatMap (referencedLocations map)
    | .error _ => []

/-- Mark all bytes that the journal refers to as data; the answer is their number, a byte counting
every time. -/
def markReferences (a : Analyzer) (analysis : Analysis) : Answer Nat :=
  let locations := a.journalReferences analysis.journal
  let store := locations.foldl (fun store l => store.mark l.position 1 Cdl.data) analysis.store
  ⟨{ analysis with store }, [.referencesMarked locations.length], .ok locations.length⟩

end Analyzer

end BankTrace
