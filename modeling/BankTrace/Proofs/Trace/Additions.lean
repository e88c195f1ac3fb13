import BankTrace.Proofs.Cdl.Disk
import BankTrace.Proofs.Trace.Effect

/-!
# What requests add to a store

A request to an analysis adds marks to the logs in memory, and that is all it does to their bytes,
whatever the banks are and however the request ends. It also writes none of them to disk, so nothing
that happens says that a log is written.
-/

namespace BankTrace

namespace Cdl.Store

/-- A store has become another one by marks. The claims may have changed as well. -/
def IsMarked (before after : Store) : Prop :=
  ∃ marks claims, after = { before.markAll marks with claims }

namespace IsMarked

variable {before middle after : Store}

/-- Without any mark a store is what it was, but for its claims. -/
theorem of_claims (s : Store) (claims : Registry Position) : s.IsMarked { s with claims } :=
  ⟨[], claims, rfl⟩

/-- A store that is marked twice has been marked. -/
theorem trans (first : before.IsMarked middle) (second : middle.IsMarked after) :
    before.IsMarked after := by
  obtain ⟨early, claims, rfl⟩ := first
  obtain ⟨late, claims', rfl⟩ := second
  refine ⟨early ++ late, claims', ?_⟩
  rw [markAll_with_claims, markAll_append]

/-- A store is marked by a list of marks. -/
theorem of_markAll (s : Store) (marks : List Mark) : s.IsMarked (s.markAll marks) :=
  ⟨marks, (s.markAll marks).claims, rfl⟩

/-- Marks change nothing of what was last read. -/
theorem reading_eq (marked : before.IsMarked after) : after.reading = before.reading := by
  obtain ⟨marks, claims, rfl⟩ := marked
  exact reading_markAll before marks

/-- A store that is marked has the paths that it had. -/
theorem paths_eq (marked : before.IsMarked after) : after.paths = before.paths :=
  paths_congr marked.reading_eq

end IsMarked

/-- What is written in a sequence of events is written in its parts. -/
@[simp] theorem writtenIn_append (left right : List Event) :
    writtenIn (left ++ right) = writtenIn left ++ writtenIn right :=
  List.filterMap_append

/-- Nothing is written in events none of which says so. -/
theorem writtenIn_flatMap {α : Type} {list : List α} {events : α → List Event}
    (each : ∀ a ∈ list, writtenIn (events a) = []) : writtenIn (list.flatMap events) = [] := by
  unfold writtenIn
  rw [List.filterMap_flatMap, List.flatMap_eq_nil_iff]
  exact each

end Cdl.Store

open Cdl.Store (writtenIn writtenIn_append writtenIn_flatMap)

namespace MemoryMap

/-- Nothing is written when a vector is read. -/
theorem writtenIn_readVector (map : MemoryMap) (vector : Int) :
    writtenIn (map.readVector vector).1 = [] := by
  unfold readVector
  cases map.resolve vector with
  | none => rfl
  | some location =>
    dsimp only
    cases location.word? with
    | some handler => cases location.bank.fixed <;> rfl
    | none => cases location.bank.fixed <;> rfl

/-- Nothing is written when handlers are read. -/
theorem writtenIn_handlers (map : MemoryMap) (interrupts : List Interrupt) :
    writtenIn (map.handlers interrupts).1 = [] := by
  induction interrupts with
  | nil => rfl
  | cons interrupt rest ih =>
    have first := map.writtenIn_readVector interrupt.vector
    unfold handlers
    cases answer : map.readVector interrupt.vector with
    | mk seen handler =>
    rw [answer] at first
    cases handler with
    | none =>
      dsimp only
      rw [writtenIn_append, first, ih]
      rfl
    | some handler =>
      dsimp only
      rw [writtenIn_append, first]
      exact ih

end MemoryMap

namespace Scene

/-- Nothing is written when an instruction is inspected. -/
theorem writtenIn_inspect (scene : Scene) (addr : Int) (location : Location) :
    writtenIn (scene.inspect addr location).events = [] := by
  have onward : ∀ insn : Instruction, writtenIn (insn.successors scene.map).1 = [] := by
    intro insn
    unfold Instruction.successors Instruction.loadedSuccessors
    cases insn.staticSuccessors? with
    | some addrs => rfl
    | none =>
      cases insn.flow with
      | softwareInterrupt => exact scene.map.writtenIn_readVector _
      | _ => rfl
  unfold inspect
  cases Instruction.decode (location.bytes 3) addr (some scene.space) with
  | error e => rfl
  | ok insn =>
    dsimp only
    cases scene.refusal? addr insn location.bank.name with
    | some reason => rfl
    | none => exact onward insn

/-- Nothing is written by a traversal. -/
theorem writtenIn_run (scene : Scene) (order : Order) (schedule : Schedule) (starts : List Int)
    (limit : Option Int) :
    writtenIn ((Traversal.run scene order schedule starts limit).outcomes.flatMap
      Outcome.events) = [] := by
  have begun := Traversal.consistent_start scene (Worklist.toList_ofList_perm order starts)
  have consistent :
      Traversal.Consistent scene starts (Traversal.run scene order schedule starts limit) :=
    begun.leads (Traversal.leads_advance ..)
  apply writtenIn_flatMap
  intro outcome member
  obtain ⟨v, visited, rfl⟩ := List.mem_map.mp member
  cases consistent.explained v (List.mem_reverse.mp visited) with
  | discarded => rfl
  | skipped => rfl
  | inspected => exact scene.writtenIn_inspect _ _

end Scene

namespace Answer

variable {α β : Type}

/-- An answer only adds to the analysis that was asked. -/
structure AddsTo (answer : Answer α) (before : Analysis) : Prop where
  /-- Its logs are marked. -/
  marked : before.store.IsMarked answer.analysis.store
  /-- None of them is written. -/
  unwritten : writtenIn answer.events = []

/-- An answer that leaves the analysis as it is adds to it. -/
theorem addsTo_ofExcept (before : Analysis) (result : Except Error α) :
    (ofExcept before result).AddsTo before :=
  ⟨.of_claims before.store before.store.claims, rfl⟩

/-- What adds and goes on with what adds has added. -/
theorem AddsTo.bind {answer : Answer α} {before : Analysis} {next : Analysis → α → Answer β}
    (first : answer.AddsTo before)
    (second : ∀ a, answer.result = .ok a → (next answer.analysis a).AddsTo answer.analysis) :
    (answer.bind next).AddsTo before := by
  cases given : answer.result with
  | error e =>
    rw [bind_of_error next given]
    exact ⟨first.marked, first.unwritten⟩
  | ok a =>
    have behind := second a given
    rw [bind_of_ok next given]
    refine ⟨first.marked.trans behind.marked, ?_⟩
    dsimp only
    rw [writtenIn_append, first.unwritten, behind.unwritten]
    rfl

end Answer

namespace Analyzer

variable (a : Analyzer) (before : Analysis) (snapshot : Snapshot) (entries : List Int)

/-- Seeds are found by adding marks. -/
theorem addsTo_seedIn (map : MemoryMap) (s : Cdl.Store) :
    s.IsMarked (a.seedIn map s entries).1 ∧ writtenIn (a.seedIn map s entries).2.1 = [] := by
  constructor
  · obtain ⟨marks, events, result, seeded⟩ := a.exists_seedIn s map entries
    rw [seeded s (.of_reading rfl)]
    exact .of_markAll s marks
  · have warned : ∀ (s : Cdl.Store) (handlers : List (Interrupt × Nat)),
        writtenIn (a.markHandlers map s handlers).2.1 = [] := by
      intro s handlers
      induction handlers generalizing s with
      | nil => rfl
      | cons pair rest ih =>
        obtain ⟨interrupt, handler⟩ := pair
        unfold markHandlers
        cases markEach s Cdl.data (map.vectorLocations interrupt) with
        | mk marked answer =>
        cases answer with
        | error e => rfl
        | ok _ =>
          dsimp only
          rw [writtenIn_append, ih marked]
          split <;> rfl
    unfold seedIn
    dsimp only
    rw [writtenIn_append, map.writtenIn_handlers, warned]
    rfl

/-- Asking for seeds adds to an analysis. -/
theorem addsTo_seed : (a.seed before snapshot entries).AddsTo before := by
  have nothing := Cdl.Store.IsMarked.of_claims before.store before.store.claims
  unfold seed
  split
  · exact ⟨nothing, rfl⟩
  · cases MemoryMap.ofSnapshot a.banks snapshot with
    | error e => exact ⟨nothing, rfl⟩
    | ok map =>
      have seeded := a.addsTo_seedIn entries map before.store
      exact ⟨seeded.1, seeded.2⟩

/-- Preparing a run adds to an analysis. -/
theorem addsTo_prepare : (a.prepare before snapshot entries).AddsTo before := by
  have reset := Cdl.Store.IsMarked.of_claims before.store .empty
  unfold prepare
  cases MemoryMap.ofSnapshot a.banks snapshot with
  | error e => exact ⟨reset, rfl⟩
  | ok map =>
    have seeded := a.addsTo_seedIn entries map before.store.resetClaims
    exact ⟨reset.trans seeded.1, seeded.2⟩

/-- What a traversal leaves behind is added to an analysis. -/
theorem addsTo_conclude (start : Start) (workers : Int) (limit : Option Int) {t : Traversal}
    (visited : writtenIn (t.outcomes.flatMap Outcome.events) = []) :
    (conclude before snapshot start workers limit t).AddsTo before := by
  unfold conclude
  constructor
  · dsimp only
    rw [markCode_eq]
    exact (Cdl.Store.IsMarked.of_claims before.store t.claims).trans (.of_markAll ..)
  · have warned : writtenIn (limitWarning t workers limit) = [] := by
      unfold limitWarning
      cases limit with
      | none => rfl
      | some limit =>
        dsimp only
        split <;> rfl
    dsimp only
    rw [writtenIn_append, writtenIn_append, warned]
    change writtenIn (t.outcomes.flatMap Outcome.events) ++ [] ++ [] = []
    rw [visited]
    rfl

/-- A traversal adds to an analysis. -/
theorem addsTo_traverse (start : Start) (workers : Int) (limit : Option Int) :
    (a.traverse before snapshot start workers limit).AddsTo before :=
  addsTo_conclude before snapshot start workers limit (Scene.writtenIn_run ..)

/-- A run adds to an analysis, with any number of workers. -/
theorem addsTo_run (workers : Int) (limit : Option Int) :
    (a.run before snapshot entries workers limit).AddsTo before := by
  apply (Answer.addsTo_ofExcept before _).bind
  intro _ _
  apply (a.addsTo_prepare before snapshot entries).bind
  intro start _
  exact a.addsTo_traverse _ snapshot start workers limit

/-- What the journal refers to is marked as data, byte by byte. -/
theorem store_markReferences : (a.markReferences before).analysis.store =
    before.store.markAll ((a.journalReferences before.journal).map fun l =>
      ⟨l.position, 1, Cdl.data⟩) := by
  unfold markReferences Cdl.Store.markAll
  rw [List.foldl_map]

/-- Marking data references adds to an analysis. -/
theorem addsTo_markReferences : (a.markReferences before).AddsTo before := by
  refine ⟨?_, rfl⟩
  rw [store_markReferences]
  exact .of_markAll ..

end Analyzer

end BankTrace
