import BankTrace.Proofs.CommandLine.Looking
import BankTrace.Proofs.Trace.Configuration
import BankTrace.Proofs.Trace.Safety

/-!
# How the job fails

Everything that can be wrong with the configuration is found before the first traversal, since the
snapshots that are chosen by then are admitted and stay so: those of the runs, and those of the
journal in which references are looked up. From the writing of the logs on, only the storage can
fail.
-/

namespace BankTrace

/-! ## Snapshots that stay admitted -/

/-- Requests that leave journals of admitted snapshots leave one together. -/
theorem Answer.admits_bind {α β : Type} {answer : Answer α} {next : Analysis → α → Answer β}
    {set : BankSet} (first : Checked.Admits set answer.analysis.journal.chapters)
    (second : ∀ analysis a, Checked.Admits set analysis.journal.chapters →
      Checked.Admits set (next analysis a).analysis.journal.chapters) :
    Checked.Admits set (answer.bind next).analysis.journal.chapters := by
  cases found : answer.result with
  | error e =>
    rw [bind_of_error _ found]
    exact first
  | ok a =>
    rw [bind_of_ok _ found]
    exact second answer.analysis a first

namespace Analyzer

section

variable {a : Analyzer} {snapshot : Snapshot} {map : MemoryMap} {before : Analysis}

/-- A traversal under a snapshot that the banks admit leaves a journal of such snapshots. -/
theorem admits_traverse (valid : MemoryMap.ofSnapshot a.banks snapshot = .ok map)
    (admitted : Checked.Admits a.banks before.journal.chapters) (start : Start) (workers : Int)
    (limit : Option Int) :
    Checked.Admits a.banks
      (a.traverse before snapshot start workers limit).analysis.journal.chapters :=
  Checked.admits_record valid admitted _

/-- A run under a snapshot that the banks admit leaves a journal of such snapshots. -/
theorem admits_run (valid : MemoryMap.ofSnapshot a.banks snapshot = .ok map)
    (admitted : Checked.Admits a.banks before.journal.chapters) (entries : List Int)
    (workers : Int) (limit : Option Int) :
    Checked.Admits a.banks
      (a.run before snapshot entries workers limit).analysis.journal.chapters := by
  refine Answer.admits_bind admitted fun analysis _ known => ?_
  refine Answer.admits_bind ?_ fun _ start prepared => ?_
  · rw [a.journal_prepare]
    exact known
  · exact admits_traverse valid prepared start workers limit

end

end Analyzer

/-- The coverage of banks that cannot be told is an access outside a log. -/
theorem Coverage.failsOnly_ofSet (store : Cdl.Store) (set : BankSet) :
    FailsOnly Error.IsStorage (ofSet store set) := by
  have count : ∀ path mask start size,
      FailsOnly Error.IsStorage (store.count path mask start size) :=
    fun path mask start size => (store.failsOnly_file path).bind fun _ _ => .ok _
  unfold ofSet ofBank
  refine .mapM fun b _ => ?_
  refine (count _ _ _ _).bind fun code _ => ?_
  refine (count _ _ _ _).bind fun data _ => ?_
  exact (count _ _ _ _).bind fun marked _ => .ok _

namespace CommandLine

namespace Options

/-- Every snapshot that is chosen is admitted: a bank that is named is mapped alone, if it is not
mapped anyway. -/
theorem admitted_of_chosen {o : Options} {set : BankSet} {chosen : List Snapshot}
    (done : o.snapshots set = .ok chosen) :
    ∀ s ∈ chosen, ∃ map, MemoryMap.ofSnapshot set s = .ok map := by
  have all : ∀ s ∈ set.snapshots, ∃ map, MemoryMap.ofSnapshot set s = .ok map := by
    intro s member
    obtain ⟨map, valid, _⟩ := MemoryMap.ofSnapshot_of_mem_snapshots member
    exact ⟨map, valid⟩
  have named : ∀ given s, snapshotOf set given = .ok s →
      ∃ map, MemoryMap.ofSnapshot set s = .ok map := by
    intro given s found
    unfold snapshotOf at found
    split at found
    · contradiction
    · split at found
      · contradiction
      case h_2 b known =>
        obtain rfl := Except.ok.inj found
        split
        · obtain ⟨map, valid, _⟩ := MemoryMap.ofSnapshot_bare set 0
          exact ⟨map, valid⟩
        case isFalse unfixed =>
          have member : b ∈ set.switchable := BankSet.mem_switchable.mpr
            ⟨List.mem_of_find?_eq_some known, Bool.eq_false_iff.mpr unfixed⟩
          obtain ⟨map, valid, _⟩ := MemoryMap.ofSnapshot_single member 0
          exact ⟨map, valid⟩
  unfold snapshots at done
  split at done
  · exact Except.ok.inj done ▸ all
  · exact Except.ok.inj done ▸ all
  · intro s member
    obtain ⟨given, _, found⟩ := exists_request_of_mapM done member
    exact named given s found

/-- A number of workers that cannot be used is no configuration error. -/
theorem noConfigError_workerCount (o : Options) : NoConfigError o.workerCount := by
  unfold workerCount
  split
  · exact (Analyzer.noConfigError_checkWorkers _).map _
  · exact .error fun _ => nofun

end Options

/-! ## How parts of the job end -/

namespace Job

variable {α β : Type}

/-- From whatever desk a part of the job starts, what it finds has a property, and so has the error
that it ends with instead. -/
structure Ends (job : Job α) (finds : α → Prop) (errors : Error → Prop) : Prop where
  /-- The property of what is found. -/
  found : ∀ desk a after, job desk = .ok a after → finds a
  /-- The property of the error. -/
  failed : ∀ desk e after, job desk = .error e after → errors e

variable {job : Job α} {next : α → Job β} {finds : α → Prop} {finds' : β → Prop}
  {errors : Error → Prop}

/-- Two parts end, one after the other, like the second one or with an error of the first one. -/
theorem Ends.bind (first : Ends job finds errors)
    (second : ∀ a, finds a → Ends (next a) finds' errors) : Ends (job >>= next) finds' errors := by
  constructor
  case found =>
    intro desk b last ended
    rcases bind_cases job next desk with ⟨e, after, _, ends⟩ | ⟨a, after, done, goes⟩
    · rw [ends] at ended
      contradiction
    · rw [goes] at ended
      exact (second a (first.found desk a after done)).found after b last ended
  case failed =>
    intro desk e last ended
    rcases bind_cases job next desk with ⟨e', after, failed, ends⟩ | ⟨a, after, done, goes⟩
    · rw [ends] at ended
      obtain ⟨rfl, rfl⟩ := EStateM.Result.error.inj ended
      exact first.failed desk _ _ failed
    · rw [goes] at ended
      exact (second a (first.found desk a after done)).failed after e last ended

/-- More errors may be allowed. -/
theorem Ends.mono (ends : Ends job finds errors) {others : Error → Prop}
    (more : ∀ e, errors e → others e) : Ends job finds others :=
  ⟨ends.found, fun desk e after failed => more e (ends.failed desk e after failed)⟩

/-- A part that comes to its end from whatever desk ends with no error. -/
theorem ends_of_ok (each : ∀ desk, ∃ a after, job desk = .ok a after ∧ finds a) :
    Ends job finds errors where
  found := by
    intro desk a after done
    obtain ⟨b, other, same, known⟩ := each desk
    rw [done] at same
    obtain ⟨rfl, _⟩ := EStateM.Result.ok.inj same
    exact known
  failed := by
    intro desk e after failed
    obtain ⟨b, other, same, _⟩ := each desk
    rw [failed] at same
    contradiction

/-- An answer that is known ends in itself. -/
theorem ends_pure {a : α} (known : finds a) : Ends (pure a) finds errors :=
  ends_of_ok fun desk => ⟨a, desk, rfl, known⟩

/-- To change the desk ends with no error. -/
theorem ends_modify (change : Desk → Desk) :
    Ends (modify change : Job PUnit) (fun _ => True) errors :=
  ends_of_ok fun desk => ⟨.unit, change desk, rfl, trivial⟩

/-- To look at the desk ends with no error. -/
theorem ends_get : Ends (get : Job Desk) (fun _ => True) errors :=
  ends_of_ok fun desk => ⟨desk, desk, rfl, trivial⟩

/-- To require an answer ends with its error. -/
theorem ends_require {answer : Except Error α} (fails : FailsOnly errors answer) :
    Ends (require answer) (fun _ => True) errors := by
  cases answer with
  | ok a => exact ends_pure trivial
  | error e =>
    refine ⟨fun _ _ _ _ => trivial, ?_⟩
    intro desk e' after ended
    have same : EStateM.Result.error e desk = EStateM.Result.error e' after := ended
    obtain ⟨rfl, _⟩ := EStateM.Result.error.inj same
    exact fails e rfl

/-- To require an answer of the file system ends with an error of the storage. -/
theorem ends_requireFile (answer : Except FileError α) :
    Ends (requireFile answer) (fun _ => True) Error.IsStorage := by
  apply ends_require
  cases answer with
  | ok a => exact .ok a
  | error e => exact .error trivial

/-- To tell the user something ends with no error. -/
theorem ends_tell (o : Options) (lines : List String) :
    Ends (o.tell lines) (fun _ => True) errors := by
  have each : Ends (lines.forM print) (fun _ => True) errors := by
    induction lines with
    | nil => exact ends_pure trivial
    | cons line rest ih => exact (ends_modify _).bind fun _ _ => ih
  unfold Options.tell
  split
  · exact each
  · exact ends_pure trivial

/-- To write the logs ends with an error of the storage at most. -/
theorem ends_writeLogs (o : Options) (s : Cdl.Store) :
    Ends (writeLogs o s) (fun _ => True) Error.IsStorage := by
  unfold writeLogs
  split
  · exact (ends_tell o _).bind fun _ _ => ends_pure trivial
  · refine (ends_tell o _).bind fun _ _ => ?_
    refine ends_get.bind fun desk _ => ?_
    refine (ends_modify _).bind fun _ _ => ?_
    refine (ends_modify _).bind fun _ _ => ?_
    refine (ends_requireFile _).bind fun paths _ => ?_
    exact (ends_tell o _).bind fun _ _ => ends_pure trivial

/-- The second stage ends with an error of the storage at most. -/
theorem ends_conclude (o : Options) (findings : Findings) (timing : Summary.Timing) :
    Ends (conclude o findings timing) (fun _ => True) Error.IsStorage := by
  have summary : ∀ rows,
      Ends (writeSummary o findings rows timing) (fun _ => True) Error.IsStorage := by
    intro rows
    unfold writeSummary
    split
    · exact ends_pure trivial
    · refine ends_get.bind fun desk _ => ?_
      refine (ends_modify _).bind fun _ _ => ?_
      refine (ends_requireFile _).bind fun _ _ => ?_
      exact ends_modify _
  unfold conclude
  refine (ends_require (Coverage.failsOnly_ofSet _ _)).bind fun rows _ => ?_
  refine (summary rows).bind fun _ _ => ?_
  refine (ends_tell o _).bind fun _ _ => ?_
  exact ends_modify _

section

variable {a : Analyzer} {snapshot : Snapshot} {map : MemoryMap}

/-- A traversal under a snapshot that the banks admit meets no configuration error. -/
theorem noConfigError_traverseOne (o : Options)
    (valid : MemoryMap.ofSnapshot a.banks snapshot = .ok map) (before : Analysis) :
    NoConfigError (traverseOne o a before snapshot).result := by
  unfold traverseOne
  refine Answer.noConfigError_bind o.noConfigError_workerCount fun analysis workers => ?_
  split
  · refine Answer.noConfigError_bind (a.noConfigError_seed valid analysis []) fun _ _ => ?_
    exact .error fun _ => nofun
  · split
    · exact a.noConfigError_run valid analysis _ workers none
    · exact a.noConfigError_run valid analysis _ workers _
    · refine Answer.noConfigError_bind (a.noConfigError_prepare valid analysis _) fun _ start => ?_
      split
      · exact .ok _
      · exact .error fun _ => nofun

/-- A traversal under a snapshot that the banks admit leaves a journal of such snapshots. -/
theorem admits_traverseOne (o : Options)
    (valid : MemoryMap.ofSnapshot a.banks snapshot = .ok map) {before : Analysis}
    (admitted : Checked.Admits a.banks before.journal.chapters) :
    Checked.Admits a.banks (traverseOne o a before snapshot).analysis.journal.chapters := by
  unfold traverseOne
  refine Answer.admits_bind admitted fun analysis workers known => ?_
  split
  · refine Answer.admits_bind ?_ fun _ _ seeded => seeded
    rw [a.journal_seed]
    exact known
  · split
    · exact a.admits_run valid known _ workers none
    · exact a.admits_run valid known _ workers _
    · refine Answer.admits_bind ?_ fun analysis start prepared => ?_
      · rw [a.journal_prepare]
        exact known
      · split
        · exact a.admits_traverse valid prepared start workers none
        · exact prepared

/-- Traversals under snapshots that the banks admit end without a configuration error, and leave a
journal of such snapshots. -/
theorem ends_traverseEach (o : Options) {schedules : Nat → Schedule} {before : Analysis}
    {snapshots : List Snapshot}
    (valid : ∀ s ∈ snapshots, ∃ map, MemoryMap.ofSnapshot a.banks s = .ok map)
    (admitted : Checked.Admits a.banks before.journal.chapters) :
    Ends (traverseEach o a schedules before snapshots)
      (fun found => Checked.Admits a.banks found.1.journal.chapters) Error.NotConfig := by
  induction snapshots generalizing before with
  | nil => exact ends_pure admitted
  | cons s rest ih =>
    obtain ⟨map, here⟩ := valid s List.mem_cons_self
    have later := fun t member => valid t (List.mem_cons_of_mem s member)
    let scheduled : Analyzer := { a with schedule := schedules rest.length }
    have answered := noConfigError_traverseOne (a := scheduled) o here before
    have left := admits_traverseOne (a := scheduled) o here admitted
    unfold traverseEach
    refine (ends_modify _).bind fun _ _ => ?_
    refine (ends_require answered).bind fun result _ => ?_
    refine (ends_tell o _).bind fun _ _ => ?_
    exact (ih later left).bind fun found known => ends_pure known

/-- The traversals under snapshots that the banks admit end without a configuration error, and leave
a journal of such snapshots. -/
theorem ends_traverse (o : Options) {schedules : Nat → Schedule} {s : Cdl.Store}
    {snapshots : List Snapshot}
    (valid : ∀ s ∈ snapshots, ∃ map, MemoryMap.ofSnapshot a.banks s = .ok map) :
    Ends (traverse o a schedules s snapshots)
      (fun found => Checked.Admits a.banks found.1.journal.chapters) Error.NotConfig := by
  refine (ends_tell o _).bind fun _ _ => ends_traverseEach o valid ?_
  intro chapter absurdity
  contradiction

/-- Marking data references ends with no error. -/
theorem ends_markReferences {errors : Error → Prop} (o : Options) (a : Analyzer)
    (before : Analysis) : Ends (markReferences o a before) (fun _ => True) errors := by
  unfold markReferences
  split
  · refine (ends_tell o _).bind fun _ _ => ?_
    refine (ends_modify _).bind fun _ _ => ?_
    refine (ends_require (.ok _)).bind fun count _ => ?_
    exact (ends_tell o _).bind fun _ _ => ends_pure trivial
  · exact ends_pure trivial

end

/-- The last part of the first stage ends with an error of the storage at most. -/
theorem ends_save (o : Options) (p : Plan) (found : Analysis × List Result × Option Nat) :
    Ends (save o p found) (fun _ => True) Error.IsStorage :=
  (ends_writeLogs o found.1.store).bind fun _ _ => ends_pure trivial

/-- Once the first traversal is to start, the first stage ends without a configuration error. -/
theorem ends_behind_setUp (o : Options) {schedules : Nat → Schedule} {p : Plan}
    (valid : ∀ s ∈ p.snapshots, ∃ map, MemoryMap.ofSnapshot p.set s = .ok map) :
    Ends (trace o schedules p >>= save o p) (fun _ => True) Error.NotConfig := by
  have traced : Ends (trace o schedules p) (fun _ => True) Error.NotConfig := by
    refine (ends_traverse o valid).bind fun found _ => ?_
    exact (ends_markReferences o _ _).bind fun _ _ => ends_pure trivial
  exact traced.bind fun found _ => (ends_save o p found).mono fun _ storage => storage.notConfig

end Job

/-! ## The error of the whole job -/

namespace Options

/-- The error that the job ends with, if there is one. -/
def failure? (platform : Platform) (o : Options) (timing : Summary.Timing)
    (schedules : Nat → Schedule) (fs : FileSystem) : Option Error :=
  match o.start platform schedules fs with
  | .error e _ => some e
  | .ok findings desk =>
    match Job.conclude o findings timing desk with
    | .error e _ => some e
    | .ok _ _ => none

/-- The exit code tells whether the job ends with an error, and whether the user can mend it. -/
theorem exitCode_perform (platform : Platform) (o : Options) (timing : Summary.Timing)
    (schedules : Nat → Schedule) (fs : FileSystem) :
    (o.perform platform timing schedules fs).exitCode =
      match o.failure? platform timing schedules fs with
      | none => 0
      | some e => if e.isExpected then 1 else 2 := by
  have ending : ∀ e desk, (Ending.ofJob platform o (.error e desk)).exitCode =
      if e.isExpected then 1 else 2 := by
    intro e desk
    cases expected : e.isExpected <;> simp [Ending.ofJob, expected]
  unfold perform finish failure?
  cases o.start platform schedules fs with
  | error e desk => exact ending e desk
  | ok findings desk =>
    dsimp only
    unfold EStateM.run
    cases Job.conclude o findings timing desk with
    | error e after => exact ending e after
    | ok a after => rfl

/-- Once everything is set up, the first stage goes on from there. -/
theorem start_of_setUp {platform : Platform} {o : Options} (schedules : Nat → Schedule)
    {fs : FileSystem} {p : Plan} {desk : Desk} (done : Job.setUp platform o { fs } = .ok p desk) :
    o.start platform schedules fs = (Job.trace o schedules p >>= Job.save o p) desk := by
  have parts : o.start platform schedules fs =
      (Job.setUp platform o >>= fun p => Job.trace o schedules p >>= Job.save o p) { fs } :=
    congrArg (fun job => job { fs }) (Job.analyse_eq platform o schedules)
  rw [parts, Job.bind_of_ok _ done]

/-- The job ends with the error of its first stage, or with one of the storage. -/
theorem start_of_failure {platform : Platform} {o : Options} {timing : Summary.Timing}
    {schedules : Nat → Schedule} {fs : FileSystem} {e : Error}
    (failed : o.failure? platform timing schedules fs = some e) :
    (∃ desk, o.start platform schedules fs = .error e desk) ∨ e.IsStorage := by
  unfold failure? at failed
  cases started : o.start platform schedules fs with
  | error e' desk =>
    rw [started] at failed
    obtain rfl := Option.some.inj failed
    exact .inl ⟨desk, rfl⟩
  | ok findings desk =>
    rw [started] at failed
    dsimp only at failed
    split at failed
    case h_1 e' after ended =>
      obtain rfl := Option.some.inj failed
      exact .inr ((Job.ends_conclude o findings timing).failed desk _ after ended)
    · contradiction

/-- Once the first traversal is to start, the job ends without a configuration error. -/
theorem notConfig_of_setUp {platform : Platform} {o : Options} {timing : Summary.Timing}
    {schedules : Nat → Schedule} {fs : FileSystem} {p : Plan} {desk : Desk}
    (done : Job.setUp platform o { fs } = .ok p desk) {e : Error}
    (failed : o.failure? platform timing schedules fs = some e) : e.NotConfig := by
  obtain ⟨_, chosen, _⟩ := (Job.looksAt_setUp platform fs o).found { fs } p desk rfl done
  rcases start_of_failure failed with ⟨after, started⟩ | storage
  · rw [start_of_setUp schedules done] at started
    exact (Job.ends_behind_setUp o (admitted_of_chosen chosen)).failed desk e after started
  · exact storage.notConfig

end Options

end CommandLine

end BankTrace
