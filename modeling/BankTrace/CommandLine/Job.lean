import BankTrace.CommandLine.Usage
import BankTrace.Manifest
import BankTrace.Report.Statistics
import BankTrace.Report.Summary

/-!
# The job of the command line

The command line reads a manifest, loads the banks and their logs, traverses every snapshot that is
asked for, marks data references if that is asked for, writes the logs back, and reports. An error
ends the job where it occurs; what was printed and written until then stays. Errors that the user
can mend end with exit code 1, all others with 2. A switch that is left blank is an error only where
its value is needed; the directory of the summary never is.

The job has two stages, because the report tells how long the first one took. That, and what several
workers do in each of the traversals, is not in the hand of the job.
-/

namespace BankTrace.CommandLine

/-- What a job works on and leaves behind. -/
structure Desk where
  /-- The files. -/
  fs : FileSystem
  /-- The printed lines. -/
  printed : List String := []
  /-- What happened. -/
  events : List Event := []

/-- A part of the job; an error leaves the desk as it is by then. -/
abbrev Job := EStateM Error Desk

namespace Job

/-- Print a line. -/
def print (line : String) : Job Unit := modify fun d => { d with printed := d.printed ++ [line] }

/-- Record what happened. -/
def record (events : List Event) : Job Unit :=
  modify fun d => { d with events := d.events ++ events }

/-- An answer, or the error that ends the job. -/
def require {α : Type} : Except Error α → Job α
  | .ok a => pure a
  | .error e => throw e

/-- An answer of the file system, or the error that ends the job. -/
def requireFile {α : Type} (answer : Except FileError α) : Job α :=
  require (answer.mapError .file)

end Job

namespace Options

/-- The user wants to see what happens. -/
def isVerbose (o : Options) : Bool := o.verbosity > 0

/-- Print lines for a user who wants to see what happens. -/
def tell (o : Options) (lines : List String) : Job Unit :=
  if o.isVerbose then lines.forM Job.print else pure ()

/-- The path of the manifest. -/
def manifestPath (o : Options) : Path := Path.ofString o.manifest

/-- The path of the summary, if one is wanted. -/
def summaryPath? (o : Options) : Option Path :=
  match o.outputDir with
  | none | some .blank | some (.value "") => none
  | some (.value dir) => some ((Path.ofString dir).child "summary.json")

/-- The order of the traversals. -/
def chosenOrder (o : Options) : Except Error Order :=
  match o.order with
  | .value order => .ok order
  | .blank => .error (.blank .order)

/-- The snapshot that maps the bank of that name. -/
def snapshotOf (set : BankSet) : Given String → Except Error Snapshot
  | .blank => .error (.blank .bank)
  | .value name =>
    match set.get? name with
    | none => .error (.config (.unknownTarget name))
    | some b => .ok (if b.fixed then {} else .single b.toBank 0)

/-- The snapshots to traverse: those of the named banks, or all. -/
def snapshots (o : Options) (set : BankSet) : Except Error (List Snapshot) :=
  match o.banks with
  | none | some [] => .ok set.snapshots
  | some names => names.mapM (snapshotOf set)

/-- The number of workers, one at least. -/
def workerCount (o : Options) : Except Error Int :=
  match o.workers with
  | .value workers => (Analyzer.checkWorkers workers).map fun _ => workers
  | .blank => .error (.blank .workers)

/-- The settings of the manifest, under those of the command line. -/
def settings (o : Options) (m : Manifest) : Settings :=
  { m.settings with markDataRefs := o.dataRefs.getD m.settings.markDataRefs }

end Options

/-- What the first stage has found. -/
structure Findings where
  set : BankSet
  /-- The logs. -/
  store : Cdl.Store
  /-- The results of the traversals in their order. -/
  results : List Result
  /-- The number of data references, if they were marked. -/
  references : Option Nat
  /-- The log files that were written. -/
  written : List Path

namespace Job

/-- Read the manifest. -/
def readManifest (platform : Platform) (o : Options) : Job Manifest := do
  o.tell ["Phase 1: Loading manifest..."]
  let (events, answer) := Manifest.load platform (← get).fs o.manifestPath
  record events
  let m ← require answer
  o.tell
    ["  Manifest: " ++ o.manifestPath.toString,
      "  Regions: " ++ toString m.regions.length ++ "  Banks: " ++ toString m.banks.length]
  return m

/-- Load the banks and choose the snapshots. -/
def loadBanks (platform : Platform) (o : Options) (m : Manifest) :
    Job (BankSet × List Snapshot) := do
  o.tell ["", "Phase 2: Building address space and loading banks..."]
  let (events, answer) := BankSet.load platform.memory (← get).fs m.banks
  record events
  let set ← require answer
  let snapshots ← require (o.snapshots set)
  o.tell
    ["  Executable bytes: " ++ Numeral.grouped m.addressSpace.executableCount,
      "  Banks loaded: " ++ toString (set.banks.countP LoadedBank.isAnalyzable) ++ "/" ++
        toString set.banks.length]
  return (set, snapshots)

/-- Load the logs. -/
def loadLogs (platform : Platform) (o : Options) (m : Manifest) : Job Cdl.Store := do
  o.tell ["", "Phase 3: Loading CDL files..."]
  let blank ← require (Cdl.Store.forBanks platform.memory m.banks)
  let (store, events, answer) := blank.load (← get).fs
  record events
  requireFile answer
  o.tell (store.files.map fun (path, f) =>
    "  " ++ path.toString ++ " (" ++ Numeral.grouped f.size ++ " bytes)")
  return store

/-- The line about one traversal. -/
def resultLine (r : Result) : String :=
  "  " ++ r.snapshot.describe ++ ": " ++ Numeral.grouped r.accepted ++ " instructions (" ++
    Numeral.grouped r.steps ++ " steps, " ++ Numeral.grouped r.rejected ++ " rejected)"

/-- Traverse what can be reached under a snapshot. Blanks come to light one after the other: the
number of workers before the start, an address when the handlers are known, and the most steps when
the first step is to be made. -/
def traverseOne (o : Options) (a : Analyzer) (analysis : Analysis) (snapshot : Snapshot) :
    Answer Result :=
  (Answer.ofExcept analysis o.workerCount).bind fun analysis workers =>
    match Given.values? o.entries with
    | none =>
      (a.seed analysis snapshot []).bind fun analysis _ =>
        .ofExcept analysis (.error (.blank .entry))
    | some entries =>
      match o.maxSteps with
      | none => a.run analysis snapshot entries workers none
      | some (.value limit) => a.run analysis snapshot entries workers (some limit)
      | some .blank =>
        (a.prepare analysis snapshot entries).bind fun analysis start =>
          if start.addresses = [] then a.traverse analysis snapshot start workers none
          else .ofExcept analysis (.error (.blank .limit))

/-- Traverse snapshots one after the other. In the traversal behind which so many others come,
several workers visit the addresses as the schedule of that number says. -/
def traverseEach (o : Options) (a : Analyzer) (schedules : Nat → Schedule) (analysis : Analysis) :
    List Snapshot → Job (Analysis × List Result)
  | [] => return (analysis, [])
  | snapshot :: rest => do
    let answer := traverseOne o { a with schedule := schedules rest.length } analysis snapshot
    record answer.events
    let result ← require answer.result
    o.tell [resultLine result]
    let (analysis, results) ← traverseEach o a schedules answer.analysis rest
    return (analysis, result :: results)

/-- Traverse all chosen snapshots. -/
def traverse (o : Options) (a : Analyzer) (schedules : Nat → Schedule) (store : Cdl.Store)
    (snapshots : List Snapshot) : Job (Analysis × List Result) := do
  o.tell
    ["", "Phase 4: Traversing " ++ toString snapshots.length ++ " snapshot(s) (" ++ a.order.text ++
      ", " ++ o.workers.text toString ++ " worker(s))..."]
  traverseEach o a schedules { store } snapshots

/-- Mark data references, if the settings ask for it. -/
def markReferences (o : Options) (a : Analyzer) (analysis : Analysis) :
    Job (Analysis × Option Nat) := do
  if a.settings.markDataRefs then
    o.tell ["", "Phase 5: Marking data references..."]
    let answer := a.markReferences analysis
    record answer.events
    let count ← require answer.result
    o.tell ["  Data references: " ++ Numeral.grouped count]
    return (answer.analysis, some count)
  else
    return (analysis, none)

/-- Write the logs, unless the user wants none written. -/
def writeLogs (o : Options) (store : Cdl.Store) : Job (Cdl.Store × List Path) := do
  if o.dryRun then
    o.tell ["", "Phase 6: Dry run, CDL files left untouched"]
    return (store, [])
  else
    o.tell ["", "Phase 6: Writing CDL files..."]
    let (store, fs, events, answer) := store.flush (← get).fs
    modify fun d => { d with fs }
    record events
    let written ← requireFile answer
    o.tell (written.map fun path => "  Wrote " ++ path.toString)
    return (store, written)

/-- The first stage: everything up to the writing of the logs. -/
def analyse (platform : Platform) (o : Options) (schedules : Nat → Schedule) : Job Findings := do
  let order ← require o.chosenOrder
  let m ← readManifest platform o
  let (set, snapshots) ← loadBanks platform o m
  let store ← loadLogs platform o m
  let a : Analyzer := { space := m.addressSpace, banks := set, settings := o.settings m, order }
  let (analysis, results) ← traverse o a schedules store snapshots
  let (analysis, references) ← markReferences o a analysis
  let (store, written) ← writeLogs o analysis.store
  return { set, store, results, references, written }

/-- Write the summary, if one is wanted. -/
def writeSummary (o : Options) (f : Findings) (rows : List Coverage) (timing : Summary.Timing) :
    Job Unit :=
  match o.summaryPath? with
  | none => pure ()
  | some path => do
    let summary := Document.object
      (Summary.members f.results rows (some o.manifestPath.toString) f.written
        (f.references.map fun count => (count : Int)) (some timing))
    let (fs, answer) := (← get).fs.writeDeep path summary.toString.toUTF8.data
    modify fun d => { d with fs }
    requireFile answer
    record [.summaryWritten path]

/-- The second stage: the summary and the statistics. -/
def conclude (o : Options) (f : Findings) (timing : Summary.Timing) : Job Unit := do
  let rows ← require (Coverage.ofSet f.store f.set)
  writeSummary o f rows timing
  o.tell (Statistics.lines f.results rows ++ ["", "  Elapsed: " ++ timing.shown])
  print ("Done in " ++ timing.shown)

end Job

/-- How a job ends. -/
structure Ending where
  /-- The exit code. -/
  exitCode : Nat
  /-- What goes to standard output. -/
  output : String
  /-- What goes to standard error. -/
  errors : String
  /-- The files afterwards. -/
  fs : FileSystem

namespace Ending

/-- Lines with their ends. -/
def unlines (lines : List String) : String := String.join (lines.map (· ++ "\n"))

/-- The lines that a user with that level is shown. -/
def log (platform : Platform) (least : Level) (events : List Event) : List String :=
  (events.filter (Event.isShown least)).map (Event.line platform.disassembly)

/-- The end of a job that comes to its end, or to an error. -/
def ofJob (platform : Platform) (o : Options) : EStateM.Result Error Desk Unit → Ending
  | .ok () desk => ⟨0, unlines desk.printed, unlines (log platform (level o) desk.events), desk.fs⟩
  | .error e desk =>
    let (code, label) := if e.isExpected then (1, "Error: ") else (2, "Unexpected error: ")
    ⟨code, unlines desk.printed,
      unlines (log platform (level o) desk.events ++ [label ++ e.message]), desk.fs⟩
where
  /-- The least level that the user is shown. -/
  level (o : Options) : Level := Level.ofVerbosity o.verbosity

end Ending

namespace Options

/-- The paths of the banks' files, as far as a manifest can be read. -/
def bankPaths (platform : Platform) (o : Options) (fs : FileSystem) : List Path :=
  match (Manifest.load platform fs o.manifestPath).2 with
  | .ok m => m.banks.flatMap fun b => [b.file, b.cdl]
  | .error _ => []

/-- Do the first stage. -/
def start (platform : Platform) (o : Options) (schedules : Nat → Schedule) (fs : FileSystem) :
    EStateM.Result Error Desk Findings :=
  EStateM.run (Job.analyse platform o schedules) { fs }

/-- Go on from the end of the first stage to the end of the job; `timing` is what the report says
about time. -/
def finish (platform : Platform) (o : Options) (timing : Summary.Timing) :
    EStateM.Result Error Desk Findings → Ending
  | .ok findings desk => Ending.ofJob platform o (EStateM.run (Job.conclude o findings timing) desk)
  | .error e desk => Ending.ofJob platform o (.error e desk)

/-- Do the whole job. -/
def perform (platform : Platform) (o : Options) (timing : Summary.Timing)
    (schedules : Nat → Schedule) (fs : FileSystem) : Ending :=
  o.finish platform timing (o.start platform schedules fs)

end Options

/-- The end of a command line that asks for help or cannot be followed: no job is done. -/
def Ending.ofStop (fs : FileSystem) : Stop → Ending
  | .help => ⟨0, Usage.text, "", fs⟩
  | .usage e => ⟨2, "", Usage.synopsis ++ e.line, fs⟩

/-- Follow a command line. -/
def follow (platform : Platform) (words : List String) (timing : Summary.Timing)
    (schedules : Nat → Schedule) (fs : FileSystem) : Ending :=
  match Options.ofWords words with
  | .error stop => .ofStop fs stop
  | .ok o => o.perform platform timing schedules fs

end BankTrace.CommandLine
