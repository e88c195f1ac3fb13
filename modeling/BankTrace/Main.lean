import BankTrace.CommandLine.Job

/-!
# The program

The program reads from disk what a job can ask for, does the job on that value, and brings the disk
to the state that the job leaves. A file is written beside its place and then moved there, so that
no reader finds half of it. Where several workers are asked for, their visits are made one after the
other in the order of the worklist, which is one way in which the workers can come to make them.
-/

namespace BankTrace.Disk

/-- The name of a place on disk. -/
def name (place : Place) : String := "/" ++ "/".intercalate place

/-- What is at a place on disk. -/
def node? (place : Place) : IO (Option Node) := do
  try
    let found ← IO.FS.realPath (name place)
    if ← found.isDir then return some .directory
    return some (.file (← IO.FS.readBinFile found).data)
  catch e =>
    match e with
    | .noFileOrDirectory .. => return none
    | _ => throw e

/-- Read the places that a path leads through. -/
def readTrail (fs : FileSystem) : List Place → IO FileSystem
  | [] => return fs
  | place :: rest => do
    match fs.node? place with
    | some .directory => readTrail fs rest
    | some (.file _) => return fs
    | none =>
      match ← node? place with
      | none => return fs
      | some node => readTrail (fs.put place node) rest

/-- Read what some paths lead to. -/
def readPaths (fs : FileSystem) (paths : List Path) : IO FileSystem :=
  paths.foldlM (fun fs path => readTrail fs (FileSystem.trail (fs.origin path.root) path.names)) fs

/-- The file system of a job, as far as the job can ask for it. -/
def load (o : CommandLine.Options) : IO FileSystem := do
  let home := (Path.ofString (← IO.currentDir).toString).names
  let fs ← readPaths { home } (o.manifestPath :: o.summaryPath?.toList)
  readPaths fs (o.bankPaths .standard fs)

/-- Put a node at a place on disk. -/
def write (place : Place) : Node → IO Unit
  | .directory => IO.FS.createDirAll (name place)
  | .file bytes => do
    let beside := name place ++ ".part"
    IO.FS.writeBinFile beside ⟨bytes⟩
    IO.FS.rename beside (name place)

/-- Bring the disk from one state to another. -/
def store (before after : FileSystem) : IO Unit :=
  after.nodes.forM fun (place, node) =>
    if before.node? place = some node then pure () else write place node

/-- Print what is said at an end, and give the exit code. -/
def report (ending : CommandLine.Ending) : IO UInt32 := do
  IO.print ending.output
  IO.eprint ending.errors
  return ending.exitCode.toUInt32

/-- Do a job on disk and give its exit code. -/
def perform (o : CommandLine.Options) : IO UInt32 := do
  let began ← IO.monoMsNow
  let before ← load o
  let analysed ← IO.lazyPure fun _ => o.start .standard (fun _ => .inOrder) before
  let took := (← IO.monoMsNow) - began
  let traversals := match analysed with
    | .ok findings _ => findings.results.length
    | .error _ _ => 0
  let ending := o.finish .standard (.ofMilliseconds took traversals) analysed
  store before ending.fs
  report ending

end BankTrace.Disk

open BankTrace.CommandLine in
/-- Follow a command line. -/
def main (words : List String) : IO UInt32 := do
  match Options.ofWords words with
  | .error stop => BankTrace.Disk.report (.ofStop { home := [] } stop)
  | .ok o => BankTrace.Disk.perform o
