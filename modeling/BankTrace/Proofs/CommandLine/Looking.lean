import BankTrace.CommandLine.Job
import BankTrace.Proofs.Cdl.Overwriting
import BankTrace.Proofs.Trace.Additions

/-!
# What the job only looks at

Until the logs are written the job only looks at the disk: whatever it finds there, and also when it
ends with an error, the disk stays as it is and no log is said to be written. What it has by then is
a store that was read from the disk and marked.
-/

namespace BankTrace

open Cdl.Store (writtenIn writtenIn_append writtenIn_flatMap)

/-! ## What is said while files are loaded -/

/-- No log is written while a manifest is read. -/
theorem Manifest.writtenIn_load (platform : Platform) (fs : FileSystem) (path : Path) :
    writtenIn (Manifest.load platform fs path).1 = [] := by
  unfold load
  cases fs.isFile path with
  | error e => rfl
  | ok found => cases found <;> rfl

namespace BankSet

/-- No log is written while image files are read. -/
theorem writtenIn_readImages (memory : Memory) (fs : FileSystem) (banks : List Bank) :
    writtenIn (readImages memory fs banks).1 = [] := by
  induction banks with
  | nil => rfl
  | cons b rest ih =>
    unfold readImages
    split
    · exact ih
    · exact ih
    · rfl

/-- No log is written while banks are given their images. -/
theorem writtenIn_ofImages {banks : List Bank} {image : String → Option (Array UInt8)}
    {set : BankSet} {events : List Event} (given : ofImages banks image = .ok (set, events)) :
    writtenIn events = [] := by
  have attached : ∀ (b : Bank) (image : Option (Array UInt8)),
      writtenIn (LoadedBank.attach b image).2 = [] := by
    intro b image
    unfold LoadedBank.attach
    split
    · rfl
    · split <;> rfl
  unfold ofImages at given
  split at given
  · contradiction
  · obtain ⟨_, rfl⟩ := Prod.mk.inj (Except.ok.inj given)
    apply writtenIn_flatMap
    intro pair member
    obtain ⟨b, _, rfl⟩ := List.mem_map.mp member
    exact attached b _

/-- No log is written while banks are loaded. -/
theorem writtenIn_load (memory : Memory) (fs : FileSystem) (banks : List Bank) :
    writtenIn (BankSet.load memory fs banks).1 = [] := by
  have read := writtenIn_readImages memory fs banks
  unfold load
  cases images : readImages memory fs banks with
  | mk events answer =>
  rw [images] at read
  cases answer with
  | error e => exact read
  | ok images =>
    dsimp only
    split
    · exact read
    case h_2 set attached given =>
      dsimp only
      rw [writtenIn_append, read, writtenIn_ofImages given]
      rfl

end BankSet

/-- No log is written while logs are read. -/
theorem Cdl.Store.writtenIn_load (s : Cdl.Store) (fs : FileSystem) :
    writtenIn (s.load fs).2.1 = [] := by
  have each : ∀ files : List (Path × Cdl.File), writtenIn (readFiles fs files).events = [] := by
    intro files
    induction files with
    | nil => rfl
    | cons entry rest ih =>
      obtain ⟨path, f⟩ := entry
      unfold readFiles
      cases fs.readOrEmpty path with
      | error e => rfl
      | ok bytes =>
        dsimp only
        rw [writtenIn_append, ih]
        split <;> rfl
  exact each s.files

namespace CommandLine

namespace Desk

/-- The desk at the end of a part of the job, or at the error that it ends with. -/
def ofResult {α : Type} : EStateM.Result Error Desk α → Desk
  | .ok _ desk => desk
  | .error _ desk => desk

/-- A desk is kept when its disk stays as it is and no log is said to be written. -/
structure Keeps (before after : Desk) : Prop where
  /-- The disk stays as it is. -/
  fs_eq : after.fs = before.fs
  /-- No log is said to be written. -/
  written_eq : writtenIn after.events = writtenIn before.events

/-- A desk that is left alone is kept. -/
theorem Keeps.refl (desk : Desk) : desk.Keeps desk := ⟨rfl, rfl⟩

/-- A desk that is kept twice is kept. -/
theorem Keeps.trans {before middle after : Desk} (first : before.Keeps middle)
    (second : middle.Keeps after) : before.Keeps after :=
  ⟨second.fs_eq.trans first.fs_eq, second.written_eq.trans first.written_eq⟩

end Desk

namespace Job

variable {α β : Type}

/-- A part that ends with an error is not gone on with; one that comes to its end is. -/
theorem bind_cases (job : Job α) (next : α → Job β) (desk : Desk) :
    (∃ e after, job desk = .error e after ∧ (job >>= next) desk = .error e after) ∨
      ∃ a after, job desk = .ok a after ∧ (job >>= next) desk = next a after := by
  have both : (job >>= next) desk = EStateM.bind job next desk := rfl
  rw [both]
  unfold EStateM.bind
  cases answer : job desk with
  | error e after => exact .inl ⟨e, after, rfl, rfl⟩
  | ok a after => exact .inr ⟨a, after, rfl, rfl⟩

/-- What comes behind a part that comes to its end goes on from there. -/
theorem bind_of_ok {job : Job α} (next : α → Job β) {desk after : Desk} {a : α}
    (done : job desk = .ok a after) : (job >>= next) desk = next a after := by
  rcases bind_cases job next desk with ⟨e, other, failed, _⟩ | ⟨b, other, same, goes⟩
  · rw [done] at failed
    contradiction
  · rw [done] at same
    obtain ⟨rfl, rfl⟩ := EStateM.Result.ok.inj same
    exact goes

/-- A part of the job only looks at a disk: it keeps the desk, also when it ends with an error. What
it finds has a property. -/
structure LooksAt (fs : FileSystem) (job : Job α) (finds : α → Prop) : Prop where
  /-- The desk is kept. -/
  keeps : ∀ desk : Desk, desk.fs = fs → desk.Keeps (Desk.ofResult (job desk))
  /-- The property. -/
  found : ∀ desk a after, desk.fs = fs → job desk = .ok a after → finds a

variable {fs : FileSystem} {job : Job α} {next : α → Job β} {finds : α → Prop} {finds' : β → Prop}

/-- Two parts that only look at a disk do so one after the other. -/
theorem LooksAt.bind (first : LooksAt fs job finds)
    (second : ∀ a, finds a → LooksAt fs (next a) finds') : LooksAt fs (job >>= next) finds' := by
  constructor
  case keeps =>
    intro desk here
    have kept := first.keeps desk here
    rcases bind_cases job next desk with ⟨e, after, failed, ends⟩ | ⟨a, after, done, goes⟩
    · rw [failed] at kept
      rw [ends]
      exact kept
    · rw [done] at kept
      have there : after.fs = fs := kept.fs_eq.trans here
      have behind := (second a (first.found desk a after here done)).keeps after there
      rw [goes]
      exact kept.trans behind
  case found =>
    intro desk b last here ended
    have kept := first.keeps desk here
    rcases bind_cases job next desk with ⟨e, after, failed, ends⟩ | ⟨a, after, done, goes⟩
    · rw [ends] at ended
      contradiction
    · rw [done] at kept
      have there : after.fs = fs := kept.fs_eq.trans here
      rw [goes] at ended
      exact (second a (first.found desk a after here done)).found after b last there ended

/-- Less may be said of what is found. -/
theorem LooksAt.mono (looks : LooksAt fs job finds) {less : α → Prop}
    (weaker : ∀ a, finds a → less a) : LooksAt fs job less :=
  ⟨looks.keeps, fun desk a after here done => weaker a (looks.found desk a after here done)⟩

/-- An answer that is known looks at nothing. -/
theorem looksAt_pure {a : α} (known : finds a) : LooksAt fs (pure a) finds where
  keeps := fun desk _ => .refl desk
  found := by
    intro desk b after _ done
    obtain ⟨rfl, _⟩ := EStateM.Result.ok.inj done
    exact known

/-- To look at the desk is to look at its disk. -/
theorem looksAt_get : LooksAt fs (get : Job Desk) fun desk => desk.fs = fs where
  keeps := fun desk _ => .refl desk
  found := by
    intro desk found after here done
    obtain ⟨rfl, _⟩ := EStateM.Result.ok.inj done
    exact here

/-- To require an answer is to look at nothing. -/
theorem looksAt_require (answer : Except Error α) :
    LooksAt fs (require answer) fun a => answer = .ok a := by
  cases answer with
  | ok a => exact looksAt_pure rfl
  | error e =>
    refine ⟨fun desk _ => .refl desk, ?_⟩
    intro desk a after _ done
    have differ : EStateM.Result.error e desk = EStateM.Result.ok a after := done
    contradiction

/-- To require an answer of the file system is to look at nothing. -/
theorem looksAt_requireFile (answer : Except FileError α) :
    LooksAt fs (requireFile answer) fun a => answer = .ok a := by
  apply (looksAt_require (answer.mapError .file)).mono
  intro a mapped
  cases answer with
  | ok b => exact congrArg Except.ok (Except.ok.inj mapped)
  | error e =>
    have differ : Except.error (Error.file e) = Except.ok a := mapped
    contradiction

/-- To record events is to look at nothing, if none of them says that a log is written. -/
theorem looksAt_record {events : List Event} (unwritten : writtenIn events = []) :
    LooksAt fs (record events) fun _ => True where
  keeps := by
    intro desk _
    refine ⟨rfl, ?_⟩
    show writtenIn (desk.events ++ events) = writtenIn desk.events
    rw [writtenIn_append, unwritten, List.append_nil]
  found := fun _ _ _ _ _ => trivial

/-- To print a line is to look at nothing. -/
theorem looksAt_print (line : String) : LooksAt fs (print line) fun _ => True :=
  ⟨fun _ _ => ⟨rfl, rfl⟩, fun _ _ _ _ _ => trivial⟩

/-- To tell the user something is to look at nothing. -/
theorem looksAt_tell (o : Options) (lines : List String) :
    LooksAt fs (o.tell lines) fun _ => True := by
  have each : LooksAt fs (lines.forM print) fun _ => True := by
    induction lines with
    | nil => exact looksAt_pure trivial
    | cons line rest ih => exact (looksAt_print line).bind fun _ _ => ih
  unfold Options.tell
  split
  · exact each
  · exact looksAt_pure trivial

/-! ## The stages of the job -/

/-- Reading the manifest only looks at the disk. -/
theorem looksAt_readManifest (platform : Platform) (fs : FileSystem) (o : Options) :
    LooksAt fs (readManifest platform o) fun m =>
      (Manifest.load platform fs o.manifestPath).2 = .ok m := by
  unfold readManifest
  refine (looksAt_tell o _).bind fun _ _ => ?_
  refine looksAt_get.bind fun desk here => ?_
  rw [here]
  have unwritten := Manifest.writtenIn_load platform fs o.manifestPath
  cases answered : Manifest.load platform fs o.manifestPath with
  | mk events answer =>
  rw [answered] at unwritten
  refine (looksAt_record unwritten).bind fun _ _ => ?_
  refine (looksAt_require answer).bind fun m known => ?_
  exact (looksAt_tell o _).bind fun _ _ => looksAt_pure known

/-- Loading the banks only looks at the disk, and finds the snapshots that are asked for. -/
theorem looksAt_loadBanks (platform : Platform) (fs : FileSystem) (o : Options)
    (m : Manifest) :
    LooksAt fs (loadBanks platform o m) fun found => o.snapshots found.1 = .ok found.2 := by
  unfold loadBanks
  refine (looksAt_tell o _).bind fun _ _ => ?_
  refine looksAt_get.bind fun desk here => ?_
  rw [here]
  have unwritten := BankSet.writtenIn_load platform.memory fs m.banks
  cases answered : BankSet.load platform.memory fs m.banks with
  | mk events answer =>
  rw [answered] at unwritten
  refine (looksAt_record unwritten).bind fun _ _ => ?_
  refine (looksAt_require answer).bind fun set _ => ?_
  refine (looksAt_require _).bind fun snapshots chosen => ?_
  exact (looksAt_tell o _).bind fun _ _ => looksAt_pure chosen

/-- Loading the logs only looks at the disk: a store that was made for the banks is read. -/
theorem looksAt_loadLogs (platform : Platform) (fs : FileSystem) (o : Options)
    (m : Manifest) :
    LooksAt fs (loadLogs platform o m) fun s =>
      s.MadeFor m.banks ∧ ∃ blank, Cdl.Store.ReadFrom fs blank s := by
  unfold loadLogs
  refine (looksAt_tell o _).bind fun _ _ => ?_
  refine (looksAt_require _).bind fun blank made => ?_
  refine looksAt_get.bind fun desk here => ?_
  rw [here]
  have unwritten := blank.writtenIn_load fs
  cases loaded : blank.load fs with
  | mk s rest =>
  obtain ⟨events, answer⟩ := rest
  rw [loaded] at unwritten
  refine (looksAt_record unwritten).bind fun _ _ => ?_
  refine (looksAt_requireFile answer).bind fun _ done => ?_
  refine (looksAt_tell o _).bind fun _ _ => looksAt_pure ?_
  subst done
  have read : Cdl.Store.ReadFrom fs blank s := ⟨events, loaded⟩
  exact ⟨⟨_, blank, made, read.sizes_eq⟩, blank, read⟩

/-- The traversal under one snapshot adds to the analysis. -/
theorem addsTo_traverseOne (o : Options) (a : Analyzer) (before : Analysis) (snapshot : Snapshot) :
    (traverseOne o a before snapshot).AddsTo before := by
  unfold traverseOne
  apply (Answer.addsTo_ofExcept before _).bind
  intro workers _
  dsimp only [Answer.ofExcept]
  split
  · exact (a.addsTo_seed before snapshot []).bind fun _ _ => Answer.addsTo_ofExcept _ _
  · split
    · exact a.addsTo_run before snapshot _ workers none
    · exact a.addsTo_run before snapshot _ workers _
    · apply (a.addsTo_prepare before snapshot _).bind
      intro start _
      split
      · exact a.addsTo_traverse _ snapshot start workers none
      · exact Answer.addsTo_ofExcept _ _

/-- The traversals under several snapshots only look at the disk, and add marks. -/
theorem looksAt_traverseEach (fs : FileSystem) (o : Options) (a : Analyzer)
    (schedules : Nat → Schedule) (before : Analysis) (snapshots : List Snapshot) :
    LooksAt fs (traverseEach o a schedules before snapshots) fun found =>
      before.store.IsMarked found.1.store := by
  induction snapshots generalizing before with
  | nil => exact looksAt_pure (.of_claims before.store before.store.claims)
  | cons snapshot rest ih =>
    have adds := addsTo_traverseOne o { a with schedule := schedules rest.length } before snapshot
    unfold traverseEach
    refine (looksAt_record adds.unwritten).bind fun _ _ => ?_
    refine (looksAt_require _).bind fun result _ => ?_
    refine (looksAt_tell o _).bind fun _ _ => ?_
    refine (ih _).bind fun found marked => looksAt_pure ?_
    exact adds.marked.trans marked

/-- Traversing only looks at the disk, and adds marks. -/
theorem looksAt_traverse (fs : FileSystem) (o : Options) (a : Analyzer)
    (schedules : Nat → Schedule) (s : Cdl.Store) (snapshots : List Snapshot) :
    LooksAt fs (traverse o a schedules s snapshots) fun found => s.IsMarked found.1.store :=
  (looksAt_tell o _).bind fun _ _ =>
    looksAt_traverseEach fs o a schedules { store := s } snapshots

/-- Marking data references only looks at the disk, and adds marks. -/
theorem looksAt_markReferences (fs : FileSystem) (o : Options) (a : Analyzer) (before : Analysis) :
    LooksAt fs (markReferences o a before) fun found => before.store.IsMarked found.1.store := by
  have adds := a.addsTo_markReferences before
  unfold markReferences
  split
  · refine (looksAt_tell o _).bind fun _ _ => ?_
    refine (looksAt_record adds.unwritten).bind fun _ _ => ?_
    refine (looksAt_require _).bind fun count _ => ?_
    exact (looksAt_tell o _).bind fun _ _ => looksAt_pure adds.marked
  · exact looksAt_pure (.of_claims before.store before.store.claims)

end Job

/-! ## The parts of the first stage -/

/-- What is known when the first traversal starts. -/
structure Plan where
  /-- The manifest. -/
  manifest : Manifest
  /-- The order of the traversals. -/
  order : Order
  /-- The banks with their images. -/
  set : BankSet
  /-- The snapshots to traverse. -/
  snapshots : List Snapshot
  /-- The logs as they were read. -/
  store : Cdl.Store

/-- What the traversals are done with. -/
def Plan.analyzer (p : Plan) (o : Options) : Analyzer :=
  { space := p.manifest.addressSpace, banks := p.set, settings := o.settings p.manifest
    order := p.order }

namespace Job

/-- The first stage up to the first traversal. -/
def setUp (platform : Platform) (o : Options) : Job Plan := do
  let order ← require o.chosenOrder
  let m ← readManifest platform o
  let (set, snapshots) ← loadBanks platform o m
  let store ← loadLogs platform o m
  return ⟨m, order, set, snapshots, store⟩

/-- The traversals, and the marking of data references behind them. -/
def trace (o : Options) (schedules : Nat → Schedule) (p : Plan) :
    Job (Analysis × List Result × Option Nat) := do
  let (analysis, results) ← traverse o (p.analyzer o) schedules p.store p.snapshots
  let (analysis, references) ← markReferences o (p.analyzer o) analysis
  return (analysis, results, references)

/-- The writing of the logs. -/
def save (o : Options) (p : Plan) (found : Analysis × List Result × Option Nat) :
    Job Findings := do
  let (store, written) ← writeLogs o found.1.store
  return { set := p.set, store, results := found.2.1, references := found.2.2, written }

/-- The first stage is made up of these parts. -/
theorem analyse_eq (platform : Platform) (o : Options) (schedules : Nat → Schedule) :
    analyse platform o schedules =
      setUp platform o >>= fun p => trace o schedules p >>= save o p := by
  unfold analyse setUp trace save
  simp only [bind_assoc, pure_bind]
  rfl

/-- The first part only looks at the disk: it reads the manifest, chooses snapshots, and reads a
store that was made for the banks. -/
theorem looksAt_setUp (platform : Platform) (fs : FileSystem) (o : Options) :
    LooksAt fs (setUp platform o) fun p =>
      (Manifest.load platform fs o.manifestPath).2 = .ok p.manifest ∧
      o.snapshots p.set = .ok p.snapshots ∧ p.store.MadeFor p.manifest.banks ∧
        ∃ blank, Cdl.Store.ReadFrom fs blank p.store := by
  unfold setUp
  refine (looksAt_require _).bind fun order _ => ?_
  refine (looksAt_readManifest platform fs o).bind fun m read => ?_
  refine (looksAt_loadBanks platform fs o m).bind fun (set, snapshots) chosen => ?_
  refine (looksAt_loadLogs platform fs o m).bind fun store ⟨made, reading⟩ => looksAt_pure ?_
  exact ⟨read, chosen, made, reading⟩

/-- The traversals only look at the disk, and add marks. -/
theorem looksAt_trace (fs : FileSystem) (o : Options) (schedules : Nat → Schedule) (p : Plan) :
    LooksAt fs (trace o schedules p) fun found => p.store.IsMarked found.1.store := by
  unfold trace
  refine (looksAt_traverse fs o _ schedules p.store p.snapshots).bind fun (analysis, _) first => ?_
  refine (looksAt_markReferences fs o _ analysis).bind fun _ last => looksAt_pure ?_
  exact first.trans last

end Job

end CommandLine

end BankTrace
