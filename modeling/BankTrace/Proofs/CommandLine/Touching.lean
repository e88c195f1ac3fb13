import BankTrace.Proofs.CommandLine.Failing
import BankTrace.Proofs.CommandLine.Images

/-!
# What the job touches

The job writes the logs that have dirty bytes, unless the user wants none written, and the summary;
it opens directories on the way to them and touches nothing else. An error of the configuration and
a manifest that is missing come to light before anything is written, so they leave the disk as it
was.
-/

namespace BankTrace

/-! ## What is built on behalf of paths -/

namespace FileSystem

/-- A place is the one that one of the paths leads to. -/
def Reached (fs : FileSystem) (paths : List Path) (place : Place) : Prop :=
  ∃ path ∈ paths, place = fs.placeOf path

/-- A place is passed on the way to the last name of one of the paths. -/
def OnTheWay (fs : FileSystem) (paths : List Path) (place : Place) : Prop :=
  ∃ path ∈ paths, fs.Passes path.parent place

/-- One disk is built out of another on behalf of paths: files are written where they lead, and
directories are opened on the way. -/
def BuildsFor (fs : FileSystem) (paths : List Path) : FileSystem → FileSystem → Prop :=
  Builds (fs.Reached paths) (fs.OnTheWay paths)

/-- What is built on behalf of paths is built on behalf of more of them. -/
theorem BuildsFor.mono {fs before after : FileSystem} {paths more : List Path}
    (builds : fs.BuildsFor paths before after) (known : ∀ path ∈ paths, path ∈ more) :
    fs.BuildsFor more before after := by
  apply Builds.mono builds
  · rintro place ⟨path, member, here⟩
    exact ⟨path, known path member, here⟩
  · rintro place ⟨path, member, passes⟩
    exact ⟨path, known path member, passes⟩

/-- A file that is written below new directories is built on behalf of its path, also when it cannot
be written. -/
theorem buildsFor_writeDeep {fs here : FileSystem} (same : here.home = fs.home) (path : Path)
    (bytes : Array UInt8) : fs.BuildsFor [path] here (here.writeDeep path bytes).1 := by
  have opens : ∀ place, here.Passes path.parent place → fs.OnTheWay [path] place := by
    intro place passes
    rw [passes_congr same] at passes
    exact ⟨path, List.mem_singleton_self path, passes⟩
  cases written : here.writeDeep path bytes with
  | mk after answer =>
  cases answer with
  | error e =>
    exact (builds_of_below_error written).mono (fun _ absurdity => absurdity.elim) opens
  | ok _ =>
    refine (builds_below (fun _ put => put) written).1.mono ?_ opens
    rintro place rfl
    rw [placeOf_congr same]
    exact ⟨path, List.mem_singleton_self path, rfl⟩

end FileSystem

/-- Logs that have dirty bytes are logs of the store. -/
theorem Cdl.Store.mem_paths_of_dirty {s : Cdl.Store} {path : Path} (dirty : path ∈ s.dirtyPaths) :
    path ∈ s.paths := by
  obtain ⟨entry, member, rfl⟩ := List.mem_map.mp dirty
  exact List.mem_map_of_mem (List.mem_of_mem_filter member)

/-- What is on disk when a store is written is built on behalf of the logs that have dirty bytes,
also when not all of them can be written. -/
theorem Cdl.Store.buildsFor_flush {fs here : FileSystem} (same : here.home = fs.home)
    (s : Cdl.Store) : fs.BuildsFor s.dirtyPaths here (s.flush here).2.1 := by
  have dirty : ∀ entry ∈ s.files, entry.2.isDirty = true → entry.1 ∈ s.dirtyPaths :=
    fun entry member marked => List.mem_map_of_mem (List.mem_filter.mpr ⟨member, marked⟩)
  apply (builds_writeFiles here s.files).mono
  · rintro place ⟨path, written, leads⟩
    obtain ⟨entry, member, marked, rfl⟩ := exists_dirty_of_mem_writtenIn written
    rw [FileSystem.placeOf_congr same] at leads
    exact ⟨entry.1, dirty entry member marked, leads⟩
  · rintro place ⟨entry, member, marked, passes⟩
    rw [FileSystem.passes_congr same] at passes
    exact ⟨entry.1, dirty entry member marked, passes⟩

namespace CommandLine

/-! ## What parts of the job write -/

namespace Job

section

variable {α β : Type} {fs : FileSystem} {paths : List Path} {job : Job α} {next : α → Job β}

/-- However a part of the job ends, from whatever desk with the same home directory, what it leaves
on disk is built on behalf of paths. -/
def Touches (fs : FileSystem) (paths : List Path) (job : Job α) : Prop :=
  ∀ desk, desk.fs.home = fs.home → fs.BuildsFor paths desk.fs (Desk.ofResult (job desk)).fs

/-- A part that only looks at any disk touches nothing. -/
theorem touches_of_looksAt {finds : α → Prop} (looks : ∀ disk, LooksAt disk job finds) :
    Touches fs paths job := by
  intro desk _
  rw [((looks desk.fs).keeps desk rfl).fs_eq]
  exact .refl _ _ desk.fs

/-- Two parts that touch paths do so one after the other. -/
theorem Touches.bind (first : Touches fs paths job) (second : ∀ a, Touches fs paths (next a)) :
    Touches fs paths (job >>= next) := by
  intro desk same
  have built := first desk same
  rcases bind_cases job next desk with ⟨e, after, failed, ends⟩ | ⟨a, after, done, goes⟩
  · rw [failed] at built
    rw [ends]
    exact built
  · rw [done] at built
    rw [goes]
    exact built.trans (second a after (built.home_eq.trans same))

/-- An answer that is known touches nothing. -/
theorem touches_pure (a : α) : Touches fs paths (pure a) :=
  fun desk _ => .refl _ _ desk.fs

/-- To record events touches nothing. -/
theorem touches_record (events : List Event) : Touches fs paths (record events) :=
  fun desk _ => .refl _ _ desk.fs

/-- To tell the user something touches nothing. -/
theorem touches_tell (o : Options) (lines : List String) : Touches fs paths (o.tell lines) :=
  touches_of_looksAt fun _ => looksAt_tell o lines

/-- To require an answer of the file system touches nothing. -/
theorem touches_requireFile (answer : Except FileError α) :
    Touches fs paths (requireFile answer) :=
  touches_of_looksAt fun _ => looksAt_requireFile answer

/-- What is done with the desk touches paths when it does so from that very desk. -/
theorem touches_get {next : Desk → Job α}
    (behind : ∀ desk, desk.fs.home = fs.home →
      fs.BuildsFor paths desk.fs (Desk.ofResult (next desk desk)).fs) :
    Touches fs paths (get >>= next) :=
  behind

/-- A disk that is built out of the one on a desk is put there, and behind that the same paths are
touched. -/
theorem Touches.put (behind : Touches fs paths job) {desk : Desk} {disk : FileSystem}
    (same : desk.fs.home = fs.home) (built : fs.BuildsFor paths desk.fs disk) :
    let putting : Job Unit := modify fun d => { d with fs := disk }
    fs.BuildsFor paths desk.fs (Desk.ofResult ((putting >>= fun _ => job) desk)).fs :=
  built.trans (behind { desk with fs := disk } (built.home_eq.trans same))

/-- To write the logs touches those that have dirty bytes, or none if the user wants none
written. -/
theorem touches_writeLogs (o : Options) (s : Cdl.Store) :
    Touches fs (if o.dryRun then [] else s.dirtyPaths) (writeLogs o s) := by
  unfold writeLogs
  split
  · exact (touches_tell o _).bind fun _ => touches_pure _
  · refine (touches_tell o _).bind fun _ => ?_
    refine touches_get fun desk same => ?_
    have built := Cdl.Store.buildsFor_flush same s
    cases flushed : s.flush desk.fs with
    | mk saved rest =>
    obtain ⟨disk, events, answer⟩ := rest
    rw [flushed] at built
    refine Touches.put ?_ same built
    refine (touches_record events).bind fun _ => ?_
    refine (touches_requireFile answer).bind fun written => ?_
    exact (touches_tell o _).bind fun _ => touches_pure _

/-- The last part of the first stage touches no more than the writing of the logs. -/
theorem touches_save (o : Options) (p : Plan) (found : Analysis × List Result × Option Nat) :
    Touches fs (if o.dryRun then [] else found.1.store.dirtyPaths) (save o p found) :=
  (touches_writeLogs o found.1.store).bind fun _ => touches_pure _

/-- The second stage touches the summary, if one is wanted. -/
theorem touches_conclude (o : Options) (findings : Findings) (timing : Summary.Timing) :
    Touches fs o.summaryPath?.toList (conclude o findings timing) := by
  have summary : ∀ rows,
      Touches fs o.summaryPath?.toList (writeSummary o findings rows timing) := by
    intro rows
    unfold writeSummary
    cases o.summaryPath? with
    | none => exact touches_pure ()
    | some path =>
      refine touches_get fun desk same => ?_
      generalize (String.toUTF8 _).data = bytes
      have built := FileSystem.buildsFor_writeDeep same path bytes
      cases written : desk.fs.writeDeep path bytes with
      | mk disk answer =>
      rw [written] at built
      refine Touches.put ?_ same built
      exact (touches_requireFile answer).bind fun _ => touches_record _
  unfold conclude
  refine (touches_of_looksAt fun _ => looksAt_require _).bind fun rows => ?_
  refine (summary rows).bind fun _ => ?_
  refine (touches_tell o _).bind fun _ => ?_
  exact touches_of_looksAt fun _ => looksAt_print _

end

end Job

/-! ## The whole job -/

namespace Options

section

variable {platform : Platform} {o : Options} {timing : Summary.Timing}
  {schedules : Nat → Schedule} {fs : FileSystem}

/-- The logs that have dirty bytes when they are about to be written; none when the job does not
come that far. -/
def dirtyLogs (platform : Platform) (o : Options) (schedules : Nat → Schedule)
    (fs : FileSystem) : List Path :=
  match Job.setUp platform o { fs } with
  | .error _ _ => []
  | .ok p desk =>
    match Job.trace o schedules p desk with
    | .error _ _ => []
    | .ok found _ => found.1.store.dirtyPaths

/-- The first stage ends where its first part or its traversals end with an error, or as the writing
of the logs does; until then the disk stays. -/
theorem start_cases (platform : Platform) (o : Options) (schedules : Nat → Schedule)
    (fs : FileSystem) :
    (∃ e desk, o.start platform schedules fs = .error e desk ∧ desk.fs = fs ∧
      o.dirtyLogs platform schedules fs = []) ∨
    ∃ p found desk, o.start platform schedules fs = Job.save o p found desk ∧ desk.fs = fs ∧
      o.dirtyLogs platform schedules fs = found.1.store.dirtyPaths := by
  have begun := ((Job.looksAt_setUp platform fs o).keeps { fs } rfl).fs_eq
  let behind (p : Plan) : Job Findings := Job.trace o schedules p >>= Job.save o p
  have whole : o.start platform schedules fs = (Job.setUp platform o >>= behind) { fs } :=
    congrArg (fun job => job { fs }) (Job.analyse_eq platform o schedules)
  unfold dirtyLogs
  rw [whole]
  rcases Job.bind_cases (Job.setUp platform o) behind { fs } with
    ⟨e, desk, failed, ends⟩ | ⟨p, desk, done, goes⟩
  · rw [failed] at begun ⊢
    exact .inl ⟨e, desk, ends, begun, rfl⟩
  · rw [done] at begun ⊢
    rw [goes]
    have traced := ((Job.looksAt_trace fs o schedules p).keeps desk begun).fs_eq.trans begun
    dsimp only
    rcases Job.bind_cases (Job.trace o schedules p) (Job.save o p) desk with
      ⟨e, after, failed, ends⟩ | ⟨found, after, done, goes⟩
    · rw [failed] at traced ⊢
      exact .inl ⟨e, after, ends, traced, rfl⟩
    · rw [done] at traced ⊢
      exact .inr ⟨p, found, after, goes, traced, rfl⟩

/-- A log that has dirty bytes is one of a bank of the manifest. -/
theorem exists_bank_of_dirty {path : Path} (dirty : path ∈ o.dirtyLogs platform schedules fs) :
    ∃ m, (Manifest.load platform fs o.manifestPath).2 = .ok m ∧ ∃ b ∈ m.banks, b.cdl = path := by
  have begun := ((Job.looksAt_setUp platform fs o).keeps { fs } rfl).fs_eq
  unfold dirtyLogs at dirty
  split at dirty
  · contradiction
  case h_2 p desk done =>
    rw [done] at begun
    obtain ⟨read, _, made, _⟩ := (Job.looksAt_setUp platform fs o).found { fs } p desk rfl done
    split at dirty
    · contradiction
    case h_2 found after traced =>
      have marked := (Job.looksAt_trace fs o schedules p).found desk found after begun traced
      have known := Cdl.Store.mem_paths_of_dirty dirty
      rw [marked.paths_eq] at known
      exact ⟨p.manifest, read, List.mem_map.mp (made.mem_paths known)⟩

/-- What the first stage leaves on disk is built on behalf of the logs that have dirty bytes, or is
what was there if the user wants none written. -/
theorem buildsFor_start (platform : Platform) (o : Options) (schedules : Nat → Schedule)
    (fs : FileSystem) :
    fs.BuildsFor (if o.dryRun then [] else o.dirtyLogs platform schedules fs) fs
      (Desk.ofResult (o.start platform schedules fs)).fs := by
  rcases start_cases platform o schedules fs with
    ⟨e, desk, ended, here, _⟩ | ⟨p, found, desk, saved, here, dirty⟩
  · rw [ended]
    exact here ▸ .refl _ _ fs
  · rw [saved, dirty]
    have built := Job.touches_save o p found desk (congrArg FileSystem.home here)
    exact here ▸ built

/-- What the job leaves on disk is built on behalf of the logs that have dirty bytes, unless the
user wants none written, and of the summary. -/
theorem buildsFor_perform (platform : Platform) (o : Options) (timing : Summary.Timing)
    (schedules : Nat → Schedule) (fs : FileSystem) :
    fs.BuildsFor
      ((if o.dryRun then [] else o.dirtyLogs platform schedules fs) ++ o.summaryPath?.toList) fs
      (o.perform platform timing schedules fs).fs := by
  have first := (buildsFor_start platform o schedules fs).mono
    (fun path => List.mem_append_left o.summaryPath?.toList)
  unfold perform finish
  cases started : o.start platform schedules fs with
  | error e desk =>
    rw [started] at first
    exact first
  | ok findings desk =>
    rw [started] at first
    rw [Ending.fs_ofJob]
    have second := Job.touches_conclude o findings timing desk first.home_eq
    exact first.trans (second.mono fun path => List.mem_append_right _)

/-- Where the job ends with an error that is none of the storage, the disk stays as it was. -/
theorem fs_perform_of_failure {e : Error}
    (failed : o.failure? platform timing schedules fs = some e) (other : ¬e.IsStorage) :
    (o.perform platform timing schedules fs).fs = fs := by
  obtain ⟨desk, started⟩ := (start_of_failure failed).resolve_right other
  unfold perform finish
  rw [started]
  rcases start_cases platform o schedules fs with
    ⟨_, _, ended, here, _⟩ | ⟨p, found, before, saved, _⟩
  · rw [started] at ended
    obtain ⟨rfl, rfl⟩ := EStateM.Result.error.inj ended
    exact (Ending.fs_ofJob platform o _).trans here
  · rw [started] at saved
    exact absurd ((Job.ends_save o p found).failed before e desk saved.symm) other

/-- A file that the job makes or changes is the log of a bank of the manifest that had dirty bytes,
and then the user wants logs to be written, or it is the summary. -/
theorem log_or_summary_of_changed {place : Place}
    (changed : (o.perform platform timing schedules fs).fs.fileAt? place ≠ fs.fileAt? place) :
    (o.dryRun = false ∧ ∃ m, (Manifest.load platform fs o.manifestPath).2 = .ok m ∧
      ∃ b ∈ m.banks, b.cdl ∈ o.dirtyLogs platform schedules fs ∧ place = fs.placeOf b.cdl) ∨
    ∃ path, o.summaryPath? = some path ∧ place = fs.placeOf path := by
  have reached : fs.Reached
      ((if o.dryRun then [] else o.dirtyLogs platform schedules fs) ++ o.summaryPath?.toList)
      place := by
    by_contra elsewhere
    exact changed ((buildsFor_perform platform o timing schedules fs).fileAt?_eq elsewhere)
  obtain ⟨path, member, here⟩ := reached
  rcases List.mem_append.mp member with log | summary
  · left
    split at log
    · contradiction
    case isFalse wanted =>
      obtain ⟨m, read, b, declared, rfl⟩ := exists_bank_of_dirty log
      exact ⟨Bool.eq_false_iff.mpr wanted, m, read, b, declared, log, here⟩
  · exact .inr ⟨path, Option.mem_toList.mp summary, here⟩

end

end Options

/-! ## Command lines -/

/-- A command line touches only what it may. Whatever its words, the manifest and the disk are, and
in whatever order several workers come to visit addresses, a file that is made or changed is the log
of a bank of the manifest that had dirty bytes, and then the user wants logs to be written, or it is
the summary; words that cannot be followed leave the disk as it was. A job that ends with an error
of the configuration, or for want of a manifest, leaves the disk as it was. When everything is set
up for the first traversal, all snapshots to traverse are admitted, and so are those of the journal
in which references are looked up behind the traversals, and the job does not end with an error of
the configuration any more. -/
theorem follow_touches (platform : Platform) (words : List String) (timing : Summary.Timing)
    (schedules : Nat → Schedule) (fs : FileSystem) :
    (∀ place, (follow platform words timing schedules fs).fs.fileAt? place ≠ fs.fileAt? place →
      ∃ o, Options.ofWords words = .ok o ∧
        ((o.dryRun = false ∧ ∃ m, (Manifest.load platform fs o.manifestPath).2 = .ok m ∧
          ∃ b ∈ m.banks, b.cdl ∈ o.dirtyLogs platform schedules fs ∧ place = fs.placeOf b.cdl) ∨
        ∃ path, o.summaryPath? = some path ∧ place = fs.placeOf path)) ∧
    (∀ stop, Options.ofWords words = .error stop →
      (follow platform words timing schedules fs).fs = fs) ∧
    ∀ o, Options.ofWords words = .ok o →
      (∀ e, o.failure? platform timing schedules fs = some e →
        (∃ c, e = .config c) ∨ (∃ path, e = .noManifest path) →
          (follow platform words timing schedules fs).fs = fs) ∧
      ∀ p desk, Job.setUp platform o { fs } = .ok p desk →
        (∀ s ∈ p.snapshots, ∃ map, MemoryMap.ofSnapshot p.set s = .ok map) ∧
        (∀ found after,
          Job.traverse o (p.analyzer o) schedules p.store p.snapshots desk = .ok found after →
            Checked.Admits p.set found.1.journal.chapters) ∧
        ∀ c, o.failure? platform timing schedules fs ≠ some (.config c) := by
  refine ⟨?places, fun _ => fs_follow_of_stop, ?jobs⟩
  case places =>
    intro place changed
    cases given : Options.ofWords words with
    | error stop =>
      rw [fs_follow_of_stop given] at changed
      contradiction
    | ok o =>
      rw [follow_of_ok given] at changed
      exact ⟨o, rfl, Options.log_or_summary_of_changed changed⟩
  case jobs =>
    intro o given
    rw [follow_of_ok given]
    refine ⟨?early, ?late⟩
    case early =>
      rintro e failed (⟨c, rfl⟩ | ⟨path, rfl⟩)
      · exact Options.fs_perform_of_failure failed not_false
      · exact Options.fs_perform_of_failure failed not_false
    case late =>
      intro p desk done
      obtain ⟨_, chosen, _⟩ := (Job.looksAt_setUp platform fs o).found { fs } p desk rfl done
      have admitted := Options.admitted_of_chosen chosen
      refine ⟨admitted, fun found after traversed => ?_, fun c failed => ?_⟩
      · have traced : Job.Ends (Job.traverse o (p.analyzer o) schedules p.store p.snapshots)
            (fun found => Checked.Admits p.set found.1.journal.chapters) Error.NotConfig :=
          Job.ends_traverse (a := p.analyzer o) o admitted
        exact traced.found desk found after traversed
      · exact Options.notConfig_of_setUp done failed c rfl

/-- The log of the cartridge has dirty bytes, as the vector in the image is marked. -/
example : Options.bare.dirtyLogs .standard (fun _ => .inOrder) (Options.cartridge "c") =
    [⟨.relative, ["c"]⟩] := by decide +kernel

/-- The cartridge has no bank of another name. -/
example : { Options.bare with banks := some [.value "Q"] }.failure? .standard (.ofMilliseconds 0 0)
    (fun _ => .inOrder) (Options.cartridge "c") = some (.config (.unknownTarget "Q")) := by
  decide +kernel

end CommandLine

end BankTrace
