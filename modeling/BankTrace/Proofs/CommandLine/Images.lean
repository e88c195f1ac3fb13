import BankTrace.Proofs.CommandLine.Looking

/-!
# What becomes of the images

The job reads the images of the banks and writes their logs, so an image is safe as long as no log
is written to its place. A manifest can break that: no rule keeps the log of a bank apart from the
image files, and a log that leads to an image is read from it, marked, and written over it. That
happens exactly when the job says that it has written such a log.
-/

namespace BankTrace.CommandLine

open Cdl.Store (writtenIn writtenIn_append)

/-- An ending has the disk that the job leaves. -/
theorem Ending.fs_ofJob (platform : Platform) (o : Options)
    (result : EStateM.Result Error Desk Unit) :
    (ofJob platform o result).fs = (Desk.ofResult result).fs := by
  cases result <;> rfl

namespace Job

variable {α β : Type} {fs : FileSystem} {job : Job α} {next : α → Job β} {finds : α → Prop}
  {logs : List Path}

/-- However a part of the job ends, it overwrites what is at the places of the logs that it says it
has written, and leaves all other files as they are. -/
def Overwrites (fs : FileSystem) (logs : List Path) (job : Job α) : Prop :=
  ∀ desk, desk.fs = fs → writtenIn desk.events = [] →
    fs.Overwrites logs (writtenIn (Desk.ofResult (job desk)).events) (Desk.ofResult (job desk)).fs

/-- There may be further logs. -/
theorem Overwrites.mono (overwrites : Overwrites fs logs job) {wider : List Path}
    (more : ∀ path ∈ logs, path ∈ wider) : Overwrites fs wider job :=
  fun desk here nothing => (overwrites desk here nothing).mono more

/-- A part that only looks at a disk overwrites nothing. -/
theorem LooksAt.overwrites (looks : LooksAt fs job finds) (logs : List Path) :
    Overwrites fs logs job := by
  intro desk here nothing
  have kept := looks.keeps desk here
  rw [kept.fs_eq, kept.written_eq, here, nothing]
  exact fs.overwrites_nothing logs

/-- A part that only looks at a disk may come before one that writes logs. -/
theorem LooksAt.bind_overwrites (looks : LooksAt fs job finds)
    (second : ∀ a, finds a → Overwrites fs logs (next a)) : Overwrites fs logs (job >>= next) := by
  intro desk here nothing
  have kept := looks.keeps desk here
  rcases bind_cases job next desk with ⟨e, after, failed, ends⟩ | ⟨a, after, done, goes⟩
  · have written := looks.overwrites logs desk here nothing
    rw [failed] at written
    rw [ends]
    exact written
  · rw [done] at kept
    have there : after.fs = fs := kept.fs_eq.trans here
    have still : writtenIn after.events = [] := kept.written_eq.trans nothing
    rw [goes]
    exact second a (looks.found desk a after here done) after there still

/-- A part that only looks at any disk may come behind one that writes logs. -/
theorem Overwrites.bind (first : Overwrites fs logs job)
    (second : ∀ a disk, LooksAt disk (next a) fun _ => True) :
    Overwrites fs logs (job >>= next) := by
  intro desk here nothing
  have written := first desk here nothing
  rcases bind_cases job next desk with ⟨e, after, failed, ends⟩ | ⟨a, after, done, goes⟩
  · rw [failed] at written
    rw [ends]
    exact written
  · rw [done] at written
    have kept := (second a after.fs).keeps after rfl
    rw [goes, kept.written_eq, kept.fs_eq]
    exact written

/-- A disk on which logs were written is put on the desk, and what is said of it is recorded. Behind
that the disk may be looked at. -/
theorem overwrites_put {disk : FileSystem} {events : List Event}
    (written : fs.Overwrites logs (writtenIn events) disk)
    (behind : LooksAt disk job fun _ => True) :
    Overwrites fs logs (do
      modify fun desk => { desk with fs := disk }
      record events
      job) := by
  intro desk _ nothing
  have kept := behind.keeps { desk with fs := disk, events := desk.events ++ events } rfl
  have said : writtenIn (desk.events ++ events) = writtenIn events := by
    rw [writtenIn_append, nothing, List.nil_append]
  rw [← said, ← kept.written_eq] at written
  exact kept.fs_eq ▸ written

/-- Writing the logs overwrites what is at their places, as long as the store is ahead of the disk.
Where the user wants none written nothing is. -/
theorem overwrites_writeLogs (o : Options) {s : Cdl.Store} (ahead : s.IsAheadOf fs) :
    Overwrites fs s.paths (writeLogs o s) := by
  unfold writeLogs
  split
  · have nothing : LooksAt fs (pure (s, ([] : List Path))) fun _ => True := looksAt_pure trivial
    exact (looksAt_tell o _).bind_overwrites fun _ _ => nothing.overwrites s.paths
  · refine (looksAt_tell o _).bind_overwrites fun _ _ => ?_
    refine looksAt_get.bind_overwrites fun desk here => ?_
    rw [here]
    have written := Cdl.Store.overwrites_flush ahead
    rw [← Cdl.Store.writtenIn_flush] at written
    cases flushed : s.flush fs with
    | mk saved rest =>
    obtain ⟨disk, events, answer⟩ := rest
    rw [flushed] at written
    refine overwrites_put written ((looksAt_requireFile answer).bind fun paths _ => ?_)
    exact (looksAt_tell o _).bind fun _ _ => looksAt_pure trivial

/-- The first stage overwrites what is at the places of the logs that it says it has written. -/
theorem overwrites_analyse (platform : Platform) (o : Options) (schedules : Nat → Schedule)
    {m : Manifest}     (read : (Manifest.load platform fs o.manifestPath).2 = .ok m) :
    Overwrites fs (m.banks.map Bank.cdl) (analyse platform o schedules) := by
  rw [analyse_eq]
  refine (looksAt_setUp platform fs o).bind_overwrites fun p ⟨read', _, made, blank, reading⟩ => ?_
  obtain rfl : p.manifest = m := Except.ok.inj (read'.symm.trans read)
  refine (looksAt_trace fs o schedules p).bind_overwrites fun found marked => ?_
  have named : ∀ path ∈ found.1.store.paths, path ∈ p.manifest.banks.map Bank.cdl := by
    rw [marked.paths_eq]
    exact fun path => made.mem_paths
  have ahead : found.1.store.IsAheadOf fs := by
    obtain ⟨marks, claims, marked⟩ := marked
    rw [marked]
    exact reading.isAheadOf made.nodup_paths marks
  exact ((overwrites_writeLogs o ahead).mono named).bind fun _ _ => looksAt_pure trivial

/-- Without a summary the second stage only looks at the disk. -/
theorem looksAt_conclude (o : Options) (unsummarized : o.summaryPath? = none) (findings : Findings)
    (timing : Summary.Timing) (disk : FileSystem) :
    LooksAt disk (conclude o findings timing) fun _ => True := by
  have nothing : ∀ rows, LooksAt disk (writeSummary o findings rows timing) fun _ => True := by
    intro rows
    unfold writeSummary
    rw [unsummarized]
    exact looksAt_pure trivial
  unfold conclude
  refine (looksAt_require _).bind fun rows _ => ?_
  refine (nothing rows).bind fun _ _ => ?_
  refine (looksAt_tell o _).bind fun _ _ => ?_
  exact looksAt_print _

end Job

namespace Options

/-- The logs that the job says it has written. -/
def logsWritten (platform : Platform) (o : Options) (schedules : Nat → Schedule)
    (fs : FileSystem) : List Path :=
  writtenIn (Desk.ofResult (o.start platform schedules fs)).events

/-- A job without a summary leaves the disk of its first stage. -/
theorem fs_perform (platform : Platform) (o : Options) (unsummarized : o.summaryPath? = none)
    (timing : Summary.Timing) (schedules : Nat → Schedule) (fs : FileSystem) :
    (o.perform platform timing schedules fs).fs =
      (Desk.ofResult (o.start platform schedules fs)).fs := by
  unfold perform finish
  cases o.start platform schedules fs with
  | error e desk => exact Ending.fs_ofJob platform o _
  | ok findings desk =>
    rw [Ending.fs_ofJob]
    exact ((Job.looksAt_conclude o unsummarized findings timing desk.fs).keeps desk rfl).fs_eq

/-- A job without a summary overwrites what is at the places of the logs that it says it has
written, and nothing else, whatever its exit code. -/
theorem overwrites_perform {platform : Platform} {o : Options} {fs : FileSystem} {m : Manifest}
    (read : (Manifest.load platform fs o.manifestPath).2 = .ok m)
    (unsummarized : o.summaryPath? = none) (timing : Summary.Timing) (schedules : Nat → Schedule) :
    fs.Overwrites (m.banks.map Bank.cdl) (o.logsWritten platform schedules fs)
      (o.perform platform timing schedules fs).fs := by
  rw [fs_perform platform o unsummarized]
  exact Job.overwrites_analyse platform o schedules read { fs } rfl rfl

end Options

/-! ## Command lines -/

section

variable {platform : Platform} {words : List String} {timing : Summary.Timing}
  {schedules : Nat → Schedule} {fs : FileSystem}

/-- A command line that asks for help or cannot be followed leads to no job, and leaves the disk as
it was. -/
theorem fs_follow_of_stop {stop : Stop} (stopped : Options.ofWords words = .error stop) :
    (follow platform words timing schedules fs).fs = fs := by
  unfold follow
  rw [stopped]
  cases stop <;> rfl

/-- A command line that can be followed leads to its job. -/
theorem follow_of_ok {o : Options} (given : Options.ofWords words = .ok o) :
    follow platform words timing schedules fs = o.perform platform timing schedules fs := by
  unfold follow
  rw [given]

end

namespace Options

/-- After a command line that cannot be followed the disk is as it was. After one that can be, and
asks for no summary, the image of a bank is the same, whatever the exit code and in whatever order
several workers visit addresses, when no log leads to its place. Where logs do, and can be followed,
it is the same exactly when the job does not say that it has written one of them. -/
theorem image_kept_iff (platform : Platform) (words : List String) (timing : Summary.Timing)
    (schedules : Nat → Schedule) (fs : FileSystem) :
    (∀ stop, ofWords words = .error stop →
      (follow platform words timing schedules fs).fs = fs) ∧
    ∀ o, ofWords words = .ok o → o.summaryPath? = none →
      ∀ m, (Manifest.load platform fs o.manifestPath).2 = .ok m → ∀ b ∈ m.banks,
        ((∀ c ∈ m.banks, fs.placeOf c.cdl ≠ fs.placeOf b.file) →
          (follow platform words timing schedules fs).fs.fileAt? (fs.placeOf b.file) =
            fs.fileAt? (fs.placeOf b.file)) ∧
        ((∀ c ∈ m.banks, fs.placeOf c.cdl = fs.placeOf b.file →
            fs.locate c.cdl = .ok (fs.placeOf b.file)) →
          ((follow platform words timing schedules fs).fs.fileAt? (fs.placeOf b.file) =
              fs.fileAt? (fs.placeOf b.file) ↔
            ∀ path ∈ o.logsWritten platform schedules fs,
              fs.placeOf path ≠ fs.placeOf b.file)) := by
  refine ⟨fun _ => fs_follow_of_stop, fun o given unsummarized m read b _ => ?_⟩
  rw [follow_of_ok given]
  have overwrites := overwrites_perform read unsummarized timing schedules
  constructor
  · intro apart
    apply overwrites.kept
    intro path member
    obtain ⟨c, known, rfl⟩ := List.mem_map.mp (overwrites.named path member)
    exact apart c known
  · intro followed
    constructor
    · intro kept path member here
      refine overwrites.lost _ ?_ path member here kept
      intro other log leads
      obtain ⟨c, known, rfl⟩ := List.mem_map.mp log
      exact followed c known leads
    · exact overwrites.kept _

/-! ## A cartridge of one bank -/

/-- A disk with an image of two bytes and the manifest of its bank, which has the vector of a
software interrupt and is always mapped. Where its log is, a text says. -/
def cartridge (log : String) : FileSystem :=
  let manifest :=
    "[[banks]]\nname = \"P\"\nstart = 0xFFFE\nlen = 2\nfile = \"p\"\ncdl = \"" ++ log ++
      "\"\nfixed = true\n"
  { home := []
    nodes := [(["m.toml"], .file manifest.toUTF8.data), (["p"], .file #[0x00, 0x80])] }

/-- The command line that names nothing but the manifest. -/
def bare : Options := { manifest := "m.toml" }

/-- A manifest whose paths are those of one bank has the bank. -/
theorem exists_bank {answer : Except Error Manifest} {file cdl : Path}
    (paths : (answer.toOption.map fun m => m.banks.map fun b => (b.file, b.cdl)) =
      some [(file, cdl)]) :
    ∃ m b, answer = .ok m ∧ m.banks = [b] ∧ b.file = file ∧ b.cdl = cdl := by
  cases answer with
  | error e => contradiction
  | ok m =>
    obtain ⟨b, banks, named⟩ := List.map_eq_singleton_iff.mp (Option.some.inj paths)
    obtain ⟨image, log⟩ := Prod.mk.inj named
    exact ⟨m, b, rfl, banks, image, log⟩

/-- The command line that names nothing but the manifest leads to its job. -/
theorem ofWords_bare : ofWords ["m.toml"] = .ok bare := rfl

/-- A bank whose log is a file of its own keeps its image, though its log is written. -/
theorem image_kept_of_own_log : ∃ m b,
    (Manifest.load .standard (cartridge "c") bare.manifestPath).2 = .ok m ∧ b ∈ m.banks ∧
      (follow .standard ["m.toml"] (.ofMilliseconds 0 0) (fun _ => .inOrder)
        (cartridge "c")).fs.fileAt? ["c"] = some #[2, 2] ∧
      (follow .standard ["m.toml"] (.ofMilliseconds 0 0) (fun _ => .inOrder)
        (cartridge "c")).fs.fileAt? ["p"] = some #[0x00, 0x80] := by
  obtain ⟨m, b, read, banks, image, log⟩ := @exists_bank
    (Manifest.load .standard (cartridge "c") bare.manifestPath).2 ⟨.relative, ["p"]⟩
    ⟨.relative, ["c"]⟩ (by decide +kernel)
  have member : b ∈ m.banks := by
    rw [banks]
    exact List.mem_singleton_self b
  have apart : ∀ c ∈ m.banks,
      (cartridge "c").placeOf c.cdl ≠ (cartridge "c").placeOf b.file := by
    intro c known
    rw [banks] at known
    obtain rfl := List.mem_singleton.mp known
    rw [image, log]
    decide
  have ⟨_, each⟩ := image_kept_iff .standard ["m.toml"] (.ofMilliseconds 0 0) (fun _ => .inOrder)
    (cartridge "c")
  have kept := (each bare ofWords_bare rfl m read b member).1 apart
  rw [image] at kept
  exact ⟨m, b, read, member, by decide +kernel, kept⟩

/-- A bank whose log is its image loses the image: the vector in it is marked as data. -/
theorem image_overwritten : ∃ m b, ofWords ["m.toml"] = .ok bare ∧ bare.summaryPath? = none ∧
    (Manifest.load .standard (cartridge "p") bare.manifestPath).2 = .ok m ∧ b ∈ m.banks ∧
      (follow .standard ["m.toml"] (.ofMilliseconds 0 0) (fun _ => .inOrder)
          (cartridge "p")).fs.fileAt? ((cartridge "p").placeOf b.file) ≠
        (cartridge "p").fileAt? ((cartridge "p").placeOf b.file) := by
  obtain ⟨m, b, read, banks, image, _⟩ := @exists_bank
    (Manifest.load .standard (cartridge "p") bare.manifestPath).2 ⟨.relative, ["p"]⟩
    ⟨.relative, ["p"]⟩ (by decide +kernel)
  refine ⟨m, b, ofWords_bare, rfl, read, ?_, ?_⟩
  · rw [banks]
    exact List.mem_singleton_self b
  · rw [image]
    decide +kernel

end Options

end BankTrace.CommandLine
