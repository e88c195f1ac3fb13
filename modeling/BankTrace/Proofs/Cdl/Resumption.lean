import BankTrace.Proofs.Cdl.WritingAlike

/-!
# Flushes that are resumed

A flush stops at the first file that cannot be read or written. The files in front of it have been
written and are clean, and it and those behind it are as before, on disk and in memory; all that may
be new are directories on the way to the file. When what was in the way is taken away, another flush
goes on where the first one stopped. It succeeds exactly when a single flush would have succeeded
with nothing in the way, and then disk and store are as that flush would have left them.
-/

namespace BankTrace.Cdl.Store

/-- A flush has written the files at the front and comes to a dirty one. -/
structure Comes (s : Store) (fs : FileSystem) (front : List (Path × File)) (path : Path) (f : File)
    (back : List (Path × File)) (events : List Event) (paths : List Path) (mid : FileSystem) :
    Prop where
  /-- These are the files of the store. -/
  split : s.files = front ++ (path, f) :: back
  /-- The file is dirty. -/
  dirty : f.isDirty = true
  /-- Those at the front have been written. -/
  before : ∃ ahead, Store.flush { s with files := front } fs = (ahead, mid, events, .ok paths)

/-- What a flush leaves behind that has written the files at the front and stops at the one behind
them. -/
structure Stopped (s : Store) (fs : FileSystem) (front : List (Path × File)) (path : Path)
    (behind : List (Path × File)) (paths : List Path) (mid : FileSystem) (stopped : Store)
    (left : FileSystem) : Prop where
  /-- The files at the front are clean, and the others are as they were. -/
  stopped_eq : stopped = { s with files := cleaned front ++ behind }
  /-- The bytes in memory stay. -/
  buffers_eq : stopped.buffers = s.buffers
  /-- What was read before stays. -/
  reading_eq : stopped.reading = s.reading
  /-- The files that were dirty have been written, or they are still dirty. -/
  dirtyPaths_eq : s.dirtyPaths = paths ++ stopped.dirtyPaths
  /-- What has been written is on disk as a flush of the files at the front leaves it. -/
  written : ∀ done ∈ paths, left.locate done = .ok (fs.placeOf done) ∧
    ∃ bytes, mid.node? (fs.placeOf done) = some (.file bytes) ∧
      left.node? (fs.placeOf done) = some (.file bytes)
  /-- The files that are still dirty have on disk what they had. -/
  kept : ∀ later ∈ stopped.dirtyPaths, ∀ bytes,
    left.node? (fs.placeOf later) = some (.file bytes) ↔
      fs.node? (fs.placeOf later) = some (.file bytes)
  /-- Everything else stays, but for new directories on the way to what has been written and to the
  file that was refused. -/
  others : ∀ place, (∀ done ∈ paths, place ≠ fs.placeOf done) →
    left.node? place = fs.node? place ∨
      fs.node? place = none ∧ left.node? place = some .directory ∧
        ∃ tried ∈ paths ++ [path], fs.Passes tried.parent place

/-- Another flush has gone on where one has stopped, after some places have been cleared. -/
structure Resumed (s : Store) (fs : FileSystem) (events : List Event) (paths : List Path)
    (stopped : Store) (left : FileSystem) (gone : Place → Bool) (saved : Store)
    (second : FileSystem) (later : List Event) (rest : List Path) : Prop where
  /-- It has written what was still dirty. -/
  rest_eq : rest = stopped.dirtyPaths
  /-- It has written nothing else, and made nothing but directories on the way. -/
  others : ∀ place, (∀ done ∈ rest, place ≠ fs.placeOf done) →
    second.node? place = (left.without gone).node? place ∨
      (left.without gone).node? place = none ∧ second.node? place = some .directory ∧
        ∃ done ∈ rest, fs.Passes done.parent place
  /-- Store and disk are as a single flush leaves them that finds these places clear, and together
  the two flushes have done what it does. -/
  same : ∃ single, s.flush (fs.without gone) =
      (saved, single, events ++ later, .ok (paths ++ rest)) ∧
    single.Alike second

/-- Another flush goes on where one has stopped, when some places have been cleared. -/
structure Resumes (s : Store) (fs : FileSystem) (events : List Event) (paths : List Path)
    (stopped : Store) (left : FileSystem) (gone : Place → Bool) : Prop where
  /-- It succeeds when a single flush does that finds these places clear. -/
  succeeds : ∀ {saved single log all}, s.flush (fs.without gone) = (saved, single, log, .ok all) →
    ∃ second later rest, stopped.flush (left.without gone) = (saved, second, later, .ok rest)
  /-- Then it has done what was left to do. -/
  resumed : ∀ {saved second later rest},
    stopped.flush (left.without gone) = (saved, second, later, .ok rest) →
      Resumed s fs events paths stopped left gone saved second later rest

/-- When the files at the front have been written, a flush goes on with the others. -/
theorem flush_append {s : Store} {fs : FileSystem} {front behind : List (Path × File)}
    {paths : List Path} (split : s.files = front ++ behind)
    (done : (writeFiles fs front).2.result = .ok paths) :
    s.flush fs =
      let before := writeFiles fs front
      let after := writeFiles before.1 behind
      ({ s with files := before.2.files ++ after.2.files }, after.1,
        before.2.events ++ after.2.events, after.2.result.map (paths ++ ·)) := by
  unfold flush
  rw [split, writeFiles_append done]

/-- Files that are not all written come to a dirty one that is refused. -/
theorem exists_refused_of_writeFiles {fs left : FileSystem} {files stopped : List (Path × File)}
    {events : List Event} {e : FileError}
    (failed : writeFiles fs files = (left, ⟨stopped, events, .error e⟩)) :
    ∃ front path f back mid paths, files = front ++ (path, f) :: back ∧ f.isDirty = true ∧
      writeFiles fs front = (mid, ⟨cleaned front, events, .ok paths⟩) ∧
      writeFile mid path f = (left, .error e) := by
  induction files generalizing fs stopped events with
  | nil =>
    have ended : (writeFiles fs []).2.result = .error e := by rw [failed]
    contradiction
  | cons entry rest ih =>
    have ⟨path, f⟩ := entry
    by_cases dirty : f.isDirty = true
    · cases answer : writeFile fs path f with
      | mk next result =>
        cases result with
        | error e' =>
          rw [writeFiles_of_refused dirty answer] at failed
          simp only [Prod.mk.injEq, Transfer.mk.injEq, Except.error.injEq] at failed
          have ⟨disk, _, log, why⟩ := failed
          rw [← log, ← disk, ← why]
          exact ⟨[], path, f, rest, fs, [], rfl, dirty, rfl, answer⟩
        | ok _ =>
          rw [writeFiles_of_written dirty answer] at failed
          simp only [Prod.mk.injEq, Transfer.mk.injEq] at failed
          have ⟨disk, _, log, ended⟩ := failed
          have behind : (writeFiles next rest).2.result = .error e := by
            cases tail : (writeFiles next rest).2.result with
            | error e' => simpa [tail, Except.map] using ended
            | ok others => simp [tail, Except.map] at ended
          have ⟨front, p, g, back, mid, paths, split, marked, before, refused⟩ :=
            ih (Prod.ext disk (congrArg (Transfer.mk _ _) behind))
          refine ⟨(path, f) :: front, p, g, back, mid, path :: paths, ?_, marked, ?_, refused⟩
          · rw [split]
            rfl
          · rw [writeFiles_of_written dirty answer, before, ← log]
            rfl
    · rw [writeFiles_of_clean_head dirty] at failed
      simp only [Prod.mk.injEq, Transfer.mk.injEq] at failed
      have ⟨disk, _, log, ended⟩ := failed
      have ⟨front, p, g, back, mid, paths, split, marked, before, refused⟩ :=
        ih (Prod.ext disk (congrArg (Transfer.mk _ _) ended))
      refine ⟨(path, f) :: front, p, g, back, mid, paths, ?_, marked, ?_, refused⟩
      · rw [split]
        rfl
      · have same : cleaned ((path, f) :: front) = (path, f) :: cleaned front := by
          show (path, f.clean) :: cleaned front = (path, f) :: cleaned front
          rw [File.clean_eq_self (Bool.eq_false_iff.mpr dirty)]
        rw [writeFiles_of_clean_head dirty, before, ← log, same]

/-- A flush that fails has come to a dirty file that was refused. -/
theorem exists_refused_of_flush {s stopped : Store} {fs left : FileSystem} {events : List Event}
    {e : FileError} (failed : s.flush fs = (stopped, left, events, .error e)) :
    ∃ front path f back paths mid, s.Comes fs front path f back events paths mid ∧
      writeFile mid path f = (left, .error e) := by
  unfold flush at failed
  simp only [Prod.mk.injEq] at failed
  have ⟨_, disk, log, ended⟩ := failed
  have whole : writeFiles fs s.files =
      (left, ⟨(writeFiles fs s.files).2.files, events, .error e⟩) := by
    rw [← disk, ← log, ← ended]
  have ⟨front, path, f, back, mid, paths, split, dirty, before, refused⟩ :=
    exists_refused_of_writeFiles whole
  refine ⟨front, path, f, back, paths, mid, ⟨split, dirty, ?_⟩, refused⟩
  unfold flush
  rw [before]
  exact ⟨_, rfl⟩

/-- When the files at the front have been written step by step, a dirty file that is refused ends
it. -/
theorem writeFilesBy_of_refused {manner : Path → FileSystem.Manner} {fs left : FileSystem}
    {front : List (Path × File)} {path : Path} {f : File} {paths : List Path} {e : FileError}
    (done : (writeFilesBy manner fs front).2.result = .ok paths) (dirty : f.isDirty = true)
    (refused : writeFileBy (manner path) (writeFilesBy manner fs front).1 path f =
      (left, .error e)) (back : List (Path × File)) :
    writeFilesBy manner fs (front ++ (path, f) :: back) =
      (left, ⟨(writeFilesBy manner fs front).2.files ++ (path, f) :: back,
        (writeFilesBy manner fs front).2.events, .error e⟩) := by
  induction front generalizing fs paths with
  | nil =>
    have here : writeFileBy (manner path) fs path f = (left, .error e) := refused
    show writeFilesBy manner fs ((path, f) :: back) = (left, ⟨(path, f) :: back, [], .error e⟩)
    rw [writeFilesBy, if_pos dirty, here]
  | cons entry front ih =>
    obtain ⟨first, g⟩ := entry
    rw [List.cons_append]
    by_cases marked : g.isDirty = true
    · rw [writeFilesBy, if_pos marked] at done refused ⊢
      rw [writeFilesBy, if_pos marked]
      cases answer : writeFileBy (manner first) fs first g with
      | mk next result =>
        rw [answer] at done refused
        cases result with
        | error e' => contradiction
        | ok _ =>
          cases tail : (writeFilesBy manner next front).2.result with
          | error e' => simp [tail, Except.map] at done
          | ok others =>
            dsimp only at refused ⊢
            rw [ih tail refused]
            rfl
    · rw [writeFilesBy, if_neg marked] at done refused ⊢
      rw [writeFilesBy, if_neg marked, ih done refused]
      rfl

/-- A file that is refused is so step by step as well, and what is left is the same when no step is
refused for other reasons. -/
theorem writeFileBy_of_refused {m : FileSystem.Manner} (allows : ∀ stage, m.refuses stage = none)
    {fs left : FileSystem} {path : Path} {f : File} {e : FileError}
    (refused : writeFile fs path f = (left, .error e)) :
    ∃ e', writeFileBy m fs path f = (left, .error e') := by
  unfold writeFile at refused
  unfold writeFileBy
  cases read : fs.readOrEmpty path with
  | error e' =>
    rw [read] at refused
    have same : fs = left := (Prod.mk.inj refused).1
    rw [same]
    exact ⟨e', rfl⟩
  | ok current =>
    rw [read] at refused
    exact FileSystem.replaceDeepBy_of_refused allows refused

/-- Where a file is refused step by step, for whatever reason, there may be new directories above
it, and nothing else. -/
theorem builds_of_writeFileBy_error {m : FileSystem.Manner} {fs left : FileSystem} {path : Path}
    {f : File} {e : FileError} (refused : writeFileBy m fs path f = (left, .error e)) :
    FileSystem.Builds (fun _ => False) (fs.Passes path.parent) fs left := by
  unfold writeFileBy at refused
  cases read : fs.readOrEmpty path with
  | error e' =>
    rw [read] at refused
    have same : fs = left := (Prod.mk.inj refused).1
    rw [same]
    exact .refl _ _ _
  | ok current =>
    rw [read] at refused
    exact (FileSystem.builds_of_replaceDeepBy_error refused).1

section

variable {s : Store} {fs mid left : FileSystem} {front back : List (Path × File)} {path : Path}
  {f : File} {events : List Event} {paths : List Path} {e : FileError}
  (comes : s.Comes fs front path f back events paths mid)
  (opened : FileSystem.Builds (fun _ => False) (mid.Passes path.parent) mid left)

include comes

/-- What writing the files at the front leaves. -/
theorem Comes.writeFiles_eq :
    writeFiles fs front = (mid, ⟨cleaned front, events, .ok paths⟩) := by
  have ⟨ahead, before⟩ := comes.before
  unfold flush at before
  simp only [Prod.mk.injEq] at before
  have ⟨_, disk, logged, ended⟩ := before
  have ⟨files, _⟩ := cleaned_of_writeFiles ended
  rw [← disk, ← logged, ← ended, ← files]

/-- All files at the front have been written. -/
theorem Comes.result_eq : (writeFiles fs front).2.result = .ok paths := by
  rw [comes.writeFiles_eq]

/-- What was dirty at the front has been written, and the rest is still dirty. -/
theorem Comes.dirtyPaths_eq :
    paths = (front.filter fun entry => entry.2.isDirty).map Prod.fst ∧
      s.dirtyPaths = paths ++
        Store.dirtyPaths { s with files := cleaned front ++ (path, f) :: back } := by
  have ⟨_, paths_eq⟩ := cleaned_of_writeFiles comes.result_eq
  have clean : (cleaned front).filter (fun entry => entry.2.isDirty) = [] := by
    rw [List.filter_eq_nil_iff]
    exact fun entry member => Bool.eq_false_iff.mp (clean_cleaned front entry member)
  refine ⟨paths_eq, ?_⟩
  unfold dirtyPaths
  dsimp only
  rw [comes.split, List.filter_append, List.filter_append, List.map_append, clean, ← paths_eq,
    List.nil_append]

include opened in
/-- What a flush leaves on disk that has stopped. -/
theorem Comes.builds :
    FileSystem.Builds (fun place => ∃ done ∈ paths, place = fs.placeOf done)
      (fun place => ∃ tried ∈ paths ++ [path], fs.Passes tried.parent place) fs left := by
  have first := builds_of_writeFiles_ok comes.result_eq
  rw [comes.writeFiles_eq] at first
  apply (first.mono (fun _ here => here) _).trans (opened.mono (fun _ => False.elim) _)
  · intro place ⟨done, member, passes⟩
    exact ⟨done, List.mem_append_left _ member, passes⟩
  · intro place passes
    exact ⟨path, List.mem_append_right _ List.mem_cons_self, first.passes_iff.mp passes⟩

/-- When places are cleared on no way to what has been written at the front, it is written as well
without what was there, and all is alike behind it. -/
theorem Comes.alike {gone : Place → Bool} (spared : ∀ done ∈ paths, fs.Spares gone done) :
    ∃ reached, writeFiles (fs.without gone) front = (reached, ⟨cleaned front, events, .ok paths⟩) ∧
      reached.Alike (mid.without gone) := by
  have ⟨_, paths_eq⟩ := cleaned_of_writeFiles comes.result_eq
  have clear : ∀ entry ∈ front, entry.2.isDirty = true → fs.Spares gone entry.1 := by
    intro entry member dirty
    apply spared
    rw [paths_eq]
    exact List.mem_map_of_mem (List.mem_filter.mpr ⟨member, dirty⟩)
  have ⟨same, disk⟩ := writeFiles_without clear comes.result_eq
  rw [comes.writeFiles_eq] at same disk
  exact ⟨_, Prod.ext rfl same, disk.symm⟩

/-- A flush that cannot read or write a file raises why. -/
theorem Comes.flush_eq (refused : writeFile mid path f = (left, .error e)) :
    s.flush fs =
      ({ s with files := cleaned front ++ (path, f) :: back }, left, events, .error e) := by
  rw [flush_append comes.split comes.result_eq, comes.writeFiles_eq]
  dsimp only
  rw [writeFiles_of_refused comes.dirty refused, List.append_nil]
  rfl

/-- A flush that cannot write a file step by step raises why. -/
theorem Comes.flushBy_eq {manner : Path → FileSystem.Manner} {ahead' : Store}
    {mid' : FileSystem} {events' : List Event} {paths' : List Path}
    (done : flushBy manner { s with files := front } fs = (ahead', mid', events', .ok paths'))
    (refused : writeFileBy (manner path) mid path f = (left, .error e)) :
    s.flushBy manner fs =
      ({ s with files := cleaned front ++ (path, f) :: back }, left, events, .error e) := by
  unfold flushBy at done
  simp only [Prod.mk.injEq] at done
  have ⟨_, _, _, ended⟩ := done
  have same := writeFiles_of_writeFilesBy ended
  rw [comes.writeFiles_eq] at same
  have stops : writeFileBy (manner path) (writeFilesBy manner fs front).1 path f =
      (left, .error e) := by
    rw [← same]
    exact refused
  have whole := writeFilesBy_of_refused ended comes.dirty stops back
  rw [← same] at whole
  unfold flushBy
  rw [comes.split, whole]

include opened in
/-- What a flush leaves behind that has made nothing of a file but directories on the way, if the
dirty files are at different places. -/
theorem Comes.stopped (apart : (s.dirtyPaths.map fs.placeOf).Nodup) :
    Stopped s fs front path ((path, f) :: back) paths mid
      { s with files := cleaned front ++ (path, f) :: back } left := by
  have ended := comes.result_eq
  have ⟨paths_eq, all⟩ := comes.dirtyPaths_eq
  have builds := comes.builds opened
  rw [all, List.map_append, List.nodup_append] at apart
  have ⟨early, _, different⟩ := apart
  refine ⟨rfl, ?buffers, ?reading, all, ?written, ?kept, ?others⟩
  case buffers =>
    unfold buffers cleaned
    rw [comes.split, List.map_append, List.map_append, List.map_map]
    rfl
  case reading =>
    unfold reading cleaned
    rw [comes.split, List.map_append, List.map_append, List.map_map]
    rfl
  case written =>
    intro done member
    have ⟨disk, same⟩ := writeFiles_dirty fs front
    rw [ended] at same
    rw [paths_eq, List.map_map] at early
    rw [paths_eq] at member
    have ⟨entry, listed, here⟩ := List.mem_map.mp member
    have marked : entry.2.isDirty = true := (List.mem_filter.mp listed).2
    have ⟨located, current, _, there⟩ := node?_of_writeFiles same early listed marked
    rw [disk, comes.writeFiles_eq, here] at located there
    exact ⟨opened.grows.locate located, _, there, (opened.file_iff id).mpr there⟩
  case kept =>
    intro later member bytes
    apply builds.file_iff
    intro ⟨done, written, same⟩
    exact different _ (List.mem_map_of_mem written) _ (List.mem_map_of_mem member) same.symm
  case others =>
    intro place elsewhere
    exact builds.nodes place fun ⟨done, member, here⟩ => elsewhere done member here

include opened in
/-- Another flush goes on where one has stopped, when places are cleared that are on no way to what
has been written, and the file is written alike without and with the directories on its way. -/
theorem Comes.resumes {gone : Place → Bool} (spared : ∀ done ∈ paths, fs.Spares gone done)
    (writes : (mid.without gone).WritesAlike (left.without gone) path) :
    Resumes s fs events paths { s with files := cleaned front ++ (path, f) :: back } left
      gone := by
  have dirty := comes.dirty
  have ⟨reached, first, same⟩ := comes.alike spared
  have alike := (same.writesAlike path).trans writes
  have home : (left.without gone).home = fs.home := (comes.builds opened).home_eq
  -- Both flushes come to the file that was refused, and go on alike from there.
  have single : s.flush (fs.without gone) =
      let rest := writeFiles reached ((path, f) :: back)
      ({ s with files := cleaned front ++ rest.2.files }, rest.1, events ++ rest.2.events,
        rest.2.result.map (paths ++ ·)) := by
    have ended : (writeFiles (fs.without gone) front).2.result = .ok paths := by rw [first]
    rw [flush_append comes.split ended, first]
  have second : Store.flush { s with files := cleaned front ++ (path, f) :: back }
      (left.without gone) =
      let rest := writeFiles (left.without gone) ((path, f) :: back)
      ({ s with files := cleaned front ++ rest.2.files }, rest.1, rest.2.events,
        rest.2.result) := by
    unfold flush
    rw [writeFiles_append_of_clean (clean_cleaned front)]
  constructor
  · intro saved disk log all done
    rw [single] at done
    simp only [Prod.mk.injEq] at done
    have ⟨store, _, _, ended⟩ := done
    cases tail : (writeFiles reached ((path, f) :: back)).2.result with
    | error e => simp [tail, Except.map] at ended
    | ok rest =>
      have ⟨same, _⟩ := writeFiles_writesAlike writeFiles_alike alike dirty tail
      rw [second]
      dsimp only
      rw [same, tail, store]
      exact ⟨_, _, _, rfl⟩
  · intro saved disk later rest done
    have ⟨_, rest_eq⟩ := cleaned_of_flush done
    have builds := builds_of_flush done
    rw [FileSystem.placeOf_congr home, FileSystem.passes_congr home] at builds
    rw [second] at done
    simp only [Prod.mk.injEq] at done
    have ⟨store, disk_eq, log, ended⟩ := done
    have ⟨same, disks⟩ := writeFiles_writesAlike writeFiles_alike alike.symm dirty ended
    rw [disk_eq] at disks
    refine ⟨rest_eq, fun place elsewhere => ?_, _, ?_, disks.symm⟩
    · exact builds.nodes place fun ⟨done, member, here⟩ => elsewhere done member here
    · rw [single]
      dsimp only
      rw [same, ended, store, log]
      rfl

end

/-- A flush that ends with an error has come to a dirty file that it could not read or write. Where
it comes to such a file, and the dirty files are at different places, it raises why, and leaves the
files in front of it written and clean and the others as they were; so it does step by step, and
none of the new files is left. When places are cleared after that, on no way to what has been
written, another flush goes on with the others: it succeeds when a single flush does that finds
these places clear, and then disk and store are as that flush leaves them. All this is so as well
when a step of writing the file is refused for any other reason, be it between the making of the new
file and the moving, if the file shows what is at its place. -/
theorem stopped_and_resumed {s : Store} {fs : FileSystem}
    (apart : (s.dirtyPaths.map fs.placeOf).Nodup) :
    (∀ stopped left events e, s.flush fs = (stopped, left, events, .error e) →
      ∃ front path f back paths mid, s.Comes fs front path f back events paths mid ∧
        writeFile mid path f = (left, .error e)) ∧
    ∀ front path f back events paths mid, s.Comes fs front path f back events paths mid →
      (∀ left e, writeFile mid path f = (left, .error e) →
        ∃ stopped, s.flush fs = (stopped, left, events, .error e) ∧
          Stopped s fs front path ((path, f) :: back) paths mid stopped left ∧
          (∀ manner ahead' mid' events' paths', (∀ stage, (manner path).refuses stage = none) →
            flushBy manner { s with files := front } fs = (ahead', mid', events', .ok paths') →
              ∃ e', s.flushBy manner fs = (stopped, left, events, .error e')) ∧
          ∀ gone, (∀ done ∈ paths, fs.Spares gone done) →
            Resumes s fs events paths stopped left gone) ∧
      ∀ manner ahead' mid' events' paths' left e,
        flushBy manner { s with files := front } fs = (ahead', mid', events', .ok paths') →
        writeFileBy (manner path) mid path f = (left, .error e) →
          ∃ stopped, s.flushBy manner fs = (stopped, left, events, .error e) ∧
            Stopped s fs front path ((path, f) :: back) paths mid stopped left ∧
            ∀ gone, (∀ done ∈ paths, fs.Spares gone done) → (mid.without gone).Shows path →
              Resumes s fs events paths stopped left gone := by
  refine ⟨fun _ _ _ _ failed => exists_refused_of_flush failed, ?_⟩
  intro front path f back events paths mid comes
  constructor
  · intro left e refused
    have ⟨unwritable, opened⟩ := refused_of_writeFile refused
    refine ⟨{ s with files := cleaned front ++ (path, f) :: back }, comes.flush_eq refused,
      comes.stopped opened apart, ?steps, fun gone spared => ?resumes⟩
    case steps =>
      intro manner _ _ _ _ allows done
      have ⟨e', refused'⟩ := writeFileBy_of_refused allows refused
      exact ⟨e', comes.flushBy_eq done refused'⟩
    case resumes => exact comes.resumes opened spared (opened.writesAlike gone unwritable)
  · intro manner _ _ _ _ left e done refused
    have opened := builds_of_writeFileBy_error refused
    refine ⟨{ s with files := cleaned front ++ (path, f) :: back },
      comes.flushBy_eq done refused, comes.stopped opened apart, fun gone spared shows => ?_⟩
    exact comes.resumes opened spared (opened.writesAlike_of_shows shows)

/-- Blank files of one byte in the home directory. -/
def atHome (names : List String) : Store where
  files := names.map fun name => (⟨.relative, [name]⟩, .blank 1)

/-- A file in the home directory is written at once. -/
theorem writeFile_atHome {fs written : FileSystem} {name : String} {f : File}
    {current : Array UInt8} (read : fs.readOrEmpty ⟨.relative, [name]⟩ = .ok current)
    (put : fs.replace ⟨.relative, [name]⟩ (f.overlay current) = .ok written) :
    writeFile fs ⟨.relative, [name]⟩ f = (written, .ok ()) := by
  have above : (Path.mk .relative [name]).parent = ⟨.relative, []⟩ := rfl
  have home := fs.makeDirectories_home
  rw [← above] at home
  unfold writeFile
  rw [read]
  exact FileSystem.below_eq_ok_iff.mpr ⟨fs, home, put⟩

/-- Of three logs the second one cannot be written, as there is a directory. When that is gone, the
second and the third one are written behind the first. -/
theorem stopped_and_resumed_directory :
    ∃ s stopped mid left events e saved second later,
      (atHome ["a", "b", "c"]).markRanges [⟨⟨⟨.relative, ["a"]⟩, 0⟩, 1, code⟩,
        ⟨⟨⟨.relative, ["b"]⟩, 0⟩, 1, code⟩, ⟨⟨⟨.relative, ["c"]⟩, 0⟩, 1, code⟩] = .ok s ∧
      s.flush ⟨[], [(["b"], .directory)]⟩ = (stopped, left, events, .error e) ∧
      (∃ front behind, Stopped s ⟨[], [(["b"], .directory)]⟩ front ⟨.relative, ["b"]⟩ behind
        [⟨.relative, ["a"]⟩] mid stopped left) ∧
      stopped.flush (left.without (· == ["b"])) =
        (saved, second, later, .ok [⟨.relative, ["b"]⟩, ⟨.relative, ["c"]⟩]) ∧
      Resumed s ⟨[], [(["b"], .directory)]⟩ events [⟨.relative, ["a"]⟩] stopped left (· == ["b"])
        saved second later [⟨.relative, ["b"]⟩, ⟨.relative, ["c"]⟩] ∧
      second.nodes = [(["a"], .file #[1]), (["b"], .file #[1]), (["c"], .file #[1])] := by
  have ⟨s, marked⟩ : ∃ s, (atHome ["a", "b", "c"]).markRanges
      [⟨⟨⟨.relative, ["a"]⟩, 0⟩, 1, code⟩, ⟨⟨⟨.relative, ["b"]⟩, 0⟩, 1, code⟩,
        ⟨⟨⟨.relative, ["c"]⟩, 0⟩, 1, code⟩] = .ok s := ⟨_, rfl⟩
  have ⟨f, files, dirty, bytes⟩ : ∃ f, s.files = [(⟨.relative, ["a"]⟩, f),
      (⟨.relative, ["b"]⟩, f), (⟨.relative, ["c"]⟩, f)] ∧
      f.isDirty = true ∧ f.overlay #[] = #[1] := by
    rw [← Except.ok.inj marked]
    exact ⟨_, rfl, File.isDirty_eq_true_iff.mpr ⟨0, by decide⟩, by decide⟩
  have first : writeFile ⟨[], [(["b"], .directory)]⟩ ⟨.relative, ["a"]⟩ f =
      (⟨[], [(["b"], .directory), (["a"], .file (f.overlay #[]))]⟩, .ok ()) :=
    writeFile_atHome rfl rfl
  have before : Store.flush { s with files := [(⟨.relative, ["a"]⟩, f)] }
      ⟨[], [(["b"], .directory)]⟩ = ({ s with files := [(⟨.relative, ["a"]⟩, f.clean)] },
        ⟨[], [(["b"], .directory), (["a"], .file (f.overlay #[]))]⟩,
        [.logWritten ⟨.relative, ["a"]⟩], .ok [⟨.relative, ["a"]⟩]) := by
    unfold flush
    rw [writeFiles_of_written dirty first]
    rfl
  have refused : writeFile ⟨[], [(["b"], .directory), (["a"], .file (f.overlay #[]))]⟩
      ⟨.relative, ["b"]⟩ f = (⟨[], [(["b"], .directory), (["a"], .file (f.overlay #[]))]⟩,
        .error (.isDirectory "b")) := rfl
  have listed : s.dirtyPaths = [⟨.relative, ["a"]⟩, ⟨.relative, ["b"]⟩, ⟨.relative, ["c"]⟩] := by
    unfold dirtyPaths
    rw [files]
    simp [dirty]
  have apart : (s.dirtyPaths.map
      (⟨[], [(["b"], .directory)]⟩ : FileSystem).placeOf).Nodup := by
    rw [listed]
    decide
  have ⟨_, each⟩ := stopped_and_resumed apart
  have ⟨stops, _⟩ := each _ _ _ _ _ _ _ ⟨files, dirty, _, before⟩
  have ⟨stopped, raised, stops, _, resumes⟩ := stops _ _ refused
  have spared : ∀ done ∈ [(⟨.relative, ["a"]⟩ : Path)],
      (⟨[], [(["b"], .directory)]⟩ : FileSystem).Spares (· == ["b"]) done := by
    intro done member place ⟨names, begins, here⟩
    rw [List.mem_singleton.mp member] at begins here
    rcases List.prefix_cons_iff.mp begins with none | ⟨others, same, behind⟩
    · rw [here, none]
      rfl
    · rw [here, same, List.prefix_nil.mp behind]
      rfl
  have second : writeFile ⟨[], [(["a"], .file (f.overlay #[]))]⟩ ⟨.relative, ["b"]⟩ f =
      (⟨[], [(["a"], .file (f.overlay #[])), (["b"], .file (f.overlay #[]))]⟩, .ok ()) :=
    writeFile_atHome rfl rfl
  have third : writeFile ⟨[], [(["a"], .file (f.overlay #[])), (["b"], .file (f.overlay #[]))]⟩
      ⟨.relative, ["c"]⟩ f = (⟨[], [(["a"], .file (f.overlay #[])),
        (["b"], .file (f.overlay #[])), (["c"], .file (f.overlay #[]))]⟩, .ok ()) :=
    writeFile_atHome rfl rfl
  have ⟨saved, later, resumed⟩ : ∃ saved later,
      stopped.flush (⟨[], [(["a"], .file (f.overlay #[]))]⟩ : FileSystem) =
        (saved, ⟨[], [(["a"], .file (f.overlay #[])), (["b"], .file (f.overlay #[])),
          (["c"], .file (f.overlay #[]))]⟩, later,
          .ok [⟨.relative, ["b"]⟩, ⟨.relative, ["c"]⟩]) := by
    rw [stops.stopped_eq]
    unfold flush
    rw [writeFiles_append_of_clean (clean_cleaned _), writeFiles_of_written dirty second,
      writeFiles_of_written dirty third]
    exact ⟨_, _, rfl⟩
  have whole := (resumes (· == ["b"]) spared).resumed resumed
  rw [bytes] at raised stops resumed whole
  exact ⟨s, stopped, _, _, _, _, saved, _, later, marked, raised, ⟨_, _, stops⟩, resumed,
    whole, rfl⟩

end BankTrace.Cdl.Store
