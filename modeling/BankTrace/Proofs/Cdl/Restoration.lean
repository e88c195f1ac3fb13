import BankTrace.Proofs.Cdl.Account

/-!
# Saving and restoring

A store is read from disk, marked and written back; a store of the same sizes that is read behind
that has the same bytes. A dirty byte comes back because it has been written, and any other because
it is still the one that was read. That needs the paths to be separate: two that lead to one place
write over each other, and one that leads through the place of another can make a directory there.
It also needs that what was read was what is there. A path that leads through a directory that does
not exist is read as nothing, whatever is at its end, and writing makes the directory.
-/

namespace BankTrace

namespace FileSystem

/-- There is nothing at a path, and all that can keep it from being followed is that directories are
missing on its way. -/
structure Awaits (fs : FileSystem) (path : Path) : Prop where
  /-- Nothing is at the end. -/
  nothing : fs.node? (fs.placeOf path) = none
  /-- No file is on the way. -/
  way : ∀ place, fs.Passes path.parent place → ∀ bytes, fs.node? place ≠ some (.file bytes)
  /-- No name is too long. -/
  short : ∀ name ∈ path.names, name.utf8ByteSize ≤ nameLimit

/-- What a path reads is what is at its place: it can be followed, or there is nothing. -/
def Reaches (fs : FileSystem) (path : Path) : Prop :=
  (∃ place, fs.locate path = .ok place) ∨ fs.Awaits path

/-- What a path reads is what is at its place. -/
theorem Reaches.contents_eq {fs : FileSystem} {path : Path} (reaches : fs.Reaches path) :
    fs.contents path = fs.bytesAt (fs.placeOf path) := by
  rcases reaches with ⟨place, located⟩ | awaits
  · rw [contents_of_locate located, eq_placeOf_of_locate located]
  · have nothing : fs.bytesAt (fs.placeOf path) = #[] := by
      unfold bytesAt
      rw [awaits.nothing]
    rcases fs.contents_cases path with unread | read
    · rw [unread, nothing]
    · exact read

/-- A path to nothing reads as nothing. -/
theorem Awaits.readOrEmpty_eq {fs : FileSystem} {path : Path} (awaits : fs.Awaits path)
    (spelt : Spelt path) : fs.readOrEmpty path = .ok #[] := by
  have way : ∀ front, front <+: path.names.dropLast → ∀ bytes,
      fs.node? (front.foldl step (fs.origin path.root)) ≠ some (.file bytes) :=
    fun front begins => awaits.way _ ⟨front, begins, rfl⟩
  have followed : fs.locate path = fs.walk path.toString (fs.origin path.root) path.names := by
    unfold locate follow
    rw [if_neg (by rw [spelt.1]; exact Bool.false_ne_true), if_neg (Nat.not_le.mpr spelt.2)]
  have walked : fs.walk path.toString (fs.origin path.root) path.names = .ok (fs.placeOf path) ∨
      fs.walk path.toString (fs.origin path.root) path.names = .error (.notFound path.toString) :=
    walk_of_way way awaits.short
  unfold readOrEmpty read find
  rw [followed]
  rcases walked with located | lost
  · rw [located]
    simp only [bind, Except.bind]
    rw [awaits.nothing]
    rfl
  · rw [lost]
    rfl

/-- A path still leads to nothing when neither its end nor its way is written, and no directory is
opened at its end. -/
theorem Awaits.of_builds {written opened : Place → Prop} {before after : FileSystem} {path : Path}
    (awaits : before.Awaits path) (builds : Builds written opened before after)
    (unwritten : ¬written (before.placeOf path)) (unopened : ¬opened (before.placeOf path))
    (aside : ∀ place, before.Passes path.parent place → ¬written place) : after.Awaits path where
  nothing := by
    rw [builds.placeOf_eq]
    rcases builds.nodes _ unwritten with stays | ⟨_, _, absurdity⟩
    · exact stays.trans awaits.nothing
    · exact absurd absurdity unopened
  way := by
    intro place passes bytes there
    have passed := builds.passes_iff.mp passes
    rcases builds.nodes place (aside place passed) with stays | ⟨_, made, _⟩
    · exact awaits.way place passed bytes (stays.symm.trans there)
    · rw [made] at there
      exact Node.noConfusion (Option.some.inj there)
  short := awaits.short

end FileSystem

namespace Cdl

namespace File

/-- What is written behind the end of a file in memory is what was there. -/
theorem getElem?_overlay (f : File) (current : Array UInt8) {i : Nat} (behind : f.size ≤ i) :
    (f.overlay current)[i]? = current[i]? := by
  have clean : f.dirty.toArray.getD i false = false := by
    rw [Array.getD_eq_getD_getElem?, Array.getElem?_eq_none (by simpa using behind)]
    rfl
  unfold overlay
  rw [Array.getElem?_ofFn]
  split
  case isTrue inside =>
    have there : i < current.size := by omega
    simp [clean, there]
  case isFalse outside =>
    rw [Array.getElem?_eq_none (by omega)]

end File

namespace Store

/-- Mark stretches one after the other, each of which must be there. -/
def markRanges (s : Store) (marks : List Mark) : Except Error Store :=
  marks.foldlM (fun s m => s.markRange m.position.file m.position.offset m.count m.bits) s

/-- Stretches that can all be marked are marked. -/
theorem eq_markAll_of_markRanges {s marked : Store} {marks : List Mark}
    (done : s.markRanges marks = .ok marked) : marked = s.markAll marks := by
  induction marks generalizing s with
  | nil => exact (Except.ok.inj done).symm
  | cons m rest ih =>
    unfold markRanges at done
    rw [List.foldlM_cons] at done
    cases first : s.markRange m.position.file m.position.offset m.count m.bits with
    | error e => simp [first, bind, Except.bind] at done
    | ok next =>
      rw [first] at done
      rw [ih done, eq_mark_of_markRange first]
      rfl

/-- Log paths are separate on a disk. -/
structure Separate (fs : FileSystem) (paths : List Path) : Prop where
  /-- Different paths lead to different places. -/
  apart : (paths.map fs.placeOf).Nodup
  /-- No path leads through the place of a path. -/
  aside : ∀ p ∈ paths, ∀ q ∈ paths, ¬fs.Passes q.parent (fs.placeOf p)

/-- Marks leave the files of a store behind their bases. -/
theorem follows_markAll {base : Path → Nat → UInt8} {s : Store} (marks : List Mark)
    (follows : ∀ path f, s.file? path = some f → f.Follows (base path)) :
    ∀ path f, (s.markAll marks).file? path = some f → f.Follows (base path) := by
  induction marks generalizing s with
  | nil => exact follows
  | cons m rest ih =>
    apply ih
    intro path f found
    rw [file?_mark] at found
    split at found
    · rw [Option.map_eq_some_iff] at found
      obtain ⟨g, before, changed⟩ := found
      rw [← changed]
      exact (follows path g before).markRange _ _ _
    · exact follows path f found

/-- The files of a store that was read follow the bytes that it has. -/
theorem ReadFrom.follows {fs : FileSystem} {blank s : Store} (read : ReadFrom fs blank s)
    (path : Path) (f : File) (found : s.file? path = some f) :
    f.Follows fun i : Nat => s.byteAt ⟨path, i⟩ := by
  rw [← Account.byte_eq_byteAt found]
  apply File.follows_byte
  intro i
  have none := (read.byteAt_eq ⟨path, i⟩).2
  unfold dirtyAt at none
  rw [found] at none
  exact none

/-- The answer of writing names the files that were written. -/
theorem eq_writtenIn_of_writeFiles {fs : FileSystem} {files : List (Path × File)}
    {paths : List Path} (done : (writeFiles fs files).2.result = .ok paths) :
    paths = writtenIn (writeFiles fs files).2.events := by
  induction files generalizing fs paths with
  | nil => exact (Except.ok.inj done).symm
  | cons entry rest ih =>
    obtain ⟨path, f⟩ := entry
    unfold writeFiles at done ⊢
    by_cases dirty : f.isDirty = true
    · rw [if_pos dirty] at done ⊢
      cases answer : writeFile fs path f with
      | mk next result =>
      rw [answer] at done
      cases result with
      | error e => contradiction
      | ok _ =>
        cases tail : (writeFiles next rest).2.result with
        | error e => simp [tail, Except.map] at done
        | ok others =>
          simp only [tail, Except.map, Except.ok.injEq] at done
          rw [← done, ih tail]
          rfl
    · rw [if_neg dirty] at done ⊢
      exact ih done

section

variable {fs written : FileSystem} {files : List (Path × File)} {path : Path} {f : File}

/-- The place of a clean file is not written. -/
theorem unwritten_of_clean (apart : (files.map fun entry => fs.placeOf entry.1).Nodup)
    (member : (path, f) ∈ files) (clean : f.isDirty = false) :
    ¬∃ other ∈ writtenIn (writeFiles fs files).2.events, fs.placeOf path = fs.placeOf other := by
  rintro ⟨other, logged, same⟩
  obtain ⟨entry, known, dirty, rfl⟩ := exists_dirty_of_mem_writtenIn logged
  have equal := List.inj_on_of_nodup_map apart member known same
  rw [← equal, clean] at dirty
  contradiction

/-- At the place of a clean file nothing changes, and neither does what is read there. -/
theorem of_clean (apart : (files.map fun entry => fs.placeOf entry.1).Nodup)
    (aside : ∀ entry ∈ files, ∀ other ∈ files, ¬fs.Passes other.1.parent (fs.placeOf entry.1))
    (reaches : fs.Reaches path) (readable : fs.readOrEmpty path = .ok (fs.contents path))
    (member : (path, f) ∈ files) (clean : f.isDirty = false) :
    (writeFiles fs files).1.node? (fs.placeOf path) = fs.node? (fs.placeOf path) ∧
      (writeFiles fs files).1.readOrEmpty path = .ok (fs.contents path) := by
  have builds := builds_writeFiles fs files
  have unwritten := unwritten_of_clean apart member clean
  have unopened : ¬∃ entry ∈ files, entry.2.isDirty = true ∧
      fs.Passes entry.1.parent (fs.placeOf path) := by
    rintro ⟨entry, known, _, passes⟩
    exact aside _ member entry known passes
  have stays : (writeFiles fs files).1.node? (fs.placeOf path) = fs.node? (fs.placeOf path) := by
    rcases builds.nodes _ unwritten with stays | ⟨_, _, opened⟩
    · exact stays
    · exact absurd opened unopened
  refine ⟨stays, ?_⟩
  rcases reaches with ⟨place, located⟩ | awaits
  · have here := FileSystem.eq_placeOf_of_locate located
    rw [← here] at stays
    rw [FileSystem.readOrEmpty_congr located (builds.grows.locate located) stays]
    exact readable
  · have spelt := FileSystem.spelt_of_readOrEmpty readable
    have nothing : fs.contents path = #[] := by
      rw [awaits.readOrEmpty_eq spelt] at readable
      exact (Except.ok.inj readable).symm
    rw [nothing]
    apply (awaits.of_builds builds unwritten unopened ?_).readOrEmpty_eq spelt
    rintro place passes ⟨other, logged, rfl⟩
    obtain ⟨entry, known, _, rfl⟩ := exists_dirty_of_mem_writtenIn logged
    exact aside entry known _ member passes

/-- A dirty file is read as it was written, over what was read before. -/
theorem of_dirty {paths : List Path} (done : (writeFiles fs files).2.result = .ok paths)
    (apart : (files.map fun entry => fs.placeOf entry.1).Nodup)
    (reaches : fs.Reaches path) (member : (path, f) ∈ files) (dirty : f.isDirty = true) :
    (writeFiles fs files).1.node? (fs.placeOf path) =
        some (.file (f.overlay (fs.contents path))) ∧
      (writeFiles fs files).1.readOrEmpty path = .ok (f.overlay (fs.contents path)) := by
  obtain ⟨located, current, known, there⟩ := node?_of_writeFiles done apart member dirty
  have same : current = fs.contents path := by
    rcases known with found | ⟨nothing, lost⟩
    · rw [found, reaches.contents_eq]
    · rw [nothing, FileSystem.contents_of_not_located lost]
  rw [same] at there
  exact ⟨there, FileSystem.readOrEmpty_of_file located there⟩

end

/-- A file that is found is one of the files. -/
theorem mem_files_of_file? {s : Store} {path : Path} {f : File} (found : s.file? path = some f) :
    (path, f) ∈ s.files := by
  obtain ⟨front, back, split, _⟩ := List.lookup_eq_some_iff.mp found
  rw [split]
  exact List.mem_append_right _ List.mem_cons_self

section

variable {fs written : FileSystem} {first before s saved : Store} {marks : List Mark}
  {events : List Event} {paths : List Path} (read : ReadFrom fs first before)
  (separate : Separate fs before.paths) (reaches : ∀ path ∈ before.paths, fs.Reaches path)
  (marked : before.markRanges marks = .ok s)
  (flushed : s.flush fs = (saved, written, events, .ok paths))

include marked

/-- Marks keep the reading. -/
theorem reading_of_markRanges : s.reading = before.reading := by
  rw [eq_markAll_of_markRanges marked]
  exact reading_markAll before marks

include read in
/-- A dirty file has a byte that is not the one that was read. -/
theorem exists_changed_of_isDirty {path : Path} {f g : File} (known : before.file? path = some f)
    (found : s.file? path = some g) (dirty : g.isDirty = true) : ∃ i, g.byte i ≠ f.byte i := by
  rw [eq_markAll_of_markRanges marked] at found
  have follows := follows_markAll marks read.follows path g found
  rw [← Account.byte_eq_byteAt known] at follows
  obtain ⟨i, changed⟩ := File.isDirty_eq_true_iff.mp dirty
  exact ⟨i, (follows.dirty i).mp changed⟩

include read in
/-- A clean byte is the one that was read. -/
theorem byteAt_of_clean_markRanges {q : Position} (present : s.Has q)
    (clean : s.dirtyAt q = false) :
    s.byteAt q = (fs.contents q.file).getD q.offset.toNat 0 := by
  have there := (has_congr (reading_of_markRanges marked) q).mp present
  rw [← read.loadedAt_eq there, ← (read.byteAt_eq q).1]
  rw [eq_markAll_of_markRanges marked] at clean ⊢
  exact (byteAt_of_clean_markAll clean).2

include separate in
/-- The files lead to different places, and none through the place of another. -/
theorem separate_files : (s.files.map fun entry => fs.placeOf entry.1).Nodup ∧
    ∀ entry ∈ s.files, ∀ other ∈ s.files, ¬fs.Passes other.1.parent (fs.placeOf entry.1) := by
  have same : s.paths = before.paths := paths_congr (reading_of_markRanges marked)
  have apart := separate.apart
  have aside := separate.aside
  rw [← same] at apart aside
  unfold Store.paths at apart aside
  rw [List.map_map] at apart
  refine ⟨apart, ?_⟩
  intro entry member other known
  exact aside _ (List.mem_map.mpr ⟨entry, member, rfl⟩) _ (List.mem_map.mpr ⟨other, known, rfl⟩)

include read separate reaches flushed

/-- What is on disk for a file of a store that has been written. -/
theorem saved_file {path : Path} {f : File} (member : (path, f) ∈ s.files) :
    (f.isDirty = false → written.node? (fs.placeOf path) = fs.node? (fs.placeOf path) ∧
        written.readOrEmpty path = .ok (fs.contents path)) ∧
      (f.isDirty = true →
        written.node? (fs.placeOf path) = some (.file (f.overlay (fs.contents path))) ∧
          written.readOrEmpty path = .ok (f.overlay (fs.contents path))) := by
  obtain ⟨apart, aside⟩ := separate_files separate marked
  have same : s.paths = before.paths := paths_congr (reading_of_markRanges marked)
  have mine : path ∈ before.paths := by
    rw [← same]
    exact List.mem_map.mpr ⟨(path, f), member, rfl⟩
  have reached := reaches path mine
  have readable : fs.readOrEmpty path = .ok (fs.contents path) :=
    read.readOrEmpty_eq (read.paths_eq ▸ mine)
  unfold flush at flushed
  simp only [Prod.mk.injEq] at flushed
  obtain ⟨_, rfl, _, done⟩ := flushed
  exact ⟨of_clean apart aside reached readable member, of_dirty done apart reached member⟩

/-- What is read of a file of a store that has been written are the bytes of the store. -/
theorem saved_byteAt {q : Position} (present : s.Has q) :
    (written.contents q.file).getD q.offset.toNat 0 = s.byteAt q := by
  obtain ⟨f, found, inside⟩ : ∃ f, s.file? q.file = some f ∧ q.offset.toNat < f.size := by
    obtain ⟨size, sized, start, stop⟩ := present
    rw [lookup_sizes, Option.map_eq_some_iff] at sized
    obtain ⟨f, found, rfl⟩ := sized
    exact ⟨f, found, by omega⟩
  have byte : s.byteAt q = f.byte q.offset.toNat := by
    unfold byteAt
    rw [found]
  have flag : s.dirtyAt q = f.isDirtyAt q.offset.toNat := by
    unfold dirtyAt
    rw [found]
  have clean := byteAt_of_clean_markRanges read marked present
  rw [byte, flag] at clean
  rw [byte]
  have kept := saved_file read separate reaches marked flushed (mem_files_of_file? found)
  have contents : ∀ {bytes}, written.readOrEmpty q.file = .ok bytes →
      written.contents q.file = bytes := by
    intro bytes done
    unfold FileSystem.contents
    rw [done]
    rfl
  cases dirty : f.isDirty with
  | false =>
    rw [contents (kept.1 dirty).2]
    symm
    apply clean
    rw [Bool.eq_false_iff]
    intro marked
    rw [File.isDirty_eq_true_iff.mpr ⟨_, marked⟩] at dirty
    contradiction
  | true =>
    rw [contents (kept.2 dirty).2, File.getD_overlay _ _ inside]
    cases here : f.isDirtyAt q.offset.toNat with
    | true => rfl
    | false => exact (clean here).symm

/-- Behind the end of a file in memory the bytes on disk are as before. -/
theorem saved_behind {path : Path} {f : File} (found : s.file? path = some f) {i : Nat}
    (behind : f.size ≤ i) :
    (written.bytesAt (fs.placeOf path))[i]? = (fs.bytesAt (fs.placeOf path))[i]? := by
  have member := mem_files_of_file? found
  have kept := saved_file read separate reaches marked flushed member
  cases dirty : f.isDirty with
  | false =>
    unfold FileSystem.bytesAt
    rw [(kept.1 dirty).1]
  | true =>
    have mine : path ∈ before.paths := by
      rw [← paths_congr (reading_of_markRanges marked)]
      exact List.mem_map.mpr ⟨(path, f), member, rfl⟩
    rw [FileSystem.bytesAt_of_file (kept.2 dirty).1, File.getElem?_overlay f _ behind,
      (reaches path mine).contents_eq]

/-- A file whose bytes are those that were read is not written. -/
theorem saved_untouched {path : Path} {f g : File} (known : before.file? path = some f)
    (found : s.file? path = some g) (same : g.buffer.toArray = f.buffer.toArray) :
    path ∉ paths ∧ written.node? (fs.placeOf path) = fs.node? (fs.placeOf path) := by
  have member := mem_files_of_file? found
  have clean : g.isDirty = false := by
    rw [Bool.eq_false_iff]
    intro dirty
    obtain ⟨i, differs⟩ := exists_changed_of_isDirty read marked known found dirty
    apply differs
    unfold File.byte
    rw [same]
  refine ⟨?_, ((saved_file read separate reaches marked flushed member).1 clean).1⟩
  obtain ⟨apart, _⟩ := separate_files separate marked
  unfold flush at flushed
  simp only [Prod.mk.injEq] at flushed
  obtain ⟨_, rfl, _, done⟩ := flushed
  rw [eq_writtenIn_of_writeFiles done]
  intro logged
  exact unwritten_of_clean apart member clean ⟨path, logged, rfl⟩

end

/-- A store that is read, marked and written, and another one of the same sizes that is read behind
that: the other one has the same bytes, and none of them is dirty. On disk the bytes behind the ends
stay, and a file whose bytes are those that were read is left alone. The log paths are separate, and
what each of them read at first is what was at its place. -/
theorem restored_of_reaches {fs written : FileSystem} {first before s saved fresh : Store}
    {marks : List Mark} {events : List Event} {paths : List Path} (read : ReadFrom fs first before)
    (separate : Separate fs before.paths) (reaches : ∀ path ∈ before.paths, fs.Reaches path)
    (marked : before.markRanges marks = .ok s)
    (flushed : s.flush fs = (saved, written, events, .ok paths)) (sizes : fresh.sizes = s.sizes) :
    (∃ again, ReadFrom written fresh again ∧ again.buffers = s.buffers ∧
        ∀ path f, again.file? path = some f → f.isDirty = false ∧ f.loaded = some f.buffer) ∧
      ∀ path f g, before.file? path = some f → s.file? path = some g →
        (∀ i, g.size ≤ i →
            (written.bytesAt (fs.placeOf path))[i]? = (fs.bytesAt (fs.placeOf path))[i]?) ∧
          (g.buffer.toArray = f.buffer.toArray →
            path ∉ paths ∧ written.node? (fs.placeOf path) = fs.node? (fs.placeOf path)) := by
  have same : fresh.paths = s.paths := by
    rw [paths_eq_map_sizes, paths_eq_map_sizes, sizes]
  constructor
  · have readable : ∀ path ∈ fresh.paths, ∃ bytes, written.readOrEmpty path = .ok bytes := by
      intro path member
      rw [same] at member
      obtain ⟨⟨_, f⟩, known, rfl⟩ := List.mem_map.mp member
      have kept := saved_file read separate reaches marked flushed known
      cases dirty : f.isDirty with
      | false => exact ⟨_, (kept.1 dirty).2⟩
      | true => exact ⟨_, (kept.2 dirty).2⟩
    obtain ⟨again, reread⟩ := exists_readFrom readable
    refine ⟨again, reread, ?_, ?_⟩
    · have unique : again.paths.Nodup := by
        rw [reread.paths_eq, same, paths_congr (reading_of_markRanges marked)]
        exact List.Nodup.of_map _ separate.apart
      apply buffers_eq (reread.sizes_eq.trans sizes) unique
      intro q present
      have there : s.Has q := by
        unfold Has at present ⊢
        rw [← sizes, ← reread.sizes_eq]
        exact present
      rw [(reread.byteAt_eq q).1, reread.loadedAt_eq present]
      exact saved_byteAt read separate reaches marked flushed there
    · intro path f found
      refine ⟨reread.isDirty_eq _ (mem_files_of_file? found), ?_⟩
      rw [reread.file?_eq, Option.map_eq_some_iff] at found
      obtain ⟨g, _, rfl⟩ := found
      rfl
  · intro path f g known found
    exact ⟨fun i behind => saved_behind read separate reaches marked flushed found behind,
      saved_untouched read separate reaches marked flushed known found⟩

/-! ## One log -/

/-- A store of one blank file. -/
def single (path : Path) (size : Nat) : Store := { files := [(path, .blank size)] }

/-- A store of one dirty file is written when the file can be. -/
theorem exists_flush_single {fs written : FileSystem} {s : Store} {path : Path} {f : File}
    (only : s.files = [(path, f)]) (dirty : f.isDirty = true)
    (done : writeFile fs path f = (written, .ok ())) :
    ∃ saved events, s.flush fs = (saved, written, events, .ok [path]) := by
  unfold flush writeFiles
  rw [only]
  dsimp only
  rw [if_pos dirty, done]
  exact ⟨_, _, rfl⟩

/-- A log of two bytes is read from a longer file, its second byte is marked, and it is written: it
can be restored, and the third byte of the file is still there. -/
theorem restored_of_reaches_log :
    ∃ before s saved written events paths,
      ReadFrom (.withLog #[2, 0, 7]) (single ⟨.relative, ["log"]⟩ 2) before ∧
        before.markRanges [⟨⟨⟨.relative, ["log"]⟩, 1⟩, 1, code⟩] = .ok s ∧
          s.flush (.withLog #[2, 0, 7]) = (saved, written, events, .ok paths) ∧
            (∃ again, ReadFrom written (single ⟨.relative, ["log"]⟩ 2) again ∧
              again.buffers = s.buffers) ∧
            (written.bytesAt ["log"])[2]? = some 7 := by
  have read : ReadFrom (.withLog #[2, 0, 7]) (single ⟨.relative, ["log"]⟩ 2)
      ((single ⟨.relative, ["log"]⟩ 2).load (.withLog #[2, 0, 7])).1 := ⟨_, rfl⟩
  have separate : Separate (.withLog #[2, 0, 7])
      ((single ⟨.relative, ["log"]⟩ 2).load (.withLog #[2, 0, 7])).1.paths := by
    refine ⟨List.nodup_singleton _, ?_⟩
    rintro p here q there ⟨names, above, same⟩
    obtain rfl := List.mem_singleton.mp here
    obtain rfl := List.mem_singleton.mp there
    rw [List.prefix_nil.mp above] at same
    contradiction
  have reaches : ∀ path ∈ ((single ⟨.relative, ["log"]⟩ 2).load (.withLog #[2, 0, 7])).1.paths,
      (FileSystem.withLog #[2, 0, 7]).Reaches path := by
    intro path here
    obtain rfl := List.mem_singleton.mp here
    exact .inl ⟨["log"], rfl⟩
  obtain ⟨s, marked⟩ : ∃ s,
      (((single ⟨.relative, ["log"]⟩ 2).load (.withLog #[2, 0, 7])).1).markRanges
        [⟨⟨⟨.relative, ["log"]⟩, 1⟩, 1, code⟩] = .ok s := ⟨_, rfl⟩
  obtain ⟨f, files, dirty⟩ : ∃ f, s.files = [(⟨.relative, ["log"]⟩, f)] ∧ f.isDirty = true := by
    obtain rfl := Except.ok.inj marked
    exact ⟨_, rfl, File.isDirty_eq_true_iff.mpr ⟨1, by decide⟩⟩
  have done : writeFile (.withLog #[2, 0, 7]) ⟨.relative, ["log"]⟩ f =
      (.withLog (f.overlay #[2, 0, 7]), .ok ()) :=
    FileSystem.replaceDeep_withLog #[2, 0, 7] (f.overlay #[2, 0, 7])
  obtain ⟨saved, events, flushed⟩ := exists_flush_single files dirty done
  have sizes : (single ⟨.relative, ["log"]⟩ 2).sizes = s.sizes := by
    unfold sizes
    rw [reading_of_markRanges marked]
    rfl
  obtain ⟨⟨again, reread, buffers, _⟩, each⟩ :=
    restored_of_reaches read separate reaches marked flushed sizes
  have found : s.file? ⟨.relative, ["log"]⟩ = some f := by
    unfold file?
    rw [files]
    rfl
  have size : f.size = 2 := by
    obtain rfl := Except.ok.inj marked
    obtain rfl := Option.some.inj found
    rfl
  refine ⟨_, s, saved, _, events, _, read, marked, flushed, ⟨again, reread, buffers⟩, ?_⟩
  exact ((each _ _ f rfl found).1 2 (by omega)).trans rfl

/-- A log is named by way of a directory that does not exist, so that it is read as nothing. When
its only byte in memory is marked and written, the file on disk loses the byte behind it. -/
theorem detour_not_restored :
    ∃ before s saved written events paths,
      ReadFrom (.withLog #[3, 3]) (single ⟨.relative, ["a", "..", "log"]⟩ 1) before ∧
        Separate (.withLog #[3, 3]) before.paths ∧
          before.markRanges [⟨⟨⟨.relative, ["a", "..", "log"]⟩, 0⟩, 1, code⟩] = .ok s ∧
            s.flush (.withLog #[3, 3]) = (saved, written, events, .ok paths) ∧
              ((FileSystem.withLog #[3, 3]).bytesAt ["log"])[1]? = some 3 ∧
                (written.bytesAt ["log"])[1]? = none := by
  obtain ⟨s, marked⟩ : ∃ s,
      (((single ⟨.relative, ["a", "..", "log"]⟩ 1).load (.withLog #[3, 3])).1).markRanges
        [⟨⟨⟨.relative, ["a", "..", "log"]⟩, 0⟩, 1, code⟩] = .ok s := ⟨_, rfl⟩
  obtain ⟨f, files, dirty, size⟩ : ∃ f, s.files = [(⟨.relative, ["a", "..", "log"]⟩, f)] ∧
      f.isDirty = true ∧ f.size = 1 := by
    obtain rfl := Except.ok.inj marked
    exact ⟨_, rfl, File.isDirty_eq_true_iff.mpr ⟨0, by decide⟩, rfl⟩
  have done : writeFile (.withLog #[3, 3]) ⟨.relative, ["a", "..", "log"]⟩ f =
      (.withDetour (f.overlay #[]), .ok ()) :=
    FileSystem.replaceDeep_detour #[3, 3] (f.overlay #[])
  obtain ⟨saved, events, flushed⟩ := exists_flush_single files dirty done
  refine ⟨_, s, saved, _, events, _, ⟨_, rfl⟩, ?_, marked, flushed, rfl, ?_⟩
  · refine ⟨List.nodup_singleton _, ?_⟩
    rintro p here q there ⟨names, above, same⟩
    obtain rfl := List.mem_singleton.mp here
    obtain rfl := List.mem_singleton.mp there
    have begins : names = [] ∨ names = ["a"] ∨ names = ["a", ".."] := by
      simpa [Path.parent, List.prefix_cons_iff, and_or_left, exists_or] using above
    rcases begins with rfl | rfl | rfl <;> contradiction
  · show (f.overlay #[])[1]? = none
    rw [File.getElem?_overlay f #[] (by omega)]
    rfl

end Store

end Cdl

end BankTrace
