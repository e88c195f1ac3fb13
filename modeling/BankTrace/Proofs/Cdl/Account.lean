import BankTrace.Proofs.Cdl.Disk
import BankTrace.Proofs.Cdl.Sizes

/-!
# What a store owes to the disk

Every file of a store has a base: its bytes when it was last read or written, zeros before that. A
byte is dirty exactly when it is not the one of the base. That is not plain from the marks, which
only note what they change: a byte could be changed and then changed back. But marks only add bits,
so a byte that has been changed has a bit that the base lacks, and keeps it.

An account goes through the history of a store with it, and writes down the bases and what was read.
-/

namespace BankTrace.Cdl

/-- A byte that has all bits of a base, and has become the base by more bits, has been the base. -/
theorem eq_of_or_eq {byte base mask : UInt8} (keeps : byte ||| base = byte)
    (reached : byte ||| mask = base) : byte = base :=
  calc byte = byte ||| base := keeps.symm
    _ = byte ||| (byte ||| mask) := by rw [reached]
    _ = byte ||| mask := by rw [← UInt8.or_assoc, UInt8.or_self]
    _ = base := reached

/-- Bits that a mask lacks are not added by it. -/
theorem and_of_or_of_disjoint {byte mask others : UInt8} (apart : mask &&& others = 0) :
    (byte ||| mask) &&& others = byte &&& others := by
  rw [and_of_or, apart, UInt8.or_zero]

namespace File

/-- A byte is dirty after a mark when it was, or when the mark has changed it. -/
theorem isDirtyAt_mark (f : File) (offset i : Nat) (mask : Mask) :
    (f.mark offset mask).isDirtyAt i = true ↔
      f.isDirtyAt i = true ∨ (f.mark offset mask).byte i ≠ f.byte i := by
  obtain ⟨size, buffer, dirty, loaded⟩ := f
  simp only [mark]
  by_cases inside : offset < size
  · rw [dif_pos inside]
    by_cases same : buffer[offset] ||| mask = buffer[offset]
    · rw [if_pos same]
      simp
    · rw [if_neg same]
      by_cases here : i = offset
      · subst here
        simp [isDirtyAt, byte, inside, same]
      · have other : offset ≠ i := fun h => here h.symm
        simp [isDirtyAt, byte, other]
  · rw [dif_neg inside]
    simp

/-- A file in memory follows a base: it has all bits of the base, and its dirty bytes are those that
are not the base's. -/
structure Follows (base : Nat → UInt8) (f : File) : Prop where
  /-- The dirty bytes are those that have changed. -/
  dirty : ∀ i, f.isDirtyAt i = true ↔ f.byte i ≠ base i
  /-- No bit is lost. -/
  keeps : ∀ i, f.byte i ||| base i = f.byte i

/-- A file without dirty bytes follows its own bytes. -/
theorem follows_byte {f : File} (clean : ∀ i, f.isDirtyAt i = false) : f.Follows f.byte where
  dirty := by
    intro i
    rw [clean i]
    simp
  keeps := fun _ => UInt8.or_self

/-- A mark leaves a file behind its base. -/
theorem Follows.mark {base : Nat → UInt8} {f : File} (follows : f.Follows base) (offset : Nat)
    (mask : Mask) : (f.mark offset mask).Follows base := by
  have added : ∀ i, (f.mark offset mask).byte i = f.byte i ∨
      (f.mark offset mask).byte i = f.byte i ||| mask := by
    intro i
    rw [byte_mark]
    split
    · exact .inr rfl
    · exact .inl rfl
  constructor
  · intro i
    rw [isDirtyAt_mark, follows.dirty i]
    rcases added i with stays | grown
    · rw [stays]
      simp
    · rw [grown]
      constructor
      · rintro (before | now) reached
        · exact before (eq_of_or_eq (follows.keeps i) reached)
        · exact now (reached.trans (eq_of_or_eq (follows.keeps i) reached).symm)
      · intro differs
        by_cases before : f.byte i = base i
        · right
          rw [before] at differs ⊢
          exact differs
        · exact .inl before
  · intro i
    rcases added i with stays | grown
    · rw [stays]
      exact follows.keeps i
    · rw [grown, UInt8.or_assoc, UInt8.or_comm mask, ← UInt8.or_assoc, follows.keeps i]

/-- A stretch of marks leaves a file behind its base. -/
theorem Follows.markRange {base : Nat → UInt8} {f : File} (follows : f.Follows base)
    (offset : Nat) (mask : Mask) (count : Nat) : (f.markRange offset mask count).Follows base := by
  induction count generalizing f offset with
  | zero => exact follows
  | succ count ih => exact ih (follows.mark offset mask) (offset + 1)

/-- Bits that no mark has stay as they are. -/
theorem and_byte_markRange {mask others : UInt8} (apart : mask &&& others = 0) (f : File)
    (offset count i : Nat) :
    (f.markRange offset mask count).byte i &&& others = f.byte i &&& others := by
  rw [byte_markRange]
  split
  · exact and_of_or_of_disjoint apart
  · rfl

/-- The bytes of a file are not changed when it is written. -/
@[simp] theorem byte_clean (f : File) (i : Nat) : f.clean.byte i = f.byte i := rfl

/-- A file that has been written has no dirty bytes. -/
@[simp] theorem isDirtyAt_clean (f : File) (i : Nat) : f.clean.isDirtyAt i = false := by
  unfold isDirtyAt clean
  rw [Vector.toArray_replicate, Array.getD_eq_getD_getElem?, Array.getElem?_replicate]
  split <;> rfl

/-- A file that has no dirty bytes is as if it had just been written. -/
theorem clean_eq_self {f : File} (clean : f.isDirty = false) : f.clean = f := by
  obtain ⟨size, buffer, dirty, loaded⟩ := f
  have none : ∀ i (inside : i < size), dirty[i] = false := by
    intro i inside
    have never : ¬ (File.mk size buffer dirty loaded).isDirtyAt i = true := by
      intro marked
      have some := isDirty_eq_true_iff.mpr ⟨i, marked⟩
      rw [clean] at some
      contradiction
    simpa [isDirtyAt, inside] using never
  have flags : Vector.replicate size false = dirty := by
    apply Vector.ext
    intro i inside
    rw [Vector.getElem_replicate, none i inside]
  unfold File.clean
  rw [flags]

end File

namespace Store

/-! ## One request, file by file -/

/-- The path can be read from a disk. -/
def isReadable (disk : FileSystem) (path : Path) : Bool := (disk.readOrEmpty path).isOk

/-- The paths that are read before one cannot be. -/
def readPaths (s : Store) (disk : FileSystem) : List Path := s.paths.takeWhile (isReadable disk)

/-- The paths of the dirty files that can be written to a disk, one after the other, before one
cannot be. -/
def writablePaths (disk : FileSystem) : List (Path × File) → List Path
  | [] => []
  | (path, f) :: rest =>
    if f.isDirty then
      match writeFile disk path f with
      | (next, .ok ()) => path :: writablePaths next rest
      | (_, .error _) => []
    else writablePaths disk rest

/-- The paths that are written before one cannot be. -/
def writtenPaths (s : Store) (disk : FileSystem) : List Path := writablePaths disk s.files

/-- What is left at a path when files are read. -/
theorem lookup_readFiles (disk : FileSystem) (files : List (Path × File)) (path : Path) :
    (readFiles disk files).files.lookup path =
      (files.lookup path).map fun f =>
        if path ∈ (files.map Prod.fst).takeWhile (isReadable disk) then
          f.load (disk.contents path)
        else f := by
  induction files with
  | nil => rfl
  | cons entry rest ih =>
    obtain ⟨p, f⟩ := entry
    unfold readFiles
    rw [List.map_cons, List.takeWhile_cons]
    cases answer : disk.readOrEmpty p with
    | error e =>
      have stops : isReadable disk p = false := by
        unfold isReadable
        rw [answer]
        rfl
      simp [stops]
    | ok bytes =>
      have reads : isReadable disk p = true := by
        unfold isReadable
        rw [answer]
        rfl
      have known : bytes = disk.contents p := by
        unfold FileSystem.contents
        rw [answer]
        rfl
      rw [if_pos reads]
      by_cases here : path = p
      · subst here
        simp [known]
      · have differs : (path == p) = false := beq_false_of_ne here
        simp only [List.lookup_cons, differs, ih, List.mem_cons, here, false_or]

/-- What is left at a path when files are written. -/
theorem lookup_writeFiles (disk : FileSystem) (files : List (Path × File)) (path : Path) :
    (writeFiles disk files).2.files.lookup path =
      (files.lookup path).map fun f =>
        if path ∈ writablePaths disk files then f.clean else f := by
  induction files generalizing disk with
  | nil => rfl
  | cons entry rest ih =>
    obtain ⟨p, f⟩ := entry
    unfold writeFiles writablePaths
    by_cases dirty : f.isDirty = true
    · rw [if_pos dirty, if_pos dirty]
      cases done : writeFile disk p f with
      | mk next result =>
      cases result with
      | error e => simp
      | ok _ =>
        by_cases here : path = p
        · subst here
          simp
        · have differs : (path == p) = false := beq_false_of_ne here
          simp [List.lookup_cons, differs, ih, here]
    · rw [if_neg dirty, if_neg dirty]
      have stays : f.clean = f := File.clean_eq_self (by simpa using dirty)
      by_cases here : path = p
      · subst here
        simp [stays]
      · have differs : (path == p) = false := beq_false_of_ne here
        simp [List.lookup_cons, differs, ih]

/-- The events tell which files are written. -/
theorem writtenIn_flush (s : Store) (disk : FileSystem) :
    writtenIn (s.flush disk).2.2.1 = s.writtenPaths disk := by
  have each : ∀ (files : List (Path × File)) (disk : FileSystem),
      writtenIn (writeFiles disk files).2.events = writablePaths disk files := by
    intro files
    induction files with
    | nil => exact fun _ => rfl
    | cons entry rest ih =>
      obtain ⟨path, f⟩ := entry
      intro disk
      unfold writablePaths
      by_cases dirty : f.isDirty = true
      · rw [if_pos dirty]
        cases done : writeFile disk path f with
        | mk next result =>
        cases result with
        | error e =>
          rw [writeFiles_of_refused dirty done]
          rfl
        | ok _ =>
          rw [writeFiles_of_written dirty done]
          dsimp only
          rw [← ih next]
          rfl
      · rw [if_neg dirty, writeFiles_of_clean_head dirty]
        exact ih disk
  exact each s.files disk

/-- The file that reading leaves at a path. -/
theorem file?_load (s : Store) (disk : FileSystem) (path : Path) :
    (s.load disk).1.file? path = (s.file? path).map fun f =>
      if path ∈ s.readPaths disk then f.load (disk.contents path) else f :=
  lookup_readFiles disk s.files path

/-- The file that writing leaves at a path. -/
theorem file?_flush (s : Store) (disk : FileSystem) (path : Path) :
    (s.flush disk).1.file? path = (s.file? path).map fun f =>
      if path ∈ s.writtenPaths disk then f.clean else f :=
  lookup_writeFiles disk s.files path

/-- What is assigned to a key comes from before or is the new value. -/
theorem mem_of_mem_assign {α β : Type} [DecidableEq α] {key : α} {value : β}
    {pairs : List (α × β)} {pair : α × β} (member : pair ∈ assign key value pairs) :
    pair ∈ pairs ∨ pair = (key, value) := by
  induction pairs with
  | nil => exact .inr (List.mem_singleton.mp member)
  | cons first rest ih =>
    obtain ⟨k, old⟩ := first
    rw [assign] at member
    split at member
    case isTrue here =>
      subst here
      rcases List.mem_cons.mp member with new | later
      · exact .inr new
      · exact .inl (List.mem_cons_of_mem _ later)
    case isFalse =>
      rcases List.mem_cons.mp member with same | later
      · exact .inl (same ▸ List.mem_cons_self)
      · exact (ih later).imp_left (List.mem_cons_of_mem _)

/-- The latest values are among all values. -/
theorem mem_of_mem_latest {α β : Type} [DecidableEq α] {pairs : List (α × β)} {pair : α × β}
    (member : pair ∈ latest pairs) : pair ∈ pairs := by
  have general : ∀ found : List (α × β),
      pair ∈ pairs.foldl (fun found pair => assign pair.1 pair.2 found) found →
        pair ∈ found ∨ pair ∈ pairs := by
    clear member
    induction pairs with
    | nil => exact fun found member => .inl member
    | cons first rest ih =>
      intro found member
      rcases ih _ member with early | later
      · rcases mem_of_mem_assign early with known | new
        · exact .inl known
        · exact .inr (new ▸ List.mem_cons_self)
      · exact .inr (List.mem_cons_of_mem _ later)
  rcases general [] member with absurdity | known
  · exact absurd absurdity List.not_mem_nil
  · exact known

/-- Every file of a blank store is blank. -/
theorem eq_blank_of_blank {memory : Memory} {sizes : List (Path × Int)} {s : Store}
    (made : blank memory sizes = .ok s) {path : Path} {f : File}
    (found : s.file? path = some f) : ∃ size, f = File.blank size := by
  change (do
    let files ← sizes.mapM fun entry => do return (entry.1, ← blankFile memory entry.2)
    return { files := latest files } : Except Error Store) = .ok s at made
  have each : ∀ (entry : Path × Int) (file : Path × File),
      (do return (entry.1, ← blankFile memory entry.2) : Except Error (Path × File)) = .ok file →
        file = (entry.1, File.blank entry.2.toNat) := by
    intro entry file opened
    cases one : blankFile memory entry.2 with
    | error e => simp [one, bind, Except.bind] at opened
    | ok g =>
      simp only [one, bind, Except.bind, pure, Except.pure, Except.ok.injEq] at opened
      rw [← opened, eq_blank_of_blankFile one]
  cases built : sizes.mapM (fun entry => do return (entry.1, ← blankFile memory entry.2) :
      Path × Int → Except Error (Path × File)) with
  | error e =>
    rw [built] at made
    contradiction
  | ok files =>
    rw [built] at made
    have store := Except.ok.inj made
    subst store
    have member : (path, f) ∈ latest files := by
      obtain ⟨front, back, split, _⟩ := List.lookup_eq_some_iff.mp found
      rw [show latest files = front ++ (path, f) :: back from split]
      simp
    have entry := mem_of_mem_latest member
    rw [eq_map_of_mapM each built, List.mem_map] at entry
    obtain ⟨⟨_, size⟩, _, same⟩ := entry
    exact ⟨size.toNat, (Prod.mk.inj same).2.symm⟩

/-- A stretch that can be marked is marked. -/
theorem eq_mark_of_markRange {s marked : Store} {path : Path} {offset count : Int} {mask : Mask}
    (done : s.markRange path offset count mask = .ok marked) :
    marked = s.mark ⟨path, offset⟩ count.toNat mask := by
  unfold markRange at done
  cases range : s.checkRange path offset count with
  | error e =>
    rw [range] at done
    contradiction
  | ok f =>
    rw [range] at done
    exact (Except.ok.inj done).symm

/-- Files that are read keep their sizes, also when not all of them can be read. -/
theorem map_size_readFiles (disk : FileSystem) (files : List (Path × File)) :
    (readFiles disk files).files.map (fun (path, f) => (path, f.size)) =
      files.map fun (path, f) => (path, f.size) := by
  induction files with
  | nil => rfl
  | cons entry rest ih =>
    obtain ⟨path, f⟩ := entry
    unfold readFiles
    cases disk.readOrEmpty path with
    | error e => rfl
    | ok bytes =>
      rw [List.map_cons, List.map_cons, ih]
      rfl

/-- Writing files changes nothing of what was last read of them. -/
theorem map_reading_writeFiles (disk : FileSystem) (files : List (Path × File)) :
    (writeFiles disk files).2.files.map (fun (path, f) => (path, f.reading)) =
      files.map fun (path, f) => (path, f.reading) := by
  induction files generalizing disk with
  | nil => rfl
  | cons entry rest ih =>
    obtain ⟨path, f⟩ := entry
    unfold writeFiles
    by_cases dirty : f.isDirty = true
    · rw [if_pos dirty]
      cases writeFile disk path f with
      | mk next result =>
      cases result with
      | error e => rfl
      | ok _ =>
        rw [List.map_cons, List.map_cons, ih]
        rfl
    · rw [if_neg dirty, List.map_cons, List.map_cons, ih]

/-- Reading keeps the sizes of a store. -/
theorem sizes_load (s : Store) (disk : FileSystem) : (s.load disk).1.sizes = s.sizes := by
  rw [sizes_eq_map, sizes_eq_map]
  exact map_size_readFiles disk s.files

/-- Writing changes nothing of what was last read into a store. -/
theorem reading_flush (s : Store) (disk : FileSystem) : (s.flush disk).1.reading = s.reading :=
  map_reading_writeFiles disk s.files

end Store

/-! ## Histories -/

/-- What a mark says of bytes. -/
inductive Kind where
  /-- They are code. -/
  | code
  /-- They are data. -/
  | data
  /-- They are both. -/
  | both

namespace Kind

/-- The bits of a mark. -/
def bits : Kind → Mask
  | code => Cdl.code
  | data => Cdl.data
  | both => Cdl.code ||| Cdl.data

/-- The bits that no mark has. -/
def reserved : Mask := 0xFC

/-- No mark has a reserved bit. -/
theorem bits_and_reserved (kind : Kind) : kind.bits &&& reserved = 0 := by
  cases kind <;> decide

end Kind

/-- A request to a store. Every time files are read or written there may be another disk. -/
inductive Request where
  /-- All files are read. -/
  | load (disk : FileSystem)
  /-- All dirty bytes are written. -/
  | flush (disk : FileSystem)
  /-- A stretch of bytes is marked. -/
  | mark (path : Path) (offset count : Int) (kind : Kind)
  /-- A position is claimed. -/
  | claim (p : Position)
  /-- All claims are given up. -/
  | resetClaims

namespace Request

/-- The store after a request, which may be refused or given up half way. -/
def after (s : Store) : Request → Store
  | load disk => (s.load disk).1
  | flush disk => (s.flush disk).1
  | mark path offset count kind =>
    match s.markRange path offset count kind.bits with
    | .ok marked => marked
    | .error _ => s
  | claim p => s.claim p
  | resetClaims => s.resetClaims

/-- The store after requests, one after the other. -/
def afterAll (s : Store) (requests : List Request) : Store := requests.foldl after s

/-- Files are read. -/
def isLoad : Request → Bool
  | load _ => true
  | _ => false

/-- Nothing but reading files changes what was last read of them. -/
theorem reading_after (s : Store) {request : Request} (quiet : request.isLoad = false) :
    (after s request).reading = s.reading := by
  cases request with
  | load disk => contradiction
  | flush disk => exact s.reading_flush disk
  | mark path offset count kind =>
    simp only [after]
    cases answer : s.markRange path offset count kind.bits with
    | error e => rfl
    | ok marked =>
      have same := Store.eq_mark_of_markRange answer
      simp only [same, Store.reading_mark]
  | claim p => rfl
  | resetClaims => rfl

/-- Without files being read, what was last read of them stays. -/
theorem reading_afterAll (s : Store) {requests : List Request}
    (quiet : ∀ request ∈ requests, request.isLoad = false) :
    (afterAll s requests).reading = s.reading := by
  induction requests generalizing s with
  | nil => rfl
  | cons request rest ih =>
    have first := reading_after s (quiet request List.mem_cons_self)
    have others := ih (after s request) fun r later => quiet r (List.mem_cons_of_mem request later)
    exact others.trans first

/-- The paths that are read. -/
def reads (s : Store) : Request → List Path
  | load disk => s.readPaths disk
  | _ => []

/-- The paths that are written. -/
def writes (s : Store) : Request → List Path
  | flush disk => s.writtenPaths disk
  | _ => []

end Request

/-- A store with an account of its past. -/
structure Account where
  /-- The store. -/
  store : Store
  /-- The bytes of every file when it was last read or written. -/
  base : Path → Nat → UInt8
  /-- All bytes of every file when it was last read, if it was. -/
  image : Path → Option (Array UInt8)

namespace Account

/-- The account of a store without a past. -/
def start (s : Store) : Account := ⟨s, fun _ _ => 0, fun _ => none⟩

/-- The account after a request: what has been read or written is noted as it is then. -/
def next (a : Account) (request : Request) : Account where
  store := request.after a.store
  base path :=
    if path ∈ request.reads a.store ∨ path ∈ request.writes a.store then
      fun i => (request.after a.store).byteAt ⟨path, i⟩
    else a.base path
  image path :=
    if path ∈ request.reads a.store then
      ((request.after a.store).file? path).map (·.buffer.toArray)
    else a.image path

/-- The account after a history of requests. -/
def run (a : Account) (history : List Request) : Account := history.foldl next a

/-- One file agrees with an account. -/
structure Agrees (a : Account) (path : Path) (f : File) : Prop extends f.Follows (a.base path) where
  /-- The reserved bits are those of the base. -/
  reserved : ∀ i, f.byte i &&& Kind.reserved = a.base path i &&& Kind.reserved
  /-- The loaded bytes are those of the last time that the file was read. -/
  image : f.loaded.map Vector.toArray = a.image path

/-- An account is exact when every file of the store agrees with it. -/
def Exact (a : Account) : Prop := ∀ path f, a.store.file? path = some f → a.Agrees path f

/-- The byte of a file is that of the store at its path. -/
theorem byte_eq_byteAt {s : Store} {path : Path} {f : File} (found : s.file? path = some f) :
    f.byte = fun i : Nat => s.byteAt ⟨path, i⟩ := by
  funext i
  simp [Store.byteAt, found]

/-- The account of a blank store is exact. -/
theorem exact_start {memory : Memory} {sizes : List (Path × Int)} {s : Store}
    (made : Store.blank memory sizes = .ok s) : (start s).Exact := by
  intro path f found
  obtain ⟨size, rfl⟩ := Store.eq_blank_of_blank made found
  have zeros : ∀ i, (File.blank size).byte i = 0 := by
    intro i
    simp only [File.byte, File.blank, Array.getD_eq_getD_getElem?, Vector.toArray_replicate,
      Array.getElem?_replicate]
    split <;> rfl
  have clean : ∀ i, (File.blank size).isDirtyAt i = false := File.isDirtyAt_clean (.blank size)
  have bytes : (File.blank size).byte = fun _ => 0 := funext zeros
  have follows := File.follows_byte clean
  rw [bytes] at follows
  refine ⟨follows, ?_, rfl⟩
  intro i
  rw [zeros]
  rfl

section

variable {a : Account} {request : Request} {path : Path} {f : File}

/-- A file that is read or written is the new base. -/
theorem base_next_of_mem (touched : path ∈ request.reads a.store ∨ path ∈ request.writes a.store)
    (found : (a.next request).store.file? path = some f) : (a.next request).base path = f.byte := by
  rw [byte_eq_byteAt found]
  exact if_pos touched

/-- A file that is neither read nor written keeps its base. -/
theorem base_next_of_not_mem (unread : path ∉ request.reads a.store)
    (unwritten : path ∉ request.writes a.store) : (a.next request).base path = a.base path :=
  if_neg (not_or.mpr ⟨unread, unwritten⟩)

/-- A file that is read is the new image. -/
theorem image_next_of_mem (read : path ∈ request.reads a.store)
    (found : (a.next request).store.file? path = some f) :
    (a.next request).image path = some f.buffer.toArray := by
  have noted : (a.next request).image path =
      ((a.next request).store.file? path).map (·.buffer.toArray) := if_pos read
  rw [noted, found]
  rfl

/-- A file that is not read keeps its image. -/
theorem image_next_of_not_mem (unread : path ∉ request.reads a.store) :
    (a.next request).image path = a.image path :=
  if_neg unread

/-- A file that is as before, and is neither read nor written, agrees as before. -/
theorem Agrees.untouched (agrees : a.Agrees path f) (unread : path ∉ request.reads a.store)
    (unwritten : path ∉ request.writes a.store) : (a.next request).Agrees path f := by
  have base : (a.next request).base path = a.base path := base_next_of_not_mem unread unwritten
  refine ⟨?_, ?_, ?_⟩
  · rw [base]
    exact agrees.toFollows
  · rw [base]
    exact agrees.reserved
  · rw [image_next_of_not_mem unread]
    exact agrees.image

end

/-- Reading files leaves an account exact. -/
theorem Exact.load {a : Account} (exact : a.Exact) (disk : FileSystem) :
    (a.next (.load disk)).Exact := by
  intro path f found
  have left := found
  change (a.store.load disk).1.file? path = some f at left
  rw [Store.file?_load, Option.map_eq_some_iff] at left
  obtain ⟨g, before, changed⟩ := left
  by_cases read : path ∈ a.store.readPaths disk
  · rw [if_pos read] at changed
    have base : (a.next (.load disk)).base path = f.byte := base_next_of_mem (.inl read) found
    have clean : ∀ i, f.isDirtyAt i = false := by
      intro i
      rw [← changed]
      exact File.isDirtyAt_load ..
    refine ⟨?_, ?_, ?_⟩
    · rw [base]
      exact File.follows_byte clean
    · intro i
      rw [base]
    · rw [image_next_of_mem read found, ← changed]
      rfl
  · rw [if_neg read] at changed
    rw [← changed]
    exact (exact path g before).untouched read List.not_mem_nil

/-- Writing files leaves an account exact. -/
theorem Exact.flush {a : Account} (exact : a.Exact) (disk : FileSystem) :
    (a.next (.flush disk)).Exact := by
  intro path f found
  have left := found
  change (a.store.flush disk).1.file? path = some f at left
  rw [Store.file?_flush, Option.map_eq_some_iff] at left
  obtain ⟨g, before, changed⟩ := left
  by_cases written : path ∈ a.store.writtenPaths disk
  · rw [if_pos written] at changed
    have base : (a.next (.flush disk)).base path = f.byte := base_next_of_mem (.inr written) found
    have clean : ∀ i, f.isDirtyAt i = false := by
      intro i
      rw [← changed]
      exact File.isDirtyAt_clean g i
    refine ⟨?_, ?_, ?_⟩
    · rw [base]
      exact File.follows_byte clean
    · intro i
      rw [base]
    · rw [image_next_of_not_mem List.not_mem_nil, ← changed]
      exact (exact path g before).image
  · rw [if_neg written] at changed
    rw [← changed]
    exact (exact path g before).untouched List.not_mem_nil written

/-- A file that is marked agrees as before. -/
theorem Agrees.markRange {a : Account} {path : Path} {f : File} (agrees : a.Agrees path f)
    (kind : Kind) (offset count : Nat) : a.Agrees path (f.markRange offset kind.bits count) := by
  refine ⟨agrees.toFollows.markRange offset kind.bits count, ?_, ?_⟩
  · intro i
    rw [File.and_byte_markRange kind.bits_and_reserved]
    exact agrees.reserved i
  · have reading := File.reading_markRange f offset kind.bits count
    rw [← agrees.image]
    exact congrArg Prod.snd reading

/-- Marks leave an account exact, also when they are refused. -/
theorem Exact.mark {a : Account} (exact : a.Exact) (path : Path) (offset count : Int)
    (kind : Kind) :
    (a.next (.mark path offset count kind)).Exact := by
  intro other f found
  have left := found
  change (Request.after a.store (.mark path offset count kind)).file? other = some f at left
  have agrees : a.Agrees other f := by
    unfold Request.after at left
    dsimp only at left
    cases answer : a.store.markRange path offset count kind.bits with
    | error e =>
      rw [answer] at left
      exact exact other f left
    | ok marked =>
      rw [answer] at left
      have here := Store.eq_mark_of_markRange answer
      rw [here, Store.file?_mark] at left
      split at left
      · rw [Option.map_eq_some_iff] at left
        obtain ⟨g, before, changed⟩ := left
        rw [← changed]
        exact (exact other g before).markRange kind _ _
      · exact exact other f left
  exact agrees.untouched List.not_mem_nil List.not_mem_nil

/-- Every request leaves an account exact. -/
theorem Exact.next {a : Account} (exact : a.Exact) (request : Request) :
    (a.next request).Exact := by
  cases request with
  | load disk => exact exact.load disk
  | flush disk => exact exact.flush disk
  | mark path offset count kind => exact exact.mark path offset count kind
  | claim p =>
    exact fun path f found => (exact path f found).untouched List.not_mem_nil List.not_mem_nil
  | resetClaims =>
    exact fun path f found => (exact path f found).untouched List.not_mem_nil List.not_mem_nil

/-- Every history leaves an account exact. -/
theorem Exact.run {a : Account} (exact : a.Exact) (history : List Request) :
    (a.run history).Exact := by
  induction history generalizing a with
  | nil => exact exact
  | cons request rest ih => exact ih (exact.next request)

/-- Every request keeps the sizes. -/
theorem sizes_next (a : Account) (request : Request) :
    (a.next request).store.sizes = a.store.sizes := by
  cases kind : request.isLoad with
  | false => exact Store.sizes_congr (Request.reading_after a.store kind)
  | true =>
    cases request with
    | load disk => exact a.store.sizes_load disk
    | _ => contradiction

/-- Every history keeps the sizes. -/
theorem sizes_run (a : Account) (history : List Request) :
    (a.run history).store.sizes = a.store.sizes := by
  induction history generalizing a with
  | nil => rfl
  | cons request rest ih => exact (ih (a.next request)).trans (sizes_next a request)

/-- Whatever is asked of a store from its making on, and whatever of it is refused: the files keep
their sizes, the dirty bytes of a file are those that differ from its base, no bit of the base is
lost and no reserved bit is added, and the loaded bytes are those of the last time that it was
read. -/
theorem exact_of_history {memory : Memory} {sizes : List (Path × Int)} {s : Store}
    (made : Store.blank memory sizes = .ok s) (history : List Request) :
    ((start s).run history).store.sizes = s.sizes ∧
      ∀ path f, ((start s).run history).store.file? path = some f →
        (∀ i, f.isDirtyAt i = true ↔ f.byte i ≠ ((start s).run history).base path i) ∧
          (∀ i, f.byte i ||| ((start s).run history).base path i = f.byte i ∧
            f.byte i &&& Kind.reserved =
              ((start s).run history).base path i &&& Kind.reserved) ∧
          f.loaded.map Vector.toArray = ((start s).run history).image path := by
  refine ⟨sizes_run (start s) history, ?_⟩
  intro path f found
  have agrees := (exact_start made).run history path f found
  exact ⟨agrees.dirty, fun i => ⟨agrees.keeps i, agrees.reserved i⟩, agrees.image⟩

/-- A log of two bytes is read from a disk that has one of them, its first byte is marked, and so is
one that it does not have. It is written, and then its second byte is marked. -/
def shortHistory : List Request :=
  [.load (.withLog #[6]), .mark ⟨.relative, ["log"]⟩ 0 1 .code,
    .mark ⟨.relative, ["log"]⟩ 2 1 .data, .flush (.withLog #[6]),
    .mark ⟨.relative, ["log"]⟩ 1 1 .data]

/-- The account of a store that has but one file, when that can be written: its bytes are noted. -/
theorem next_flush_single {a : Account} {path : Path} {g : File} {disk written : FileSystem}
    (only : a.store.files = [(path, g)]) (dirty : g.isDirty = true)
    (done : Store.writeFile disk path g = (written, .ok ())) :
    (a.next (.flush disk)).store = { a.store with files := [(path, g.clean)] } ∧
      (a.next (.flush disk)).base path = g.byte := by
  have touched : path ∈ a.store.writtenPaths disk := by
    unfold Store.writtenPaths Store.writablePaths
    rw [only]
    dsimp only
    rw [if_pos dirty, done]
    exact List.mem_cons_self
  have store : (a.next (.flush disk)).store = { a.store with files := [(path, g.clean)] } := by
    show (a.store.flush disk).1 = _
    unfold Store.flush
    rw [only, Store.writeFiles_of_written dirty done]
    rfl
  refine ⟨store, ?_⟩
  have found : (a.next (.flush disk)).store.file? path = some g.clean := by
    rw [store]
    simp [Store.file?]
  have noted : (a.next (.flush disk)).base path = g.clean.byte :=
    base_next_of_mem (.inr touched) found
  exact noted

/-- After that history the first byte is clean, as it has been written, and the second one is
dirty. -/
theorem exact_of_history_short :
    ∃ s f, Store.blank Platform.standard.memory [(⟨.relative, ["log"]⟩, 2)] = .ok s ∧
      ((start s).run shortHistory).store.file? ⟨.relative, ["log"]⟩ = some f ∧
        f.isDirtyAt 0 = false ∧ f.isDirtyAt 1 = true ∧
          f.loaded.map Vector.toArray = some #[6, 0] := by
  let path : Path := ⟨.relative, ["log"]⟩
  let blank : Store := ⟨[(path, .blank 2)], .empty⟩
  have made : Store.blank Platform.standard.memory [(path, 2)] = .ok blank := rfl
  obtain ⟨_, each⟩ := exact_of_history made shortHistory
  let g : File := ((File.blank 2).load #[6]).markRange 0 Kind.code.bits 1
  let f : File := g.clean.markRange 1 Kind.data.bits 1
  let early : Account := (start blank).run (shortHistory.take 3)
  let late : Account := early.next (.flush (.withLog #[6]))
  have only : early.store.files = [(path, g)] := rfl
  have dirty : g.isDirty = true := File.isDirty_eq_true_iff.mpr ⟨0, by decide⟩
  have done : Store.writeFile (.withLog #[6]) path g = (.withLog (g.overlay #[6]), .ok ()) :=
    FileSystem.replaceDeep_withLog #[6] (g.overlay #[6])
  obtain ⟨written, noted⟩ : late.store = { early.store with files := [(path, g.clean)] } ∧
      late.base path = g.byte := next_flush_single only dirty done
  have last : (start blank).run shortHistory = late.next (.mark path 1 1 .data) := rfl
  have found : (late.next (.mark path 1 1 .data)).store.file? path = some f := by
    show (Request.after late.store (.mark path 1 1 .data)).file? path = some f
    rw [written]
    rfl
  have base : (late.next (.mark path 1 1 .data)).base path = g.byte :=
    (base_next_of_not_mem List.not_mem_nil List.not_mem_nil).trans noted
  have image : (late.next (.mark path 1 1 .data)).image path = some #[6, 0] := by
    have unread : late.image path = early.image path := image_next_of_not_mem List.not_mem_nil
    have before : early.image path = some #[6, 0] := by decide
    exact (image_next_of_not_mem List.not_mem_nil).trans (unread.trans before)
  rw [last] at each
  obtain ⟨exactly, _, same⟩ := each path f found
  rw [base] at exactly
  refine ⟨blank, f, made, found, ?_, ?_, same.trans image⟩
  · rw [Bool.eq_false_iff, ne_eq, exactly]
    decide
  · rw [exactly]
    decide

end Account

end BankTrace.Cdl
