import BankTrace.Proofs.Cdl.Marks
import BankTrace.Proofs.Failures

/-!
# Stores made for banks

A store that is made for banks has one file for every log path that a bank names, and that file is
long enough for all banks that name it. Reading files from disk and marking bytes keep the sizes, so
a store stays one that was made for its banks whatever has been read into it and marked in it.
-/

namespace BankTrace

namespace Cdl.Store

/-! ## Sizes for banks -/

/-- Growing a size keeps the order of the paths and adds a new path behind the others. -/
theorem keys_growSize (b : Bank) (sizes : List (Path × Nat)) :
    (growSize b sizes).map Prod.fst =
      if b.cdl ∈ sizes.map Prod.fst then sizes.map Prod.fst else sizes.map Prod.fst ++ [b.cdl] := by
  induction sizes with
  | nil => simp [growSize]
  | cons entry rest ih =>
    obtain ⟨p, size⟩ := entry
    simp only [growSize]
    by_cases here : p = b.cdl
    · simp [here]
    · have other : b.cdl ≠ p := fun h => here h.symm
      rw [if_neg here, List.map_cons, ih]
      simp only [List.map_cons, List.mem_cons, other, false_or]
      split <;> rfl

/-- Growing a size keeps the paths different. -/
theorem nodup_growSize (b : Bank) {sizes : List (Path × Nat)}
    (unique : (sizes.map Prod.fst).Nodup) :
    ((growSize b sizes).map Prod.fst).Nodup := by
  rw [keys_growSize]
  split
  · exact unique
  · rename_i new
    rw [List.nodup_append]
    refine ⟨unique, List.pairwise_singleton _ _, ?_⟩
    intro p known q added
    rw [List.mem_singleton] at added
    subst added
    rintro rfl
    exact new known

/-- The size of the path of a bank becomes large enough for it, and the others stay. -/
theorem lookup_growSize (b : Bank) (sizes : List (Path × Nat)) (path : Path) :
    (growSize b sizes).lookup path =
      if path = b.cdl then some (max ((sizes.lookup path).getD 0) (b.cdlOffset + b.size))
      else sizes.lookup path := by
  induction sizes with
  | nil =>
    simp only [growSize, List.lookup_cons, List.lookup_nil]
    by_cases here : path = b.cdl
    · simp [here]
    · have differs : (path == b.cdl) = false := beq_false_of_ne here
      simp [differs, here]
  | cons entry rest ih =>
    obtain ⟨p, size⟩ := entry
    simp only [growSize]
    by_cases here : p = b.cdl
    · rw [if_pos here, List.lookup_cons, List.lookup_cons]
      by_cases same : path = p
      · simp [same, here]
      · have differs : (path == p) = false := beq_false_of_ne same
        have elsewhere : path ≠ b.cdl := fun h => same (h.trans here.symm)
        simp [differs, elsewhere]
    · rw [if_neg here, List.lookup_cons, List.lookup_cons, ih]
      by_cases same : path = p
      · subst same
        simp [here]
      · have differs : (path == p) = false := beq_false_of_ne same
        simp [differs]

/-- The paths of the sizes that banks ask for are different. -/
theorem nodup_sizesFor (banks : List Bank) : ((sizesFor banks).map Prod.fst).Nodup := by
  unfold sizesFor
  suffices general : ∀ sizes : List (Path × Nat), (sizes.map Prod.fst).Nodup →
      ((banks.foldl (fun sizes b => growSize b sizes) sizes).map Prod.fst).Nodup from
    general [] List.nodup_nil
  induction banks with
  | nil => exact fun _ unique => unique
  | cons b rest ih => exact fun sizes unique => ih _ (nodup_growSize b unique)

/-- The paths of the sizes that banks ask for are those that they name. -/
theorem mem_of_mem_keys_sizesFor {banks : List Bank} {path : Path}
    (member : path ∈ (sizesFor banks).map Prod.fst) : path ∈ banks.map Bank.cdl := by
  unfold sizesFor at member
  suffices general : ∀ sizes : List (Path × Nat),
      path ∈ (banks.foldl (fun sizes b => growSize b sizes) sizes).map Prod.fst →
        path ∈ sizes.map Prod.fst ∨ path ∈ banks.map Bank.cdl from
    (general [] member).resolve_left List.not_mem_nil
  clear member
  induction banks with
  | nil => exact fun _ known => .inl known
  | cons b rest ih =>
    intro sizes member
    rw [List.map_cons, List.mem_cons]
    rcases ih (growSize b sizes) member with early | later
    · rw [keys_growSize] at early
      split at early
      · exact .inl early
      · rcases List.mem_append.mp early with known | new
        · exact .inl known
        · exact .inr (.inl (List.mem_singleton.mp new))
    · exact .inr (.inr later)

/-- A size that banks ask for reaches up to a bound. -/
def RoomUpTo (sizes : List (Path × Nat)) (path : Path) (bound : Nat) : Prop :=
  ∃ size, sizes.lookup path = some size ∧ bound ≤ size

/-- Growing a size takes away no room. -/
theorem roomUpTo_growSize (b : Bank) {sizes : List (Path × Nat)} {path : Path} {bound : Nat}
    (room : RoomUpTo sizes path bound) : RoomUpTo (growSize b sizes) path bound := by
  obtain ⟨size, found, enough⟩ := room
  unfold RoomUpTo
  rw [lookup_growSize, found]
  split
  · exact ⟨_, rfl, by simp only [Option.getD_some]; omega⟩
  · exact ⟨size, rfl, enough⟩

/-- There is room for every bank. -/
theorem roomUpTo_sizesFor {banks : List Bank} {b : Bank} (member : b ∈ banks) :
    RoomUpTo (sizesFor banks) b.cdl (b.cdlOffset + b.size) := by
  unfold sizesFor
  suffices general : ∀ sizes : List (Path × Nat),
      (b ∈ banks ∨ RoomUpTo sizes b.cdl (b.cdlOffset + b.size)) →
      RoomUpTo (banks.foldl (fun sizes b => growSize b sizes) sizes) b.cdl
        (b.cdlOffset + b.size) from
    general [] (.inl member)
  clear member
  induction banks with
  | nil =>
    rintro sizes (member | room)
    · exact absurd member List.not_mem_nil
    · exact room
  | cons first rest ih =>
    rintro sizes (member | room)
    · rcases List.mem_cons.mp member with rfl | later
      · apply ih
        right
        refine ⟨_, by rw [lookup_growSize, if_pos rfl], ?_⟩
        omega
      · exact ih _ (.inl later)
    · exact ih _ (.inr (roomUpTo_growSize first room))

/-! ## Blank stores -/

/-- A value for a new key comes behind the others. -/
theorem assign_of_not_mem {α β : Type} [DecidableEq α] {key : α} (value : β)
    {pairs : List (α × β)} (new : key ∉ pairs.map Prod.fst) :
    assign key value pairs = pairs ++ [(key, value)] := by
  induction pairs with
  | nil => rfl
  | cons pair rest ih =>
    obtain ⟨k, old⟩ := pair
    simp only [List.map_cons, List.mem_cons, not_or] at new
    have differs : k ≠ key := fun h => new.1 h.symm
    rw [assign, if_neg differs, ih new.2]
    rfl

/-- When the keys are different, every value is the latest of its key. -/
theorem latest_of_nodup {α β : Type} [DecidableEq α] {pairs : List (α × β)}
    (unique : (pairs.map Prod.fst).Nodup) : latest pairs = pairs := by
  show pairs.foldl (fun found pair => assign pair.1 pair.2 found) [] = pairs
  suffices general : ∀ found : List (α × β), ((found ++ pairs).map Prod.fst).Nodup →
      pairs.foldl (fun found pair => assign pair.1 pair.2 found) found = found ++ pairs from
    general [] unique
  clear unique
  induction pairs with
  | nil => simp
  | cons pair rest ih =>
    intro found unique
    obtain ⟨key, value⟩ := pair
    have new : key ∉ found.map Prod.fst := by
      rw [List.map_append, List.nodup_append] at unique
      intro known
      exact unique.2.2 key known key (by simp) rfl
    have later := ih (found ++ [(key, value)]) (by simpa using unique)
    simp only [List.foldl_cons, assign_of_not_mem value new, later, List.append_assoc,
      List.singleton_append]

/-- A blank file that can be made has the size that was asked for. -/
theorem eq_blank_of_blankFile {memory : Memory} {size : Int} {f : File}
    (made : blankFile memory size = .ok f) : f = File.blank size.toNat := by
  unfold blankFile at made
  split at made
  · contradiction
  · split at made
    · contradiction
    · split at made
      · contradiction
      · exact (Except.ok.inj made).symm

/-- The store made for banks has a blank file for every path, of the size that the banks ask for. -/
theorem files_of_forBanks {memory : Memory} {banks : List Bank} {s : Store}
    (made : forBanks memory banks = .ok s) :
    s.files = (sizesFor banks).map fun (path, size) => (path, File.blank size) := by
  change (do
    let files ← ((sizesFor banks).map fun entry => (entry.1, (entry.2 : Int))).mapM
      fun entry => do return (entry.1, ← blankFile memory entry.2)
    return { files := latest files } : Except Error Store) = .ok s at made
  cases built : ((sizesFor banks).map fun entry => (entry.1, (entry.2 : Int))).mapM
      (fun entry => do return (entry.1, ← blankFile memory entry.2) :
        Path × Int → Except Error (Path × File)) with
  | error e =>
    rw [built] at made
    contradiction
  | ok files =>
    have each : ∀ (entry : Path × Int) (file : Path × File),
        (do return (entry.1, ← blankFile memory entry.2) : Except Error (Path × File)) = .ok file →
          file = (entry.1, File.blank entry.2.toNat) := by
      rintro ⟨path, size⟩ file opened
      cases one : blankFile memory size with
      | error e => simp [one, bind, Except.bind] at opened
      | ok f =>
        simp only [one, bind, Except.bind, pure, Except.pure, Except.ok.injEq] at opened
        rw [← opened, eq_blank_of_blankFile one]
    have known := eq_map_of_mapM each built
    simp only [List.map_map, Function.comp_def, Int.toNat_natCast] at known
    rw [built] at made
    have store := Except.ok.inj made
    rw [← store, known]
    apply latest_of_nodup
    simpa [Function.comp_def] using nodup_sizesFor banks

/-- Every file of a store that was just made for banks is blank. -/
theorem eq_blank_of_forBanks {memory : Memory} {banks : List Bank} {s : Store}
    (made : forBanks memory banks = .ok s) {path : Path} {f : File}
    (found : s.file? path = some f) : f = File.blank f.size := by
  unfold file? at found
  rw [files_of_forBanks made, lookup_mapValues, Option.map_eq_some_iff] at found
  obtain ⟨size, _, rfl⟩ := found
  rfl

/-- A store that was just made for banks has zeros only. -/
theorem byteAt_of_forBanks {memory : Memory} {banks : List Bank} {s : Store}
    (made : forBanks memory banks = .ok s) (p : Position) : s.byteAt p = 0 := by
  unfold byteAt
  cases found : s.file? p.file with
  | none => rfl
  | some f =>
    rw [eq_blank_of_forBanks made found]
    simp only [File.byte, File.blank, Array.getD_eq_getD_getElem?, Vector.toArray_replicate,
      Array.getElem?_replicate]
    split <;> rfl

/-- From a store that was just made for banks nothing has been read. -/
theorem loadedAt_of_forBanks {memory : Memory} {banks : List Bank} {s : Store}
    (made : forBanks memory banks = .ok s) (p : Position) : s.loadedAt p = 0 := by
  unfold loadedAt
  cases found : s.file? p.file with
  | none => rfl
  | some f =>
    rw [eq_blank_of_forBanks made found]
    rfl

/-! ## Stores made for banks -/

/-- The store has the files of one that was made for banks, with any contents. -/
def MadeFor (banks : List Bank) (s : Store) : Prop :=
  ∃ memory blank, forBanks memory banks = .ok blank ∧ s.sizes = blank.sizes

/-- A store that was made for banks has the sizes that they ask for. -/
theorem MadeFor.sizes_eq {banks : List Bank} {s : Store} (made : MadeFor banks s) :
    s.sizes = sizesFor banks := by
  obtain ⟨_, blank, built, same⟩ := made
  rw [same]
  unfold sizes reading
  rw [files_of_forBanks built]
  simp [Function.comp_def, File.reading, File.blank]

/-- A store stays made for its banks as long as its reading keeps its sizes. -/
theorem MadeFor.of_sizes {banks : List Bank} {s t : Store} (made : MadeFor banks s)
    (same : t.sizes = s.sizes) : MadeFor banks t := by
  obtain ⟨memory, blank, built, sizes⟩ := made
  exact ⟨memory, blank, built, same.trans sizes⟩

/-- A store stays made for its banks as long as it has its reading. -/
theorem MadeFor.of_reading {banks : List Bank} {s t : Store} (made : MadeFor banks s)
    (same : t.reading = s.reading) : MadeFor banks t :=
  made.of_sizes (sizes_congr same)

/-- The paths of a store that was made for banks are different. -/
theorem MadeFor.nodup_paths {banks : List Bank} {s : Store} (made : MadeFor banks s) :
    s.paths.Nodup := by
  rw [paths_eq_map_sizes, made.sizes_eq]
  exact nodup_sizesFor banks

/-- The paths of a store that was made for banks are those that they name. -/
theorem MadeFor.mem_paths {banks : List Bank} {s : Store} (made : MadeFor banks s) {path : Path}
    (member : path ∈ s.paths) : path ∈ banks.map Bank.cdl := by
  rw [paths_eq_map_sizes, made.sizes_eq] at member
  exact mem_of_mem_keys_sizesFor member

/-- A store that was made for banks has room for each of them. -/
theorem MadeFor.room {banks : List Bank} {s : Store} (made : MadeFor banks s) {b : Bank}
    (member : b ∈ banks) : RoomUpTo s.sizes b.cdl (b.cdlOffset + b.size) := by
  rw [made.sizes_eq]
  exact roomUpTo_sizesFor member

/-- A store that was made for banks has every byte of them. -/
theorem MadeFor.has {banks : List Bank} {s : Store} (made : MadeFor banks s) {b : Bank}
    (member : b ∈ banks) {offset : Nat} (inside : offset < b.size) :
    s.Has ⟨b.cdl, (b.cdlOffset + offset : Nat)⟩ := by
  obtain ⟨size, found, enough⟩ := made.room member
  refine ⟨size, found, Int.natCast_nonneg _, ?_⟩
  dsimp only
  omega

/-! ## Requests within the room -/

section

variable {s : Store} {bound : Nat}

/-- A range is granted that ends within the room of its file. -/
theorem exists_checkRange (spelt : Path.Spelling) (room : RoomUpTo s.sizes spelt.path bound)
    {offset count : Int} (start : 0 ≤ offset) (stop : offset + count ≤ bound) :
    ∃ f, s.file? spelt.path = some f ∧ s.checkRange spelt offset count = .ok f := by
  obtain ⟨size, sized, enough⟩ := room
  rw [lookup_sizes, Option.map_eq_some_iff] at sized
  obtain ⟨f, found, rfl⟩ := sized
  have inside : ¬(offset < 0 ∨ offset + count > (f.size : Int)) := by omega
  refine ⟨f, found, ?_⟩
  unfold checkRange file
  simp only [found, bind, Except.bind, inside, if_false]
  rfl

variable {p : Position} (room : RoomUpTo s.sizes p.file bound) (start : 0 ≤ p.offset)

include room start

/-- A mark is granted that ends within the room of its file. -/
theorem markRange_of_room {count : Nat} (stop : p.offset + count ≤ bound) (mask : Mask) :
    s.markRange p.file p.offset count mask = .ok (s.mark p count mask) := by
  obtain ⟨f, _, granted⟩ := exists_checkRange p.file room start stop
  unfold markRange
  rw [granted]
  rfl

/-- A loaded byte is granted within the room of its file. -/
theorem loaded_of_room (stop : p.offset + 1 ≤ bound) :
    s.loaded p.file p.offset = .ok (s.loadedAt p) := by
  obtain ⟨f, found, granted⟩ := exists_checkRange p.file room start stop
  unfold loaded loadedAt
  rw [granted, found]
  rfl

end

end Cdl.Store

end BankTrace
