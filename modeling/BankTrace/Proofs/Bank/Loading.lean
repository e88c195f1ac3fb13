import BankTrace.Proofs.FileSystem.Reading
import BankTrace.Proofs.MemoryMap.Admission

/-!
# Loading banks

Each bank is loaded from its own stretch of its own image file. Where that stretch cannot be read in
full the bank is left without an image and is reported, and the next bank is loaded. Two banks are
not left so but end the loading: one whose path has a null character, and one whose offset is too
large to be asked for in a file that is there. When no bank is of this kind every bank is loaded as
if it were the only one.
-/

namespace BankTrace

namespace Bank

/-- The file of the bank has these bytes where the bank is. -/
def HasImage (fs : FileSystem) (b : Bank) (image : Array UInt8) : Prop :=
  ∃ bytes, fs.HasFile b.file bytes ∧ b.fileOffset + b.size ≤ bytes.size ∧
    image = bytes.extract b.fileOffset (b.fileOffset + b.size)

/-- A bank ends the loading of all banks. -/
inductive Derails (fs : FileSystem) (b : Bank) : Prop
  /-- Its path has a null character. -/
  | null (spelt : b.file.hasNull = true)
  /-- Its file is there, and the offset does not fit into 64 bits. -/
  | offset {bytes : Array UInt8} (found : fs.HasFile b.file bytes)
      (far : FileSystem.wordLimit ≤ b.fileOffset)

section

variable {fs : FileSystem} {b : Bank} {image bytes : Array UInt8} {e : FileError}

/-- Where a bank has a file, the file decides which image the bank has. -/
theorem hasImage_iff_of_file (found : fs.HasFile b.file bytes) :
    b.HasImage fs image ↔ b.fileOffset + b.size ≤ bytes.size ∧
      image = bytes.extract b.fileOffset (b.fileOffset + b.size) := by
  constructor
  · rintro ⟨other, found', there⟩
    rw [found'.unique found] at there
    exact there
  · intro there
    exact ⟨bytes, found, there⟩

/-- A bank without a file has no image. -/
theorem not_hasImage_of_error (failed : fs.read b.file = .error e) : ¬b.HasImage fs image := by
  rintro ⟨bytes, found, _⟩
  rw [FileSystem.read_eq_ok_iff.mpr found] at failed
  contradiction

/-- A bank with a file ends the loading when its offset is too large. -/
theorem derails_iff_of_file (found : fs.HasFile b.file bytes) :
    b.Derails fs ↔ FileSystem.wordLimit ≤ b.fileOffset := by
  constructor
  · intro derails
    cases derails with
    | null spelt =>
      have refused : fs.read b.file = .error .nullInPath := FileSystem.read_eq_null_iff.mpr spelt
      rw [FileSystem.read_eq_ok_iff.mpr found] at refused
      contradiction
    | offset _ far => exact far
  · exact .offset found

/-- A bank without a file ends the loading when its path has a null character. -/
theorem derails_iff_of_error (failed : fs.read b.file = .error e) :
    b.Derails fs ↔ e = .nullInPath := by
  constructor
  · intro derails
    cases derails with
    | null spelt =>
      exact Except.error.inj (failed.symm.trans (FileSystem.read_eq_null_iff.mpr spelt))
    | offset found =>
      rw [FileSystem.read_eq_ok_iff.mpr found] at failed
      contradiction
  · rintro rfl
    exact .null (FileSystem.read_eq_null_iff.mp failed)

/-- A bank has one image at most. -/
theorem HasImage.unique {other : Array UInt8} (there : b.HasImage fs image)
    (there' : b.HasImage fs other) : image = other := by
  obtain ⟨bytes, found, _, rfl⟩ := there
  exact ((hasImage_iff_of_file found).mp there').2.symm

/-- An image has as many bytes as the bank. -/
theorem HasImage.size_eq (there : b.HasImage fs image) : image.size = b.size := by
  obtain ⟨bytes, _, fits, rfl⟩ := there
  rw [Array.size_extract]
  omega

end

end Bank

/-- A bank takes the image that it is given when that has the right length. -/
theorem LoadedBank.image_attach (b : Bank) (image? : Option (Array UInt8)) :
    (attach b image?).1.image.map Vector.toArray = image?.filter (·.size = b.size) := by
  unfold attach
  cases image? with
  | none => rfl
  | some given =>
    dsimp only
    by_cases fits : given.size = b.size
    · rw [dif_pos fits, Option.filter_some, if_pos (decide_eq_true fits)]
      rfl
    · rw [dif_neg fits, Option.filter_some, if_neg (mt of_decide_eq_true fits)]
      rfl

namespace BankSet

section

variable {memory : Memory} {fs : FileSystem} {b : Bank} {banks : List Bank}

/-! ## One bank -/

/-- A bank is read, is found to have no image, or ends the loading. -/
theorem readImage_cases (memory : Memory) (fs : FileSystem) (b : Bank) :
    (∃ image, readImage memory fs b = .ok image ∧ b.HasImage fs image ∧ ¬b.Derails fs) ∨
      (∃ e, readImage memory fs b = .error (.load e) ∧ (∀ image, ¬b.HasImage fs image) ∧
        ¬b.Derails fs) ∨
      ∃ e, readImage memory fs b = .error e ∧ (∀ cause, e ≠ .load cause) ∧ b.Derails fs := by
  have small : b.size ≤ addressCount := Nat.le_trans (Nat.le_add_left ..) b.end_le
  unfold readImage
  cases read : fs.read b.file with
  | error e =>
    have without : ∀ image, ¬b.HasImage fs image := fun _ => Bank.not_hasImage_of_error read
    have derails := Bank.derails_iff_of_error read
    rw [FileSystem.readRange_of_error memory read]
    cases e with
    | nullInPath => exact .inr (.inr ⟨_, rfl, by simp, derails.mpr rfl⟩)
    | _ => exact .inr (.inl ⟨_, rfl, without, by simp [derails]⟩)
  | ok bytes =>
    have found := FileSystem.read_eq_ok_iff.mp read
    have derails := Bank.derails_iff_of_file found
    rw [FileSystem.readRange_of_read memory found _ b.size_pos small]
    by_cases far : FileSystem.wordLimit ≤ b.fileOffset
    · rw [if_pos far]
      exact .inr (.inr ⟨_, rfl, by simp, derails.mpr far⟩)
    · have stays : ¬b.Derails fs := mt derails.mp far
      rw [if_neg far]
      by_cases fits : b.fileOffset + b.size ≤ bytes.size
      · rw [if_pos fits]
        exact .inl ⟨_, rfl, (Bank.hasImage_iff_of_file found).mpr ⟨fits, rfl⟩, stays⟩
      · have without : ∀ image, ¬b.HasImage fs image :=
          fun _ there => fits ((Bank.hasImage_iff_of_file found).mp there).1
        rw [if_neg fits]
        exact .inr (.inl ⟨_, rfl, without, stays⟩)

/-- A bank as it is loaded. -/
def loaded (memory : Memory) (fs : FileSystem) (b : Bank) : LoadedBank :=
  (LoadedBank.attach b (readImage memory fs b).toOption).1

/-- What is reported of a bank when it is loaded. -/
def reported (memory : Memory) (fs : FileSystem) (b : Bank) : List Event :=
  match readImage memory fs b with
  | .error (.load e) => [.imageNotLoaded b e]
  | _ => []

/-- What is read has the right length, so that a bank takes it without a report. -/
theorem attach_readImage (memory : Memory) (fs : FileSystem) (b : Bank) :
    LoadedBank.attach b (readImage memory fs b).toOption = (loaded memory fs b, []) := by
  have silent : (LoadedBank.attach b (readImage memory fs b).toOption).2 = [] := by
    rcases readImage_cases memory fs b with ⟨image, read, there, _⟩ | ⟨e, read, _⟩ | ⟨e, read, _⟩
    · rw [read]
      unfold LoadedBank.attach
      simp only [Except.toOption]
      rw [dif_pos there.size_eq]
    · rw [read]
      rfl
    · rw [read]
      rfl
  rw [← silent]
  rfl

/-- A bank is loaded with what is read of it. -/
theorem image_loaded (memory : Memory) (fs : FileSystem) (b : Bank) :
    (loaded memory fs b).image.map Vector.toArray = (readImage memory fs b).toOption := by
  unfold loaded
  rw [LoadedBank.image_attach]
  rcases readImage_cases memory fs b with ⟨image, read, there, _⟩ | ⟨e, read, _⟩ | ⟨e, read, _⟩
  · rw [read]
    exact Option.filter_eq_some_iff.mpr ⟨rfl, decide_eq_true there.size_eq⟩
  · rw [read]
    rfl
  · rw [read]
    rfl

/-- A bank that does not end the loading is loaded with the image that it has. -/
theorem image_loaded_eq_some_iff (stays : ¬b.Derails fs) {image : Array UInt8} :
    (loaded memory fs b).image.map Vector.toArray = some image ↔ b.HasImage fs image := by
  rw [image_loaded]
  rcases readImage_cases memory fs b with ⟨found, read, there, _⟩ | ⟨e, read, without, _⟩ |
    ⟨_, _, _, derails⟩
  · rw [read]
    constructor
    · intro same
      rw [← Option.some.inj same]
      exact there
    · intro there'
      rw [there'.unique there]
      rfl
  · rw [read]
    constructor
    · intro absurdity
      contradiction
    · intro there
      exact absurd there (without image)
  · contradiction

/-- A bank that does not end the loading is analyzable exactly when its file is long enough. -/
theorem isAnalyzable_loaded_iff (stays : ¬b.Derails fs) :
    (loaded memory fs b).isAnalyzable = true ↔
      ∃ bytes, fs.HasFile b.file bytes ∧ b.fileOffset + b.size ≤ bytes.size := by
  have known : (loaded memory fs b).isAnalyzable = true ↔ ∃ image, b.HasImage fs image := by
    simp only [← @image_loaded_eq_some_iff memory fs b stays]
    rw [← Option.isSome_iff_exists, Option.isSome_map]
    rfl
  rw [known]
  constructor
  · rintro ⟨_, bytes, found, fits, _⟩
    exact ⟨bytes, found, fits⟩
  · rintro ⟨bytes, found, fits⟩
    exact ⟨_, bytes, found, fits, rfl⟩

/-! ## All banks -/

/-- The images that are read, by the names of their banks. -/
def imagesOf (memory : Memory) (fs : FileSystem) (banks : List Bank) :
    List (String × Array UInt8) :=
  banks.filterMap fun b => (readImage memory fs b).toOption.map (b.name, ·)

/-- When no bank ends the loading, the images of all banks are read, and each bank is reported on
its own. -/
theorem readImages_eq (stay : ∀ b ∈ banks, ¬b.Derails fs) :
    readImages memory fs banks =
      (banks.flatMap (reported memory fs), .ok (imagesOf memory fs banks)) := by
  induction banks with
  | nil => rfl
  | cons b rest ih =>
    have others := ih fun c later => stay c (List.mem_cons_of_mem b later)
    unfold readImages imagesOf reported
    rw [List.flatMap_cons, List.filterMap_cons, others]
    rcases readImage_cases memory fs b with ⟨image, read, _⟩ | ⟨e, read, _⟩ | ⟨_, _, _, derails⟩
    · rw [read]
      rfl
    · rw [read]
      rfl
    · exact absurd derails (stay b List.mem_cons_self)

/-- A bank that ends the loading makes it fail. -/
theorem readImages_of_derails (member : b ∈ banks) (derails : b.Derails fs) :
    ∃ e, (readImages memory fs banks).2 = .error e := by
  induction banks with
  | nil => contradiction
  | cons c rest ih =>
    unfold readImages
    rcases readImage_cases memory fs c with
      ⟨image, read, _, stays⟩ | ⟨e, read, _, stays⟩ | ⟨e, read, ends, _⟩
    · rcases List.mem_cons.mp member with rfl | later
      · contradiction
      · obtain ⟨e, failed⟩ := ih later
        rw [read]
        dsimp only
        rw [failed]
        exact ⟨e, rfl⟩
    · rcases List.mem_cons.mp member with rfl | later
      · contradiction
      · rw [read]
        exact ih later
    · rw [read]
      cases e with
      | load cause => exact absurd rfl (ends cause)
      | _ => exact ⟨_, rfl⟩

/-- As the names differ, each image is found by the name of its bank. -/
theorem lookup_imagesOf (names : (banks.map Bank.name).Nodup) (member : b ∈ banks) :
    (imagesOf memory fs banks).lookup b.name = (readImage memory fs b).toOption := by
  induction banks with
  | nil => contradiction
  | cons c rest ih =>
    obtain ⟨fresh, distinct⟩ := List.nodup_cons.mp names
    unfold imagesOf at ih ⊢
    rw [List.filterMap_cons]
    rcases List.mem_cons.mp member with rfl | later
    · cases read : (readImage memory fs b).toOption with
      | some image => simp
      | none =>
        -- No later bank has the name, so nothing is found under it.
        dsimp only [Option.map_none]
        rw [List.lookup_eq_none_iff]
        rintro ⟨name, image⟩ listed
        obtain ⟨c, known, named⟩ := List.mem_filterMap.mp listed
        obtain ⟨found, _, same⟩ := Option.map_eq_some_iff.mp named
        rw [← (Prod.mk.inj same).1, bne_iff_ne]
        intro clash
        rw [clash] at fresh
        exact fresh (List.mem_map_of_mem known)
    · have differs : b.name ≠ c.name := by
        intro same
        rw [← same] at fresh
        exact fresh (List.mem_map_of_mem later)
      cases read : (readImage memory fs c).toOption with
      | none => exact ih distinct later
      | some image =>
        dsimp only [Option.map_some]
        rw [List.lookup_cons, beq_false_of_ne differs]
        exact ih distinct later

/-- When no bank ends the loading, it gives a bank set in which every bank is as it is loaded. -/
theorem load_eq (layout : Layout.check banks = .ok ()) (stay : ∀ b ∈ banks, ¬b.Derails fs) :
    ∃ set, load memory fs banks = (banks.flatMap (reported memory fs), .ok set) ∧
      set.banks = banks.map (loaded memory fs) := by
  have names := (Layout.check_eq_ok_iff.mp layout).1
  have attached : ∀ b ∈ banks,
      LoadedBank.attach b ((imagesOf memory fs banks).lookup b.name) =
        (loaded memory fs b, []) := by
    intro b member
    rw [lookup_imagesOf names member, attach_readImage]
  obtain ⟨set, made, held⟩ := ofImages_eq layout fun name => (imagesOf memory fs banks).lookup name
  refine ⟨set, ?_, ?_⟩
  · have silent : (banks.flatMap fun b =>
        (LoadedBank.attach b ((imagesOf memory fs banks).lookup b.name)).2) = [] := by
      apply List.flatMap_eq_nil_iff.mpr
      intro b member
      rw [attached b member]
    unfold load
    rw [readImages_eq stay]
    dsimp only
    rw [made, silent]
    dsimp only
    rw [List.append_nil]
  · rw [held]
    apply List.map_congr_left
    intro b member
    rw [attached b member]

/-- A bank that ends the loading ends that of all banks. -/
theorem load_of_derails (member : b ∈ banks) (derails : b.Derails fs) :
    ∃ e, (load memory fs banks).2 = .error e := by
  obtain ⟨e, failed⟩ := readImages_of_derails member derails
  unfold load
  cases read : readImages memory fs banks with
  | mk events answer =>
    rw [read] at failed
    obtain rfl : answer = .error e := failed
    exact ⟨e, rfl⟩

/-- What is loaded comes from banks that do not end the loading, each as it is loaded. -/
theorem eq_of_load (layout : Layout.check banks = .ok ()) {events : List Event} {set : BankSet}
    (done : load memory fs banks = (events, .ok set)) :
    (∀ b ∈ banks, ¬b.Derails fs) ∧ events = banks.flatMap (reported memory fs) ∧
      set.banks = banks.map (loaded memory fs) := by
  have stay : ∀ b ∈ banks, ¬b.Derails fs := by
    intro b member derails
    obtain ⟨e, failed⟩ := load_of_derails member derails
    rw [done] at failed
    contradiction
  obtain ⟨other, done', held⟩ := load_eq layout stay
  obtain ⟨reports, same⟩ := Prod.mk.inj (done.symm.trans done')
  obtain rfl := Except.ok.inj same
  exact ⟨stay, reports, held⟩

/-- A layout is loaded exactly when none of its banks ends the loading. -/
theorem exists_load_iff (layout : Layout.check banks = .ok ()) :
    (∃ events set, load memory fs banks = (events, .ok set)) ↔ ∀ b ∈ banks, ¬b.Derails fs := by
  constructor
  · rintro ⟨events, set, done⟩
    exact (eq_of_load layout done).1
  · intro stay
    obtain ⟨set, done, _⟩ := load_eq layout stay
    exact ⟨_, set, done⟩

section

variable {events : List Event} {set : BankSet} {c : LoadedBank}

/-- The banks that were loaded are the declared ones. -/
theorem declared_of_load (layout : Layout.check banks = .ok ())
    (done : load memory fs banks = (events, .ok set)) : set.declared = banks := by
  obtain ⟨_, _, held⟩ := eq_of_load layout done
  unfold declared
  rw [held, List.map_map]
  exact List.map_id'' (fun b => LoadedBank.attach_toBank b _) banks

/-- A bank that was loaded is a declared one as it is loaded. -/
theorem exists_of_load (layout : Layout.check banks = .ok ())
    (done : load memory fs banks = (events, .ok set)) (member : c ∈ set.banks) :
    c = loaded memory fs c.toBank ∧ ¬c.toBank.Derails fs := by
  obtain ⟨stay, _, held⟩ := eq_of_load layout done
  rw [held] at member
  obtain ⟨b, declared, rfl⟩ := List.mem_map.mp member
  have back : (loaded memory fs b).toBank = b := LoadedBank.attach_toBank b _
  rw [back]
  exact ⟨rfl, stay b declared⟩

/-- A bank that was loaded is analyzable exactly when its file has all of its bytes. -/
theorem isAnalyzable_of_load_iff (layout : Layout.check banks = .ok ())
    (done : load memory fs banks = (events, .ok set)) (member : c ∈ set.banks) :
    c.isAnalyzable = true ↔
      ∃ bytes, fs.HasFile c.file bytes ∧ c.fileOffset + c.size ≤ bytes.size := by
  obtain ⟨same, stays⟩ := exists_of_load layout done member
  have known := @isAnalyzable_loaded_iff memory fs c.toBank stays
  rw [← same] at known
  exact known

/-- The images of banks that were loaded are those that the banks have. -/
theorem hasImage_of_load (layout : Layout.check banks = .ok ())
    (done : load memory fs banks = (events, .ok set)) (member : c ∈ set.banks)
    {image : Vector UInt8 c.size} (known : c.image = some image) :
    c.toBank.HasImage fs image.toArray := by
  obtain ⟨same, stays⟩ := exists_of_load layout done member
  have taken := @image_loaded_eq_some_iff memory fs c.toBank stays image.toArray
  rw [← same, known] at taken
  exact taken.mp rfl

end

/-- A bank that is loaded alone is as it is loaded. -/
theorem load_singleton (stays : ¬b.Derails fs) :
    ∃ alone, load memory fs [b] = (reported memory fs b, .ok alone) ∧
      alone.banks = [loaded memory fs b] := by
  have layout : Layout.check [b] = .ok () :=
    Layout.check_eq_ok_iff.mpr ⟨List.nodup_singleton _, List.pairwise_singleton _ _⟩
  have stay : ∀ c ∈ [b], ¬c.Derails fs := by
    intro c member
    rw [List.mem_singleton.mp member]
    exact stays
  obtain ⟨alone, done, held⟩ := load_eq layout stay
  rw [List.flatMap_singleton] at done
  exact ⟨alone, done, held⟩

/-- Banks are loaded exactly when none of them ends the loading. Then a bank is analyzable exactly
when its file has all of its bytes, and every bank comes with the image and the reports that it has
when it is loaded alone. -/
theorem load_isolates (layout : Layout.check banks = .ok ()) :
    ((∃ events set, load memory fs banks = (events, .ok set)) ↔ ∀ b ∈ banks, ¬b.Derails fs) ∧
      ∀ events set, load memory fs banks = (events, .ok set) →
        set.declared = banks ∧
          (∀ b ∈ set.banks,
            (b.isAnalyzable = true ↔
              ∃ bytes, fs.HasFile b.file bytes ∧ b.fileOffset + b.size ≤ bytes.size) ∧
            ∃ reports alone, load memory fs [b.toBank] = (reports, .ok alone) ∧ alone.banks = [b]) ∧
          events = banks.flatMap fun b => (load memory fs [b]).1 := by
  refine ⟨exists_load_iff layout, ?_⟩
  intro events set done
  obtain ⟨stay, reports, _⟩ := eq_of_load layout done
  refine ⟨declared_of_load layout done, ?_, ?_⟩
  · intro b member
    obtain ⟨same, stays⟩ := exists_of_load layout done member
    obtain ⟨alone, single, only⟩ := load_singleton stays
    rw [← same] at only
    exact ⟨isAnalyzable_of_load_iff layout done member, _, alone, single, only⟩
  · rw [reports]
    apply List.flatMap_congr
    intro b member
    obtain ⟨alone, single, _⟩ := load_singleton (stay b member)
    rw [single]

end

/-! ## Two banks in one file -/

/-- A bank of 32 bytes at the front of an image file. -/
def frontBank : Bank where
  name := "front"
  start := 0x8000
  size := 32
  file := ⟨.relative, ["image"]⟩
  cdl := ⟨.relative, ["log"]⟩
  fileOffset := 0
  cdlOffset := 0
  fixed := true
  name_ne := by decide
  size_power := ⟨5, rfl⟩
  size_dvd := by decide
  end_le := by decide

/-- A bank from an offset of the same file on. -/
def backBank (offset : Nat) : Bank :=
  { frontBank with
    name := "back"
    start := 0xC000
    fileOffset := offset
    name_ne := by decide
    size_dvd := by decide
    end_le := by decide }

/-- An image of 33 bytes, each of which is its own offset. -/
def countingImage : Array UInt8 := ((List.range 33).map UInt8.ofNat).toArray

/-- A disk with the image. -/
def countingDisk : FileSystem := ⟨[], [(["image"], .file countingImage)]⟩

/-- A bank that reaches behind the end of the file is left without an image, and the other one is
loaded. -/
theorem load_isolates_short : Layout.check [frontBank, backBank 2] = .ok () ∧
    ∃ events set,
      load Platform.standard.memory countingDisk [frontBank, backBank 2] = (events, .ok set) ∧
      ∀ b ∈ set.banks, b.isAnalyzable = true ↔ b.toBank = frontBank := by
  have layout : Layout.check [frontBank, backBank 2] = .ok () := rfl
  have found : countingDisk.HasFile ⟨.relative, ["image"]⟩ countingImage :=
    FileSystem.read_eq_ok_iff.mp rfl
  have stay : ∀ b ∈ [frontBank, backBank 2], ¬b.Derails countingDisk := by
    intro b member
    rcases List.mem_pair.mp member with rfl | rfl
    · exact mt (Bank.derails_iff_of_file found).mp (by decide)
    · exact mt (Bank.derails_iff_of_file found).mp (by decide)
  obtain ⟨loads, isolated⟩ := @load_isolates Platform.standard.memory countingDisk _ layout
  obtain ⟨events, set, done⟩ := loads.mpr stay
  obtain ⟨declared, each, _⟩ := isolated events set done
  refine ⟨layout, events, set, done, ?_⟩
  intro b member
  have known : b.toBank ∈ [frontBank, backBank 2] := by
    rw [← declared]
    exact List.mem_map_of_mem member
  rw [(each b member).1]
  rcases List.mem_pair.mp known with front | back
  · rw [front]
    exact ⟨fun _ => rfl, fun _ => ⟨_, found, by decide⟩⟩
  · rw [back]
    constructor
    · rintro ⟨bytes, found', fits⟩
      rw [← found.unique found'] at fits
      exact absurd fits (by decide)
    · intro absurdity
      exact absurd (congrArg Bank.name absurdity) (by decide)

/-- A bank whose offset is too large to be asked for takes a bank with it that can be loaded
alone. -/
theorem load_derailed : Layout.check [backBank 0x8000000000000000, frontBank] = .ok () ∧
    load Platform.standard.memory countingDisk [backBank 0x8000000000000000, frontBank] =
      ([], .error (.range .offsetTooLarge)) ∧
    ∃ alone, load Platform.standard.memory countingDisk [frontBank] = ([], .ok alone) ∧
      alone.banks.map LoadedBank.isAnalyzable = [true] :=
  ⟨rfl, rfl, _, rfl, rfl⟩

end BankSet

end BankTrace
