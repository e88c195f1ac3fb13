import BankTrace.Proofs.Bank.Loading

/-!
# Mapped bytes

What the processor sees of a bank that was loaded is the stretch of the image file that belongs to
the bank: a single byte, a stretch of bytes, which ends where the bank ends, and a word, which has
to be in one bank. Banks may share files in any way, as each is loaded on its own.
-/

namespace BankTrace

namespace Bank

variable {fs : FileSystem} {b : Bank} {image bytes : Array UInt8}

/-- Inside the bank a byte of the image is the byte of the file that far behind the offset. -/
theorem HasImage.getElem?_eq (there : b.HasImage fs image) (found : fs.HasFile b.file bytes)
    {i : Nat} (inside : i < b.size) : bytes[b.fileOffset + i]? = image[i]? := by
  obtain ⟨fits, rfl⟩ := (hasImage_iff_of_file found).mp there
  rw [Array.getElem?_extract, if_pos (by omega)]

/-- Inside the bank a stretch of the image is one of the file. -/
theorem HasImage.extract_eq (there : b.HasImage fs image) (found : fs.HasFile b.file bytes)
    {first : Nat} (inside : first ≤ b.size) (count : Nat) :
    image.extract first (first + count) =
      bytes.extract (b.fileOffset + first)
        (b.fileOffset + first + min count (b.size - first)) := by
  obtain ⟨fits, rfl⟩ := (hasImage_iff_of_file found).mp there
  rw [Array.extract_extract]
  congr 1
  omega

end Bank

/-- What is read at a location, with the address that resolves to it, is what a file has there. -/
structure Location.ReadsFrom (l : Location) (set : BankSet) (map : MemoryMap) (addr : Int)
    (bytes : Array UInt8) : Prop where
  /-- The byte is that of the file. -/
  byte : ∃ byte, set.readByte l.bank.toBank l.offset = .ok byte ∧
    bytes[l.bank.fileOffset + l.offset]? = some byte
  /-- A stretch is that of the file, up to the end of the bank. -/
  stretch : ∀ count : Nat, set.read l.bank.toBank l.offset count =
    .ok (bytes.extract (l.bank.fileOffset + l.offset)
      (l.bank.fileOffset + l.offset + min count (l.bank.size - l.offset)))
  /-- The word is made of the bytes of this address and the next, when both are in the bank and the
  byte is not its last one. -/
  word : ∀ m, map.resolve (addr + 1) = some m → m.bank = l.bank → l.offset + 1 < l.bank.size →
    ∃ low high, set.readByte l.bank.toBank l.offset = .ok low ∧
      set.readByte m.bank.toBank m.offset = .ok high ∧
      map.readWord addr = some (low.toNat + 256 * high.toNat)
  /-- There is no word at the last byte of the bank. -/
  last : l.offset + 1 = l.bank.size → map.readWord addr = none
  /-- The next address is in the bank except behind its last byte, unless the bank is all of the
  address space. -/
  next : (∃ m, map.resolve (addr + 1) = some m ∧ m.bank = l.bank) ↔
    l.offset + 1 < l.bank.size ∨ l.bank.size = 0x10000

/-- What is read at an address is what the files have there: no word where no bank is mapped or the
bank has no image, and else the bytes of the file of the bank. -/
inductive MemoryMap.ShowsFiles (fs : FileSystem) (set : BankSet) (map : MemoryMap) (addr : Int) :
    Prop
  | unmapped (nowhere : map.resolve addr = none) (silent : map.readWord addr = none)
  | unanalyzable {l : Location} (found : map.resolve addr = some l)
      (blank : l.bank.isAnalyzable = false) (silent : map.readWord addr = none)
  | file {l : Location} {bytes : Array UInt8} (found : map.resolve addr = some l)
      (analyzable : l.bank.isAnalyzable = true) (there : fs.HasFile l.bank.file bytes)
      (reads : l.ReadsFrom set map addr bytes)

section

variable {fs : FileSystem} {set : BankSet} {map : MemoryMap} {addr : Int} {l : Location}
  {image : Vector UInt8 l.bank.size} {bytes : Array UInt8}

/-- The word at an address is that of the location. -/
theorem MemoryMap.readWord_eq (found : map.resolve addr = some l) :
    map.readWord addr = l.word? := by
  unfold readWord
  rw [found]
  rfl

/-- At the last byte of a bank there is no word. -/
theorem Location.word?_of_last (last : l.offset + 1 = l.bank.size) : l.word? = none := by
  unfold word?
  cases l.bank.image with
  | none => rfl
  | some image =>
    dsimp only
    rw [dif_neg (by omega)]

/-- In front of the last byte of a bank with an image the word is made of two bytes. -/
theorem Location.word?_of_inside (known : l.bank.image = some image)
    (inside : l.offset + 1 < l.bank.size) :
    l.word? = some ((l.bank.byte l.offset).toNat + 256 * (l.bank.byte (l.offset + 1)).toNat) := by
  rw [LoadedBank.byte_of_image known l.offset.isLt, LoadedBank.byte_of_image known inside]
  unfold word?
  rw [known]
  dsimp only
  rw [dif_pos inside]
  rfl

/-- The next address is in the same bank except behind its last byte, unless the bank is all of the
address space: then the first address comes behind the last. -/
theorem MemoryMap.next_in_bank_iff (found : map.resolve addr = some l) :
    (∃ m, map.resolve (addr + 1) = some m ∧ m.bank = l.bank) ↔
      l.offset + 1 < l.bank.size ∨ l.bank.size = 0x10000 := by
  obtain ⟨b, offset⟩ := l
  obtain ⟨member, address⟩ := resolve_eq_some_iff.mp found
  have fits := b.endAddress_le
  have below := offset.isLt
  unfold Bank.endAddress at fits
  unfold Location.address wrapAddress at address
  dsimp only at *
  constructor
  · rintro ⟨⟨c, other⟩, found', rfl⟩
    have address' := (resolve_eq_some_iff.mp found').2
    have below' := other.isLt
    unfold Location.address wrapAddress at address'
    dsimp only at *
    omega
  · rintro (inside | whole)
    · exact ⟨_, resolve_add found inside, rfl⟩
    · by_cases inside : offset + 1 < b.size
      · exact ⟨_, resolve_add found inside, rfl⟩
      · refine ⟨⟨b, ⟨0, b.size_pos⟩⟩, resolve_eq_some_iff.mpr ⟨member, ?_⟩, rfl⟩
        unfold Location.address wrapAddress
        dsimp only
        omega

/-- What is read at a location of a bank with an image is what the file has there. -/
theorem Location.readsFrom_of_image (found : map.resolve addr = some l)
    (member : l.bank ∈ set.banks) (known : l.bank.image = some image)
    (held : l.bank.toBank.HasImage fs image.toArray) (there : fs.HasFile l.bank.file bytes) :
    l.ReadsFrom set map addr bytes := by
  have analyzable : l.bank.isAnalyzable = true := Option.isSome_iff_exists.mpr ⟨image, known⟩
  have granted : ∀ {offset : Nat}, offset < l.bank.size →
      set.readByte l.bank.toBank offset = .ok (l.bank.byte offset) :=
    BankSet.readByte_eq member analyzable
  constructor
  case byte =>
    refine ⟨_, granted l.offset.isLt, ?_⟩
    rw [held.getElem?_eq there l.offset.isLt, LoadedBank.byte_of_image known l.offset.isLt]
    have bound : l.offset < image.toArray.size := by
      rw [image.size_toArray]
      exact l.offset.isLt
    exact Array.getElem?_eq_getElem bound
  case stretch =>
    intro count
    obtain ⟨part, read, listed⟩ := map_eq_ok_iff.mp (BankSet.read_eq member analyzable count)
    have stretch : part = image.toArray.extract l.offset (l.offset + count) := by
      apply Array.toList_inj.mp
      rw [listed]
      unfold Location.bytes
      rw [known]
    rw [read, stretch, held.extract_eq there (Nat.le_of_lt l.offset.isLt)]
  case word =>
    intro m found' banks inside
    have next := MemoryMap.resolve_add found inside
    obtain rfl := Option.some.inj (found'.symm.trans next)
    refine ⟨_, _, granted l.offset.isLt, granted inside, ?_⟩
    rw [MemoryMap.readWord_eq found, word?_of_inside known inside]
  case last =>
    intro last
    rw [MemoryMap.readWord_eq found, word?_of_last last]
  case next => exact MemoryMap.next_in_bank_iff found

/-- What is read in a map of banks that were loaded is what the files have there. -/
theorem MemoryMap.showsFiles_of_load {memory : Memory} {banks : List Bank}
    (layout : Layout.check banks = .ok ()) {events : List Event}
    (done : BankSet.load memory fs banks = (events, .ok set)) {snapshot : Snapshot}
    (valid : ofSnapshot set snapshot = .ok map) (addr : Int) : map.ShowsFiles fs set addr := by
  cases found : map.resolve addr with
  | none =>
    apply ShowsFiles.unmapped found
    unfold readWord
    rw [found]
    rfl
  | some l =>
    have member := mem_banks_of_mem_active valid (resolve_eq_some_iff.mp found).1
    cases known : l.bank.image with
    | none =>
      apply ShowsFiles.unanalyzable found
      · unfold LoadedBank.isAnalyzable
        rw [known]
        rfl
      · rw [readWord_eq found]
        unfold Location.word?
        rw [known]
    | some image =>
      have held := BankSet.hasImage_of_load layout done member known
      have ⟨bytes, there, _⟩ := held
      exact .file found (Option.isSome_iff_exists.mpr ⟨image, known⟩) there
        (Location.readsFrom_of_image found member known held there)

end

namespace BankSet

/-- A bank whose offsets fit into 64 bits ends the loading only by a null character in its path. -/
theorem derails_iff_hasNull {fs : FileSystem} {b : Bank}
    (near : b.fileOffset + b.size < 0x8000000000000000) :
    b.Derails fs ↔ b.file.hasNull = true := by
  constructor
  · intro derails
    cases derails with
    | null spelt => exact spelt
    | offset _ far =>
      unfold FileSystem.wordLimit at far
      omega
  · exact .null

/-- Banks whose offsets fit into 64 bits are loaded exactly when no path of them has a null
character. Then a bank is analyzable exactly when its file has all of its bytes, and what is read at
any address of any map is what the files have there. -/
theorem load_shows_files {memory : Memory} {fs : FileSystem} {banks : List Bank}
    (layout : Layout.check banks = .ok ())
    (near : ∀ b ∈ banks, b.fileOffset + b.size < 0x8000000000000000) :
    ((∃ events set, load memory fs banks = (events, .ok set)) ↔
        ∀ b ∈ banks, ¬b.file.hasNull = true) ∧
      ∀ events set, load memory fs banks = (events, .ok set) →
        set.declared = banks ∧
          (∀ b ∈ set.banks, b.isAnalyzable = true ↔
            ∃ bytes, fs.HasFile b.file bytes ∧ b.fileOffset + b.size ≤ bytes.size) ∧
          ∀ snapshot map, MemoryMap.ofSnapshot set snapshot = .ok map →
            ∀ addr, map.ShowsFiles fs set addr := by
  constructor
  · rw [exists_load_iff layout]
    apply forall₂_congr
    intro b member
    rw [derails_iff_hasNull (near b member)]
  · intro events set done
    refine ⟨declared_of_load layout done, ?_, ?_⟩
    · intro b member
      exact isAnalyzable_of_load_iff layout done member
    · intro snapshot map valid addr
      exact MemoryMap.showsFiles_of_load layout done valid addr

/-- Two banks that share most of their file are loaded, and the first word of the second one is made
of the second and the third byte of the file. -/
theorem load_shows_files_shared : Layout.check [frontBank, backBank 1] = .ok () ∧
    (∀ b ∈ [frontBank, backBank 1], b.fileOffset + b.size < 0x8000000000000000) ∧
    ∃ events set map,
      load Platform.standard.memory countingDisk [frontBank, backBank 1] = (events, .ok set) ∧
      MemoryMap.ofSnapshot set {} = .ok map ∧ map.readWord 0xC000 = some 0x0201 ∧
        map.ShowsFiles countingDisk set 0xC000 := by
  have layout : Layout.check [frontBank, backBank 1] = .ok () := rfl
  have near : ∀ b ∈ [frontBank, backBank 1], b.fileOffset + b.size < 0x8000000000000000 := by
    decide
  obtain ⟨_, shown⟩ := @load_shows_files Platform.standard.memory countingDisk _ layout near
  obtain ⟨_, _, shows⟩ := shown [] _ rfl
  exact ⟨layout, near, _, _, _, rfl, rfl, rfl, shows {} _ rfl 0xC000⟩

/-- A bank in the same file whose path has a null character. -/
def unspeltBank : Bank := { backBank 0 with file := ⟨.relative, ["a\x00b"]⟩ }

/-- A bank whose path has a null character takes a bank with it that can be loaded alone. -/
theorem load_unspelt : Layout.check [unspeltBank, frontBank] = .ok () ∧
    (∀ b ∈ [unspeltBank, frontBank], b.fileOffset + b.size < 0x8000000000000000) ∧
    load Platform.standard.memory countingDisk [unspeltBank, frontBank] =
      ([], .error (.file .nullInPath)) ∧
    ∃ alone, load Platform.standard.memory countingDisk [frontBank] = ([], .ok alone) ∧
      alone.banks.map LoadedBank.isAnalyzable = [true] :=
  ⟨rfl, by decide, rfl, _, rfl, rfl⟩

end BankSet

end BankTrace
