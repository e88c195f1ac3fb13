import BankTrace.Bank.Layout
import BankTrace.Event
import BankTrace.FileSystem
import BankTrace.Slice

/-!
# Bank sets

A bank set is a layout of banks together with the images of those whose image could be loaded. A
bank without an image can be mapped, but nothing in it can be read. Loading reports what goes wrong
and goes on with the next bank.
-/

namespace BankTrace

/-- A bank and its image, if that could be loaded. -/
structure LoadedBank extends Bank where
  /-- The bytes of the bank. -/
  image : Option (Vector UInt8 size)

namespace LoadedBank

/-- The image of the bank is known. -/
def isAnalyzable (b : LoadedBank) : Bool := b.image.isSome

/-- Give a bank its image; one of the wrong length is left out. -/
def attach (b : Bank) (image : Option (Array UInt8)) : LoadedBank × List Event :=
  match image with
  | none => (⟨b, none⟩, [])
  | some bytes =>
    if h : bytes.size = b.size then (⟨b, some ⟨bytes, h⟩⟩, [])
    else (⟨b, none⟩, [.imageLength b bytes.size])

@[simp] theorem attach_toBank (b : Bank) (image : Option (Array UInt8)) :
    (attach b image).1.toBank = b := by
  unfold attach
  split
  · rfl
  · split <;> rfl

end LoadedBank

/-- A layout of banks with their images. -/
structure BankSet where
  /-- The banks in the order of their declaration. -/
  banks : List LoadedBank
  /-- The banks keep the rules of a layout. -/
  layout : Layout.check (banks.map LoadedBank.toBank) = .ok ()

namespace BankSet

/-- The bank set of a layout, with the images that belong to the names. -/
def ofImages (banks : List Bank) (image : String → Option (Array UInt8)) :
    Except ConfigError (BankSet × List Event) :=
  match h : Layout.check banks with
  | .error e => .error e
  | .ok () =>
    let attached := banks.map fun b => LoadedBank.attach b (image b.name)
    .ok (⟨attached.map Prod.fst, by simpa [attached, Function.comp_def] using h⟩,
      attached.flatMap Prod.snd)

/-- The bytes of a bank in its image file. A length that does not fit into 64 bits and a path with
a null character are errors of the request and not of the bank. -/
def readImage (memory : Memory) (fs : FileSystem) (b : Bank) : Except Error (Array UInt8) :=
  match fs.readRange memory b.file b.fileOffset b.size with
  | .ok bytes => .ok bytes
  | .error (.file (.notFound _)) => .error (.load (.missing b.name b.file))
  | .error (.file .nullInPath) => .error (.file .nullInPath)
  | .error (.file e) => .error (.load (.unreadable b.name b.size b.fileOffset (.file e)))
  | .error (.short path got wanted offset) =>
    .error (.load (.unreadable b.name b.size b.fileOffset (.short path got wanted offset)))
  | .error e => .error (.range e)

/-- Load the images of banks. A bank that cannot be loaded is reported and has no image; an error
of the request ends the loading, and what was reported until then stays. -/
def readImages (memory : Memory) (fs : FileSystem) :
    List Bank → List Event × Except Error (List (String × Array UInt8))
  | [] => ([], .ok [])
  | b :: rest =>
    match readImage memory fs b with
    | .ok bytes =>
      let (events, images) := readImages memory fs rest
      (events, images.map ((b.name, bytes) :: ·))
    | .error (.load e) =>
      let (events, images) := readImages memory fs rest
      (.imageNotLoaded b e :: events, images)
    | .error e => ([], .error e)

/-- The bank set of a layout, with the images that are in the image files. -/
def load (memory : Memory) (fs : FileSystem) (banks : List Bank) :
    List Event × Except Error BankSet :=
  match readImages memory fs banks with
  | (read, .error e) => (read, .error e)
  | (read, .ok images) =>
    match ofImages banks fun name => images.lookup name with
    | .error e => (read, .error (.config e))
    | .ok (set, attached) => (read ++ attached, .ok set)

/-- The bank of that name. -/
def get? (set : BankSet) (name : String) : Option LoadedBank :=
  set.banks.find? fun b => b.name = name

/-- The banks that are mapped in every snapshot. -/
def fixed (set : BankSet) : List LoadedBank := set.banks.filter fun b => b.fixed

/-- The banks that a snapshot has to select. -/
def switchable (set : BankSet) : List LoadedBank := set.banks.filter fun b => !b.fixed

/-- The image of the bank of that name is known. -/
def isAnalyzable (set : BankSet) (name : String) : Bool :=
  (set.get? name).any LoadedBank.isAnalyzable

/-- The names of switchable banks by their windows, in the order of the first bank of each. -/
def windows (set : BankSet) : List ((Nat × Nat) × List String) :=
  let keys := (set.switchable.map fun b => b.window).eraseDups
  keys.map fun key => (key, (set.switchable.filter fun b => b.window = key).map fun b => b.name)

/-- One snapshot for every switchable bank; without any, the snapshot that selects nothing. -/
def snapshots (set : BankSet) : List Snapshot :=
  match set.switchable with
  | [] => [{}]
  | banks => banks.map fun b => .single b.toBank 0

/-- The bytes of the bank of that name. -/
def bytes (set : BankSet) (name : String) : Except Error (Array UInt8) :=
  match (set.get? name).bind fun b => b.image.map Vector.toArray with
  | some bytes => .ok bytes
  | none => .error (.read (.notLoaded name))

/-- A bank has that offset. -/
def checkOffset (b : Bank) (offset : Int) : Except Error Unit :=
  if 0 ≤ offset ∧ offset < b.size then .ok ()
  else .error (.read (.outsideBank offset b.name b.size))

/-- The byte at an offset of a bank. -/
def readByte (set : BankSet) (b : Bank) (offset : Int) : Except Error UInt8 := do
  checkOffset b offset
  let bytes ← set.bytes b.name
  match bytes[offset.toNat]? with
  | some byte => return byte
  | none => throw .imageIndex

/-- Up to `count` bytes from an offset of a bank on, never behind its end. -/
def read (set : BankSet) (b : Bank) (offset count : Int) : Except Error (Array UInt8) := do
  checkOffset b offset
  return Slice.between (← set.bytes b.name) offset (offset + count)

/-- The log file and the offset there that belong to an offset of a bank. -/
def logPosition (b : Bank) (offset : Int) : Except Error (Path × Int) := do
  checkOffset b offset
  return (b.cdl, b.cdlOffset + offset)

end BankSet

end BankTrace
