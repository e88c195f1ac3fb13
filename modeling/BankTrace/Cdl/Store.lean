import BankTrace.Bank.Basic
import BankTrace.Cdl.File
import BankTrace.Cdl.Position
import BankTrace.Event
import BankTrace.FileSystem.Replacement
import BankTrace.Registry

/-!
# Log stores

A log store holds the log files of all banks in memory, each by its path, and the positions that a
traversal has claimed so far. Reading the store takes the bytes from the files on disk; writing it
puts only the dirty bytes back, over what is on disk by then, and replaces each file as a whole.
When a file cannot be read or written, the files in front of it have been dealt with, and it and
those behind it are as before.
-/

namespace BankTrace.Cdl

/-- Log files in memory, and the claims of a traversal. -/
structure Store where
  /-- The log files in a fixed order, each with its path. -/
  files : List (Path × File)
  /-- The positions that are claimed. -/
  claims : Registry Position := .empty

/-- What reading or writing a store leaves behind. -/
structure Transfer (α : Type) where
  /-- The log files afterwards. -/
  files : List (Path × File)
  /-- What happened. -/
  events : List Event
  /-- The answer, or why not everything was done. -/
  result : Except FileError α

namespace Store

/-- A size from here on does not fit into 64 bits. -/
def wordLimit : Int := 0x8000000000000000

/-- An empty file of a given size. -/
def blankFile (memory : Memory) (size : Int) : Except Error File :=
  if size < -wordLimit ∨ wordLimit ≤ size then .error .sizeTooLarge
  else if size < 0 then .error .negativeSize
  else if memory.limit ≤ size then .error .outOfMemory
  else .ok (File.blank size.toNat)

/-- Assign a value to a key, in place of the value that it has. -/
def assign {α β : Type} [DecidableEq α] (key : α) (value : β) : List (α × β) → List (α × β)
  | [] => [(key, value)]
  | (k, old) :: rest =>
    if k = key then (k, value) :: rest else (k, old) :: assign key value rest

/-- Values by their keys, each key where it first occurs. Of two values for one key the later one
counts. -/
def latest {α β : Type} [DecidableEq α] (pairs : List (α × β)) : List (α × β) :=
  pairs.foldl (fun found (key, value) => assign key value found) []

/-- A store of blank files. Of two files for one path the later one counts, but both are made. -/
def blank (memory : Memory) (sizes : List (Path × Int)) : Except Error Store := do
  let files ← sizes.mapM fun (path, size) => do return (path, ← blankFile memory size)
  return { files := latest files }

/-- A store of blank files at paths that are given by texts. Of two sizes for one text the later
one counts, and the other is not looked at. -/
def ofSizes (memory : Memory) (sizes : List (String × Int)) : Except Error Store :=
  blank memory ((latest sizes).map fun (text, size) => (Path.ofString text, size))

/-- Make the size of a path large enough for a bank. -/
def growSize (b : Bank) : List (Path × Nat) → List (Path × Nat)
  | [] => [(b.cdl, b.cdlOffset + b.size)]
  | (p, size) :: rest =>
    if p = b.cdl then (p, max size (b.cdlOffset + b.size)) :: rest
    else (p, size) :: growSize b rest

/-- The least sizes of log files that cover banks. -/
def sizesFor (banks : List Bank) : List (Path × Nat) :=
  banks.foldl (fun sizes b => growSize b sizes) []

/-- A store of blank files that cover banks. -/
def forBanks (memory : Memory) (banks : List Bank) : Except Error Store :=
  blank memory ((sizesFor banks).map fun (path, size) => (path, (size : Int)))

/-- The paths of the files. -/
def paths (s : Store) : List Path := s.files.map Prod.fst

/-- The file of that path. -/
def file? (s : Store) (path : Path) : Option File := s.files.lookup path

/-- The file of that path, which must be one of the store. -/
def file (s : Store) (spelt : Path.Spelling) : Except Error File :=
  match s.file? spelt.path with
  | some f => .ok f
  | none => .error (.read (.unknownFile spelt.text))

/-- The file of that path, which must have `count` bytes from `offset` on. -/
def checkRange (s : Store) (spelt : Path.Spelling) (offset count : Int) : Except Error File := do
  let f ← s.file spelt
  if offset < 0 ∨ offset + count > f.size then
    throw (.read (.outsideFile offset count spelt.text f.size))
  return f

/-- Change the file of a path. -/
def updateFile (path : Path) (change : File → File) : List (Path × File) → List (Path × File)
  | [] => []
  | (p, f) :: rest =>
    if p = path then (p, change f) :: rest else (p, f) :: updateFile path change rest

/-- Add bits to `count` bytes from a position on; nothing happens outside the files. -/
def mark (s : Store) (p : Position) (count : Nat) (mask : Mask) : Store :=
  { s with files := updateFile p.file (·.markRange p.offset.toNat mask count) s.files }

/-- Add bits to `count` bytes of a file, which must have them. -/
def markRange (s : Store) (path : Path) (offset count : Int) (mask : Mask) :
    Except Error Store := do
  let _ ← s.checkRange path offset count
  return s.mark ⟨path, offset⟩ count.toNat mask

/-- Add the bits of a number to `count` bytes of a file, which must have them. Where there is a byte
to change, the number must be that of a byte. -/
def markBits (s : Store) (path : Path) (offset count bits : Int) : Except Error Store := do
  let marked ← s.markRange path offset count (Mask.ofInt bits)
  if 0 < count ∧ (bits < 0 ∨ 256 ≤ bits) then throw .notByte
  return marked

/-- The byte at an offset of a file. -/
def get (s : Store) (spelt : Path.Spelling) (offset : Int) : Except Error UInt8 := do
  return (← s.checkRange spelt offset 1).byte offset.toNat

/-- The byte at an offset of a file as it was last read. -/
def loaded (s : Store) (spelt : Path.Spelling) (offset : Int) : Except Error UInt8 := do
  return (← s.checkRange spelt offset 1).loadedByte offset.toNat

/-- The byte at a position as it was last read, zero outside the files. -/
def loadedAt (s : Store) (p : Position) : UInt8 :=
  match s.file? p.file with
  | some f => f.loadedByte p.offset.toNat
  | none => 0

/-- The longest stretches of a window of a file that had one of the bits when it was last read. -/
def loadedRuns (s : Store) (spelt : Path.Spelling) (mask : Mask) (start size : Int) :
    Except Error (List (Nat × Nat)) := do
  return (← s.checkRange spelt start size).loadedRuns mask start.toNat size.toNat

/-- The number of bytes that have one of the bits, in a whole file or in a stretch of it. -/
def count (s : Store) (spelt : Path.Spelling) (mask : Mask) (start : Int) (size : Option Int) :
    Except Error Nat := do
  let f ← s.file spelt
  return f.count mask start ((size.map (start + ·)).getD f.size)

/-- The number of dirty bytes of all files. -/
def dirtyCount (s : Store) : Nat := s.files.foldl (fun sum (_, f) => sum + f.dirtyCount) 0

/-- The position is claimed. -/
def isClaimed (s : Store) (p : Position) : Bool := s.claims.contains p

/-- Claim a position. -/
def claim (s : Store) (p : Position) : Store := { s with claims := s.claims.insert p }

/-- The number of claims. -/
def claimedCount (s : Store) : Nat := s.claims.size

/-- Give up all claims. -/
def resetClaims (s : Store) : Store := { s with claims := .empty }

/-- Read files from disk, one after the other. -/
def readFiles (fs : FileSystem) : List (Path × File) → Transfer Unit
  | [] => ⟨[], [], .ok ()⟩
  | (path, f) :: rest =>
    match fs.readOrEmpty path with
    | .error e => ⟨(path, f) :: rest, [], .error e⟩
    | .ok bytes =>
      let others := readFiles fs rest
      let event := if bytes.isEmpty then [] else [.logRead path (min bytes.size f.size)]
      ⟨(path, f.load bytes) :: others.files, event ++ others.events, others.result⟩

/-- Read all files from disk; a file that does not exist is read as empty. -/
def load (s : Store) (fs : FileSystem) : Store × List Event × Except FileError Unit :=
  let read := readFiles fs s.files
  ({ s with files := read.files }, read.events, read.result)

/-- Write the dirty bytes of one file over what is on disk. -/
def writeFile (fs : FileSystem) (path : Path) (f : File) : FileSystem × Except FileError Unit :=
  match fs.readOrEmpty path with
  | .error e => (fs, .error e)
  | .ok current => fs.replaceDeep path (f.overlay current)

/-- Write files to disk, one after the other; the answer names those that were written. -/
def writeFiles (fs : FileSystem) : List (Path × File) → FileSystem × Transfer (List Path)
  | [] => (fs, ⟨[], [], .ok []⟩)
  | (path, f) :: rest =>
    if f.isDirty then
      match writeFile fs path f with
      | (fs, .error e) => (fs, ⟨(path, f) :: rest, [], .error e⟩)
      | (fs, .ok ()) =>
        let (fs, others) := writeFiles fs rest
        (fs, ⟨(path, f.clean) :: others.files, .logWritten path :: others.events,
          others.result.map (path :: ·)⟩)
    else
      let (fs, others) := writeFiles fs rest
      (fs, ⟨(path, f) :: others.files, others.events, others.result⟩)

/-- Write all dirty bytes to disk; the answer names the files that had any. -/
def flush (s : Store) (fs : FileSystem) :
    Store × FileSystem × List Event × Except FileError (List Path) :=
  let (fs, written) := writeFiles fs s.files
  ({ s with files := written.files }, fs, written.events, written.result)

end Store

end BankTrace.Cdl
