import BankTrace.Slice

/-!
# Log files

A log file in memory has one byte for every byte of an image. Bit 0 says that the byte is code, bit
1 that it is data; the other bits are kept as they are. Marks only add bits. A byte is dirty when a
mark has changed it since the file was last read or written, and what was last read is remembered
apart from the marks.
-/

namespace BankTrace.Cdl

/-- Bits of a log byte. -/
abbrev Mask := UInt8

/-- The bit of code. -/
def code : Mask := 1

/-- The bit of data. -/
def data : Mask := 2

/-- The bits of a number, those outside a byte left out. -/
def Mask.ofInt (bits : Int) : Mask := UInt8.ofInt bits

/-- A log byte has one of the bits. -/
def hasAny (mask byte : UInt8) : Bool := byte &&& mask != 0

/-- A log file in memory. -/
structure File where
  /-- The number of bytes. -/
  size : Nat
  /-- The bytes with all marks. -/
  buffer : Vector UInt8 size
  /-- The bytes that differ from the file on disk because of marks. -/
  dirty : Vector Bool size
  /-- The bytes as they were last read, if they were. -/
  loaded : Option (Vector UInt8 size)

namespace File

/-- A file of zeros that has not been read. -/
def blank (size : Nat) : File :=
  ⟨size, Vector.replicate size 0, Vector.replicate size false, none⟩

/-- Add bits to one byte; there is nothing to do behind the end. -/
def mark (f : File) (offset : Nat) (mask : Mask) : File :=
  match f with
  | ⟨size, buffer, dirty, loaded⟩ =>
    if h : offset < size then
      let old := buffer[offset]
      let new := old ||| mask
      if new = old then ⟨size, buffer, dirty, loaded⟩
      else ⟨size, buffer.set offset new, dirty.set offset true, loaded⟩
    else ⟨size, buffer, dirty, loaded⟩

/-- Add bits to `count` bytes. -/
def markRange (f : File) (offset : Nat) (mask : Mask) : (count : Nat) → File
  | 0 => f
  | count + 1 => (f.mark offset mask).markRange (offset + 1) mask count

/-- The byte at an offset with all marks, zero behind the end. -/
def byte (f : File) (offset : Nat) : UInt8 := f.buffer.toArray.getD offset 0

/-- The byte at an offset as it was last read, zero behind the end and when it never was. -/
def loadedByte (f : File) (offset : Nat) : UInt8 :=
  match f.loaded with
  | some bytes => bytes.toArray.getD offset 0
  | none => 0

/-- The number of dirty bytes. -/
def dirtyCount (f : File) : Nat := f.dirty.countP id

/-- Some byte is dirty. -/
def isDirty (f : File) : Bool := f.dirty.any id

/-- The file after reading `bytes`: those that fit, then zeros. -/
def load (f : File) (bytes : Array UInt8) : File :=
  let buffer := Vector.ofFn fun i : Fin f.size => bytes.getD i 0
  ⟨f.size, buffer, Vector.replicate f.size false, some buffer⟩

/-- The file after its dirty bytes have been written. -/
def clean (f : File) : File := { f with dirty := Vector.replicate f.size false }

/-- What is written over `current`: its bytes, zeros up to the size of the file, and the dirty
bytes in their places. -/
def overlay (f : File) (current : Array UInt8) : Array UInt8 :=
  Array.ofFn fun i : Fin (max current.size f.size) =>
    if f.dirty.toArray.getD i false then f.byte i else current.getD i 0

/-- The number of bytes of a stretch that have one of the bits. -/
def count (f : File) (mask : Mask) (first last : Int) : Nat :=
  (Slice.between f.buffer.toArray first last).countP (hasAny mask)

/-- The stretches of `count` offsets from `offset` on where a test holds, each as long as
possible; `first` is where the stretch in front of `offset` starts, if the test held there. -/
def stretches (test : Nat → Bool) (offset : Nat) (first : Option Nat) :
    (count : Nat) → List (Nat × Nat)
  | 0 =>
    match first with
    | some start => [(start, offset - start)]
    | none => []
  | count + 1 =>
    if test offset then stretches test (offset + 1) (some (first.getD offset)) count
    else
      match first with
      | some start => (start, offset - start) :: stretches test (offset + 1) none count
      | none => stretches test (offset + 1) none count

/-- The longest stretches of a window whose bytes had one of the bits when they were last read,
each by its offset and its length. -/
def loadedRuns (f : File) (mask : Mask) (start size : Nat) : List (Nat × Nat) :=
  match f.loaded with
  | none => []
  | some _ => stretches (fun i => hasAny mask (f.loadedByte i)) start none size

end File

end BankTrace.Cdl
