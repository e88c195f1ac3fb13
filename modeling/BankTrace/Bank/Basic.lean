import BankTrace.Memory.Region

/-!
# Banks

A bank is a stretch of an image file that can be mapped into the address space. Its length is a
power of two and its start a multiple of its length, so two banks that share an address lie one
inside the other. Beside the image file a bank names a log file, which has one byte for every byte
of the image, and where its own stretch starts in each of the two.
-/

namespace BankTrace

/-- What a bank is declared to be, before its rules are checked. -/
structure Bank.Declaration where
  /-- The name. -/
  name : String
  /-- The first address. -/
  start : Int
  /-- The number of addresses. -/
  size : Int
  /-- The image file. -/
  file : Path
  /-- The log file. -/
  cdl : Path
  /-- Where the bank starts in the image file. -/
  fileOffset : Int := 0
  /-- Where the bank starts in the log file. -/
  cdlOffset : Int := 0
  /-- The bank is mapped in every snapshot. -/
  fixed : Bool := false
  deriving DecidableEq

/-- A bank that keeps its rules. -/
structure Bank where
  /-- The name. -/
  name : String
  /-- The first address. -/
  start : Nat
  /-- The number of addresses. -/
  size : Nat
  /-- The image file. -/
  file : Path
  /-- The log file. -/
  cdl : Path
  /-- Where the bank starts in the image file. -/
  fileOffset : Nat
  /-- Where the bank starts in the log file. -/
  cdlOffset : Nat
  /-- The bank is mapped in every snapshot. -/
  fixed : Bool
  /-- A bank has a name. -/
  name_ne : name ≠ ""
  /-- The length is a power of two. -/
  size_power : size.isPowerOfTwo
  /-- The start is a multiple of the length. -/
  size_dvd : size ∣ start
  /-- The bank ends inside the address space. -/
  end_le : start + size ≤ addressCount
  deriving DecidableEq

namespace Bank

/-- The bank that a declaration describes, or the first rule that it breaks. -/
def ofDeclaration (d : Declaration) : Except ConfigError Bank :=
  if named : d.name ≠ "" then
    if power : d.size.toNat.isPowerOfTwo then
      if inside : 0 ≤ d.start ∧ d.start < addressCount then
        if aligned : d.size.toNat ∣ d.start.toNat then
          if fits : d.start + d.size ≤ addressCount then
            if 0 ≤ d.fileOffset ∧ 0 ≤ d.cdlOffset then
              .ok {
                name := d.name, start := d.start.toNat, size := d.size.toNat
                file := d.file, cdl := d.cdl, fileOffset := d.fileOffset.toNat
                cdlOffset := d.cdlOffset.toNat, fixed := d.fixed, name_ne := named
                size_power := power
                size_dvd := aligned
                end_le := by have := Nat.pos_of_isPowerOfTwo power; omega }
            else .error (.bankOffset d.name)
          else .error (.bankEnd d.name d.start d.size)
        else .error (.bankAlignment d.name d.start d.size)
      else .error (.bankStart d.name d.start)
    else .error (.bankLength d.name d.size)
  else .error .bankName

/-- The address behind the bank. -/
def endAddress (b : Bank) : Nat := b.start + b.size

/-- The start and the length, which switchable banks that replace each other share. -/
def window (b : Bank) : Nat × Nat := (b.start, b.size)

/-- The address lies in the bank. -/
def contains (b : Bank) (addr : Int) : Bool := b.start ≤ addr && addr < b.endAddress

/-- The banks share an address. -/
def overlaps (a b : Bank) : Bool := a.start < b.endAddress && b.start < a.endAddress

/-- No bank is empty. -/
theorem size_pos (b : Bank) : 0 < b.size := Nat.pos_of_isPowerOfTwo b.size_power

/-- Every address of a bank is below `$10000`. -/
theorem endAddress_le (b : Bank) : b.endAddress ≤ 0x10000 := b.end_le

theorem contains_iff {b : Bank} {addr : Int} :
    b.contains addr = true ↔ (b.start : Int) ≤ addr ∧ addr < b.endAddress := by
  simp [contains]

theorem overlaps_iff {a b : Bank} :
    a.overlaps b = true ↔ a.start < b.endAddress ∧ b.start < a.endAddress := by
  simp [overlaps]

/-- Banks that overlap have an address in common. -/
theorem overlaps_iff_exists {a b : Bank} :
    a.overlaps b = true ↔ ∃ addr, a.contains addr = true ∧ b.contains addr = true := by
  have first := a.size_pos
  have second := b.size_pos
  simp only [overlaps_iff, contains_iff, endAddress]
  constructor
  · rintro ⟨low, high⟩
    exact ⟨(max a.start b.start : Nat), by omega⟩
  · rintro ⟨addr, inFirst, inSecond⟩
    omega

end Bank

end BankTrace
