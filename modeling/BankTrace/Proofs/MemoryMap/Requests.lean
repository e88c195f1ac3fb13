import BankTrace.Memory.AddressSpace
import BankTrace.Proofs.MemoryMap.Filled
import BankTrace.Trace.Sweep

/-!
# Requests that are granted

A request for a permission is refused outside the address space, one for a byte of a bank outside
the bank or without an image, and one for a position of the log outside the bank. A location of a
bank of the set is inside that bank, so nothing that is requested for it is refused, and the answer
is what the location says.
-/

namespace BankTrace

/-- A number is an address. -/
def IsAddress (addr : Int) : Prop := 0 ≤ addr ∧ addr < 0x10000

/-- A wrapped number is an address. -/
theorem isAddress_wrapAddress (addr : Int) : IsAddress (wrapAddress addr) :=
  wrapAddress_bounds addr

/-- A small number is an address. -/
theorem isAddress_natCast {n : Nat} (small : n < 0x10000) : IsAddress n := by
  unfold IsAddress
  omega

/-- Every location has an address of the address space. -/
theorem Location.isAddress (l : Location) : IsAddress l.address :=
  isAddress_natCast l.address_lt

namespace AddressSpace

/-- The permission of an address is granted. -/
theorem permission_eq (space : AddressSpace) {addr : Int} (inside : IsAddress addr) :
    space.permission addr = .ok (space.permissionAt addr) := by
  have bounds : 0 ≤ addr ∧ addr < 0x10000 := inside
  unfold permissionAt permission
  rw [dif_pos bounds]
  rfl

/-- Whether an address may be executed is answered. -/
theorem isExecutable_eq (space : AddressSpace) {addr : Int} (inside : IsAddress addr) :
    space.isExecutable addr = .ok (space.permissionAt addr).executable := by
  unfold isExecutable
  rw [space.permission_eq inside]
  rfl

/-- Whether some address passes a test of its permission is answered when all are addresses. -/
theorem anyAddress_eq (space : AddressSpace) (test : Permission → Bool) {addrs : List Int}
    (inside : ∀ addr ∈ addrs, IsAddress addr) :
    anyAddress (fun addr => (space.permission addr).map test) addrs =
      .ok (addrs.any fun addr => test (space.permissionAt addr)) := by
  induction addrs with
  | nil => rfl
  | cons addr rest ih =>
    have here := space.permission_eq (inside addr List.mem_cons_self)
    have later := ih fun other member => inside other (List.mem_cons_of_mem addr member)
    rw [anyAddress, here, List.any_cons]
    cases passes : test (space.permissionAt addr) with
    | true => simp [passes, Except.map, bind, Except.bind, pure, Except.pure]
    | false =>
      rw [Bool.false_or, ← later]
      simp [passes, Except.map, bind, Except.bind]

end AddressSpace

/-- The bytes of a bank with an image are those of the image. -/
theorem LoadedBank.byte_of_image {b : LoadedBank} {image : Vector UInt8 b.size}
    (known : b.image = some image) {offset : Nat} (inside : offset < b.size) :
    b.byte offset = image[offset] := by
  have bound : offset < image.toArray.size := by
    rw [image.size_toArray]
    exact inside
  unfold byte
  rw [known]
  exact (Array.getElem_eq_getD (h := bound) 0).symm

namespace BankSet

section

variable {set : BankSet} {b : LoadedBank}

/-- The names of the banks are different. -/
theorem nodup_names (set : BankSet) : (set.banks.map fun b => b.name).Nodup := by
  have names := (Layout.check_eq_ok_iff.mp set.layout).1
  rw [List.map_map] at names
  exact names

/-- A bank of the set is found by its name, as no other one has it. -/
theorem get?_eq (member : b ∈ set.banks) : set.get? b.name = some b := by
  unfold get?
  cases found : set.banks.find? fun c => c.name = b.name with
  | none =>
    have differ := List.find?_eq_none.mp found b member
    exact absurd (decide_eq_true rfl) differ
  | some c =>
    have named : c.name = b.name := by simpa using List.find?_some found
    have known := List.mem_of_find?_eq_some found
    rw [List.inj_on_of_nodup_map set.nodup_names known member named]

/-- Whether a bank of the set has an image can be told by its name. -/
theorem isAnalyzable_eq (member : b ∈ set.banks) :
    set.isAnalyzable b.name = b.isAnalyzable := by
  unfold isAnalyzable
  rw [get?_eq member]
  rfl

/-- The image of a bank of the set is granted. -/
theorem bytes_eq (member : b ∈ set.banks) {image : Vector UInt8 b.size}
    (known : b.image = some image) : set.bytes b.name = .ok image.toArray := by
  unfold bytes
  rw [get?_eq member, Option.bind_some, known]
  rfl

/-- An offset of a bank is in the bank. -/
theorem checkOffset_eq (b : Bank) {offset : Nat} (inside : offset < b.size) :
    checkOffset b offset = .ok () := by
  have bounds : 0 ≤ (offset : Int) ∧ (offset : Int) < b.size := by omega
  unfold checkOffset
  rw [if_pos bounds]

/-- A byte of a bank with an image is granted. -/
theorem readByte_eq (member : b ∈ set.banks) (analyzable : b.isAnalyzable = true) {offset : Nat}
    (inside : offset < b.size) : set.readByte b.toBank offset = .ok (b.byte offset) := by
  obtain ⟨image, known⟩ := Option.isSome_iff_exists.mp analyzable
  have bound : offset < image.toArray.size := by
    rw [image.size_toArray]
    exact inside
  unfold readByte
  rw [checkOffset_eq b.toBank inside, bytes_eq member known,
    LoadedBank.byte_of_image known inside]
  simp only [bind, Except.bind, Int.toNat_natCast, Array.getElem?_eq_getElem bound]
  rfl

/-- A stretch of a bank with an image is granted, up to the end of the bank. -/
theorem read_eq {l : Location} (member : l.bank ∈ set.banks)
    (analyzable : l.bank.isAnalyzable = true) (count : Nat) :
    (set.read l.bank.toBank l.offset count).map Array.toList = .ok (l.bytes count) := by
  obtain ⟨image, known⟩ := Option.isSome_iff_exists.mp analyzable
  have size : image.toArray.size = l.bank.size := image.size_toArray
  have first : Slice.position image.toArray.size l.offset = l.offset :=
    Slice.position_of_le (by omega)
  have last : Slice.position image.toArray.size ((l.offset : Int) + count) =
      min (l.offset + count) image.toArray.size := by
    unfold Slice.position
    rw [if_neg (by omega)]
    omega
  have granted : set.read l.bank.toBank l.offset count =
      .ok (Slice.between image.toArray l.offset (l.offset + count)) := by
    unfold read
    rw [checkOffset_eq l.bank.toBank l.offset.isLt, bytes_eq member known]
    rfl
  have seen : l.bytes count = (image.toArray.extract l.offset (l.offset + count)).toList := by
    unfold Location.bytes
    rw [known]
  have ends : image.toArray.extract l.offset (min (l.offset + count) image.toArray.size) =
      image.toArray.extract l.offset (l.offset + count) := by
    rw [Array.extract_eq_extract_right]
    omega
  rw [granted, seen]
  unfold Slice.between
  rw [first, last, ends]
  rfl

end

/-- The position of a location in the log is granted. -/
theorem logPosition_eq (l : Location) :
    logPosition l.bank.toBank l.offset = .ok (l.position.file, l.position.offset) := by
  unfold logPosition
  rw [checkOffset_eq l.bank.toBank l.offset.isLt]
  rfl

end BankSet

end BankTrace
