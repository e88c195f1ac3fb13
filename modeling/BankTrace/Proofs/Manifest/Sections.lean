import BankTrace.Proofs.Manifest.Keys

/-!
# Regions, banks and settings of a document

Which tables declare a region or a bank and which tables hold settings, what is declared, and what
else can happen when they are read.
-/

namespace BankTrace

namespace Toml.Table

/-- A table gives a first address and a number of addresses. -/
structure Spans (t : Table) (start size : Int) : Prop where
  /-- The first address is an integer. -/
  start : t.get? "start" = some (.integer start)
  /-- The number of addresses is an integer. -/
  size : t.get? "len" = some (.integer size)

/-- A stretch is given only once. -/
theorem Spans.unique {t : Table} {start size start' size' : Int} (spans : t.Spans start size)
    (again : t.Spans start' size') : start = start' ∧ size = size' := by
  have starts := spans.start.symm.trans again.start
  have sizes := spans.size.symm.trans again.size
  exact ⟨Value.integer.inj (Option.some.inj starts), Value.integer.inj (Option.some.inj sizes)⟩

end Toml.Table

/-- A region has the bounds and the permission that it is made with. -/
theorem Region.ofBounds_eq_ok_iff {start size : Int} {permission : Permission} {r : Region} :
    ofBounds start size permission = .ok r ↔
      start = r.start ∧ size = r.size ∧ permission = r.permission := by
  unfold ofBounds addressCount
  constructor
  · intro made
    split at made <;> try contradiction
    split at made <;> try contradiction
    split at made <;> try contradiction
    obtain rfl := Except.ok.inj made
    exact ⟨by dsimp only; omega, by dsimp only; omega, rfl⟩
  · rintro ⟨rfl, rfl, rfl⟩
    have positive := r.size_pos
    have fits : r.start + r.size ≤ 0x10000 := r.end_le
    rw [dif_pos (by omega), dif_pos (by omega), dif_pos (by omega)]
    rfl

/-- What a bank is declared to be. -/
def Bank.declaration (b : Bank) : Declaration where
  name := b.name
  start := b.start
  size := b.size
  file := b.file
  cdl := b.cdl
  fileOffset := b.fileOffset
  cdlOffset := b.cdlOffset
  fixed := b.fixed

/-- A bank is made from what it is declared to be and from nothing else. -/
theorem Bank.ofDeclaration_eq_ok_iff {d : Declaration} {b : Bank} :
    ofDeclaration d = .ok b ↔ d = b.declaration := by
  unfold ofDeclaration
  constructor
  · intro made
    split at made <;> try contradiction
    split at made <;> try contradiction
    split at made <;> try contradiction
    split at made <;> try contradiction
    split at made <;> try contradiction
    split at made <;> try contradiction
    rename_i power inside _ _ offsets
    obtain rfl := Except.ok.inj made
    have positive := Nat.pos_of_isPowerOfTwo power
    unfold declaration
    dsimp only
    rw [Int.toNat_of_nonneg inside.1, Int.toNat_of_nonneg offsets.1,
      Int.toNat_of_nonneg offsets.2, Int.toNat_of_nonneg (by omega)]
  · rintro rfl
    have fits : b.start + b.size ≤ addressCount := b.end_le
    have positive := b.size_pos
    have named : b.declaration.name ≠ "" := b.name_ne
    have power : b.declaration.size.toNat.isPowerOfTwo := b.size_power
    have inside : 0 ≤ b.declaration.start ∧ b.declaration.start < addressCount :=
      ⟨Int.natCast_nonneg _, Int.ofNat_lt.mpr (by omega)⟩
    have aligned : b.declaration.size.toNat ∣ b.declaration.start.toNat := b.size_dvd
    have ends : b.declaration.start + b.declaration.size ≤ addressCount := Int.ofNat_le.mpr fits
    have offsets : 0 ≤ b.declaration.fileOffset ∧ 0 ≤ b.declaration.cdlOffset :=
      ⟨Int.natCast_nonneg _, Int.natCast_nonneg _⟩
    rw [dif_pos named, dif_pos power, dif_pos inside, dif_pos aligned, dif_pos ends, if_pos offsets]
    rfl

namespace Settings

/-- Replacing one setting leaves the other one alone. -/
def Field.Apart (f g : Field) : Prop :=
  ∀ b s, g.get (f.set b s) = g.get s ∧ f.get (g.set b s) = f.get s

/-- A setting is what it was replaced by. -/
theorem get_set_of_mem : ∀ field ∈ fields, ∀ b s, field.get (field.set b s) = b := by
  simp [fields]

/-- The settings are apart from each other. -/
theorem apart_fields : fields.Pairwise Field.Apart := by
  simp [fields, Field.Apart]

/-- Nothing but the settings is set. -/
theorem eq_of_fields {s s' : Settings} (same : ∀ field ∈ fields, field.get s = field.get s') :
    s = s' := by
  cases s
  cases s'
  simpa [fields] using same

end Settings

namespace Manifest

open Toml (Kind Table Value)

variable {room : Nat} {t : Table}

/-! ## Regions -/

/-- The keys of a region and what they ask for. -/
def regionKinds : List (String × Kind) :=
  [("start", .integer), ("len", .integer), ("readable", .boolean), ("writable", .boolean),
    ("executable", .boolean)]

/-- A table declares a region. -/
structure RegionRules (t : Table) : Prop where
  /-- There are no keys but those of a region, and their values are of their kinds. -/
  fits : t.Fits regionKinds
  /-- The bounds are there, the region is not empty and lies inside the address space. -/
  bounds : ∃ start size, t.Spans start size ∧ 0 ≤ start ∧ 1 ≤ size ∧ start + size ≤ 0x10000

/-- A region is what a table says. -/
structure RegionEntry (t : Table) (r : Region) : Prop where
  /-- The bounds are those of the table. -/
  spans : t.Spans r.start r.size
  /-- Reading is allowed if the table says so. -/
  readable : t.GivenOr "readable" .boolean false r.permission.readable
  /-- Writing is allowed if the table says so. -/
  writable : t.GivenOr "writable" .boolean false r.permission.writable
  /-- Executing is allowed if the table says so. -/
  executable : t.GivenOr "executable" .boolean false r.permission.executable

/-- A region is read from a table that knows no other keys and says what the region is. -/
theorem region_eq_ok_iff {index : Nat} {r : Region} :
    region room t index = .ok r ↔ t.OnlyKeys regionKeys ∧ RegionEntry t r := by
  unfold region
  simp only [bind_eq_ok_iff, checkKeys_eq_ok_iff, integer_eq_ok_iff, boolean_eq_ok_iff,
    mapError_eq_ok_iff, Region.ofBounds_eq_ok_iff]
  constructor
  · rintro ⟨_, known, _, start, _, size, _, readable, _, writable, _, executable, rfl, rfl, same⟩
    refine ⟨known, ⟨start, size⟩, ?_, ?_, ?_⟩ <;> rw [← same]
    · exact readable
    · exact writable
    · exact executable
  · rintro ⟨known, entry⟩
    exact ⟨(), known, _, entry.spans.start, _, entry.spans.size, _, entry.readable, _,
      entry.writable, _, entry.executable, rfl, rfl, rfl⟩

/-- A region is read from exactly the tables that keep the rules. -/
theorem exists_region_iff {index : Nat} :
    (∃ r, region room t index = .ok r) ↔ RegionRules t := by
  simp only [region_eq_ok_iff]
  constructor
  · rintro ⟨r, known, entry⟩
    have positive := r.size_pos
    have fits : r.start + r.size ≤ 0x10000 := r.end_le
    refine ⟨⟨known, ?_⟩, r.start, r.size, entry.spans, by omega, by omega, by omega⟩
    simp only [regionKinds, List.forall_mem_cons]
    exact ⟨Table.suits_of_get? entry.spans.start trivial,
      Table.suits_of_get? entry.spans.size trivial,
      entry.readable.suits fun _ => trivial, entry.writable.suits fun _ => trivial,
      entry.executable.suits fun _ => trivial, List.forall_mem_nil _⟩
  · rintro ⟨⟨known, kinds⟩, start, size, spans, inside, positive, fits⟩
    simp only [regionKinds, List.forall_mem_cons] at kinds
    obtain ⟨_, _, readable, writable, executable, _⟩ := kinds
    obtain ⟨r, readable⟩ := readable.exists_boolean false
    obtain ⟨w, writable⟩ := writable.exists_boolean false
    obtain ⟨x, executable⟩ := executable.exists_boolean false
    lift start to Nat using inside
    lift size to Nat using (by omega)
    exact ⟨⟨start, size, ⟨r, w, x⟩, by omega, show _ ≤ 0x10000 by omega⟩, known,
      ⟨spans, readable, writable, executable⟩⟩

/-- Regions are read from tables that know no other keys and say what the regions are. -/
theorem regions_eq_ok_iff {index : Nat} {tables : List Table} {regions : List Region} :
    readEach (region room) index tables = .ok regions ↔
      (∀ u ∈ tables, u.OnlyKeys regionKeys) ∧ List.Forall₂ RegionEntry tables regions := by
  rw [readEach_eq_ok_iff (@region_eq_ok_iff room), List.forall₂_and_left]

/-- Regions are read from exactly the tables that keep the rules. -/
theorem exists_regions_iff {index : Nat} {tables : List Table} :
    (∃ regions, readEach (region room) index tables = .ok regions) ↔ ∀ u ∈ tables, RegionRules u :=
  exists_readEach_iff (@exists_region_iff room)

/-- Reading a region can go wrong for the values of its keys. -/
theorem failsOnly_region (room : Nat) (t : Table) (index : Nat) :
    FailsOnly (t.Reports room regionKinds) (region room t index) := by
  unfold region
  refine .bind ((failsOnly_checkKeys t _ _).mono fun _ => .inl) fun _ _ => ?_
  refine .bind (failsOnly_integer (by decide)) fun _ _ => ?_
  refine .bind (failsOnly_integer (by decide)) fun _ _ => ?_
  refine .bind (failsOnly_boolean (by decide)) fun _ _ => ?_
  refine .bind (failsOnly_boolean (by decide)) fun _ _ => ?_
  refine .bind (failsOnly_boolean (by decide)) fun _ _ => ?_
  exact (failsOnly_mapError _).mono fun _ => .inl

/-! ## Banks -/

/-- The keys of a bank and what they ask for. -/
def bankKinds : List (String × Kind) :=
  [("name", .string), ("start", .integer), ("len", .integer), ("file", .string),
    ("file_offset", .integer), ("cdl", .string), ("cdl_offset", .integer), ("fixed", .boolean)]

/-- A table declares a bank. -/
structure BankRules (t : Table) : Prop where
  /-- There are no keys but those of a bank, and their values are of their kinds. -/
  fits : t.Fits bankKinds
  /-- The name is there and not empty. -/
  name : ∃ name, t.get? "name" = some (.string name) ∧ name ≠ ""
  /-- The image file is there. -/
  file : ∃ file, t.get? "file" = some (.string file)
  /-- The log file is there. -/
  cdl : ∃ cdl, t.get? "cdl" = some (.string cdl)
  /-- The bounds are there, the length is a power of two that divides the start, and the bank lies
  inside the address space. -/
  bounds : ∃ start size, t.Spans start size ∧ (∃ k, size = Nat.pow 2 k) ∧ size ∣ start ∧
    0 ≤ start ∧ start + size ≤ 0x10000
  /-- The offsets that are there are not negative. -/
  offsets : ∀ key ∈ ["file_offset", "cdl_offset"], ∀ n, t.get? key = some (.integer n) → 0 ≤ n

/-- A bank is what a table says, with paths that start at `base`. -/
structure BankEntry (base : Path) (t : Table) (b : Bank) : Prop where
  /-- The name is that of the table. -/
  name : t.get? "name" = some (.string b.name)
  /-- The bounds are those of the table. -/
  spans : t.Spans b.start b.size
  /-- The image file is that of the table. -/
  file : ∃ file, t.get? "file" = some (.string file) ∧ b.file = base.join (Path.ofString file)
  /-- The log file is that of the table. -/
  cdl : ∃ cdl, t.get? "cdl" = some (.string cdl) ∧ b.cdl = base.join (Path.ofString cdl)
  /-- The image starts where the table says, or at the front. -/
  fileOffset : t.GivenOr "file_offset" .integer 0 b.fileOffset
  /-- The log starts where the table says, or at the front. -/
  cdlOffset : t.GivenOr "cdl_offset" .integer 0 b.cdlOffset
  /-- The bank is fixed if the table says so. -/
  fixed : t.GivenOr "fixed" .boolean false b.fixed

/-- A bank is read from a table that knows no other keys and says what the bank is. -/
theorem bank_eq_ok_iff {base : Path} {index : Nat} {b : Bank} :
    bank room base t index = .ok b ↔ t.OnlyKeys bankKeys ∧ BankEntry base t b := by
  unfold bank
  simp only [bind_eq_ok_iff, checkKeys_eq_ok_iff, text_eq_ok_iff, integer_eq_ok_iff,
    integerOrZero_eq_ok_iff, boolean_eq_ok_iff, mapError_eq_ok_iff, Bank.ofDeclaration_eq_ok_iff]
  constructor
  · rintro ⟨_, known, _, name, _, start, _, size, file, fileGiven, cdl, cdlGiven, _, fileOffset, _,
      cdlOffset, _, fixed, same⟩
    obtain ⟨rfl, rfl, rfl, named, logged, rfl, rfl, rfl⟩ := Bank.Declaration.mk.inj same
    exact ⟨known, name, ⟨start, size⟩, ⟨file, fileGiven, named.symm⟩, ⟨cdl, cdlGiven, logged.symm⟩,
      fileOffset, cdlOffset, fixed⟩
  · rintro ⟨known, entry⟩
    obtain ⟨file, fileGiven, named⟩ := entry.file
    obtain ⟨cdl, cdlGiven, logged⟩ := entry.cdl
    refine ⟨(), known, _, entry.name, _, entry.spans.start, _, entry.spans.size, file, fileGiven,
      cdl, cdlGiven, _, entry.fileOffset, _, entry.cdlOffset, _, entry.fixed, ?_⟩
    rw [← named, ← logged]
    rfl

/-- A bank is read from exactly the tables that keep the rules. -/
theorem exists_bank_iff {base : Path} {index : Nat} :
    (∃ b, bank room base t index = .ok b) ↔ BankRules t := by
  simp only [bank_eq_ok_iff]
  constructor
  · rintro ⟨b, known, entry⟩
    obtain ⟨file, fileGiven, _⟩ := entry.file
    obtain ⟨cdl, cdlGiven, _⟩ := entry.cdl
    obtain ⟨k, power⟩ := b.size_power
    have fits : b.start + b.size ≤ 0x10000 := b.end_le
    refine ⟨⟨known, ?_⟩, ⟨b.name, entry.name, b.name_ne⟩, ⟨file, fileGiven⟩, ⟨cdl, cdlGiven⟩,
      ⟨b.start, b.size, entry.spans, ⟨k, congrArg Nat.cast power⟩,
        Int.natCast_dvd_natCast.mpr b.size_dvd, by omega, by omega⟩, ?_⟩
    · simp only [bankKinds, List.forall_mem_cons]
      exact ⟨Table.suits_of_get? entry.name trivial, Table.suits_of_get? entry.spans.start trivial,
        Table.suits_of_get? entry.spans.size trivial, Table.suits_of_get? fileGiven trivial,
        entry.fileOffset.suits fun _ => trivial, Table.suits_of_get? cdlGiven trivial,
        entry.cdlOffset.suits fun _ => trivial, entry.fixed.suits fun _ => trivial,
        List.forall_mem_nil _⟩
    · simp only [List.forall_mem_cons]
      exact ⟨fun n given => entry.fileOffset.natCast_nonneg given,
        fun n given => entry.cdlOffset.natCast_nonneg given, List.forall_mem_nil _⟩
  · rintro ⟨⟨known, kinds⟩, ⟨name, nameGiven, named⟩, ⟨file, fileGiven⟩, ⟨cdl, cdlGiven⟩,
      ⟨start, size, spans, ⟨k, power⟩, aligned, inside, fits⟩, offsets⟩
    simp only [bankKinds, List.forall_mem_cons] at kinds
    simp only [List.forall_mem_cons] at offsets
    obtain ⟨_, _, _, _, fileOffset, _, cdlOffset, fixed, _⟩ := kinds
    obtain ⟨fileInside, cdlInside, _⟩ := offsets
    obtain ⟨fileOffset, fileOffsetGiven⟩ := fileOffset.exists_natCast fileInside
    obtain ⟨cdlOffset, cdlOffsetGiven⟩ := cdlOffset.exists_natCast cdlInside
    obtain ⟨fixed, fixedGiven⟩ := fixed.exists_boolean false
    have positive : 0 < size := power ▸ Int.natCast_pos.mpr (Nat.two_pow_pos k)
    lift start to Nat using inside
    lift size to Nat using (by omega)
    exact ⟨{
      name, start, size, fileOffset, cdlOffset, fixed
      file := base.join (Path.ofString file)
      cdl := base.join (Path.ofString cdl)
      name_ne := named
      size_power := ⟨k, Int.ofNat.inj power⟩
      size_dvd := Int.natCast_dvd_natCast.mp aligned
      end_le := show _ ≤ 0x10000 by omega }, known,
      ⟨nameGiven, spans, ⟨file, fileGiven, rfl⟩, ⟨cdl, cdlGiven, rfl⟩, fileOffsetGiven,
        cdlOffsetGiven, fixedGiven⟩⟩

/-- Banks are read from tables that know no other keys and say what the banks are. -/
theorem banks_eq_ok_iff {base : Path} {index : Nat} {tables : List Table} {banks : List Bank} :
    readEach (bank room base) index tables = .ok banks ↔
      (∀ u ∈ tables, u.OnlyKeys bankKeys) ∧ List.Forall₂ (BankEntry base) tables banks := by
  rw [readEach_eq_ok_iff fun u => @bank_eq_ok_iff room u base, List.forall₂_and_left]

/-- Banks are read from exactly the tables that keep the rules. -/
theorem exists_banks_iff {base : Path} {index : Nat} {tables : List Table} :
    (∃ banks, readEach (bank room base) index tables = .ok banks) ↔ ∀ u ∈ tables, BankRules u :=
  exists_readEach_iff fun u => @exists_bank_iff room u base

/-- Reading a bank can go wrong for the values of its keys. -/
theorem failsOnly_bank (room : Nat) (base : Path) (t : Table) (index : Nat) :
    FailsOnly (t.Reports room bankKinds) (bank room base t index) := by
  unfold bank
  refine .bind ((failsOnly_checkKeys t _ _).mono fun _ => .inl) fun _ _ => ?_
  refine .bind (failsOnly_text (by decide)) fun _ _ => ?_
  refine .bind (failsOnly_integer (by decide)) fun _ _ => ?_
  refine .bind (failsOnly_integer (by decide)) fun _ _ => ?_
  refine .bind (failsOnly_text (by decide)) fun _ _ => ?_
  refine .bind (failsOnly_text (by decide)) fun _ _ => ?_
  refine .bind (failsOnly_integerOrZero (by decide)) fun _ _ => ?_
  refine .bind (failsOnly_integerOrZero (by decide)) fun _ _ => ?_
  refine .bind (failsOnly_boolean (by decide)) fun _ _ => ?_
  exact (failsOnly_mapError _).mono fun _ => .inl

/-! ## Settings -/

/-- The keys of the settings, all of which ask for truth values. -/
def settingKinds : List (String × Kind) := Settings.fields.map fun field => (field.key, .boolean)

/-- The table of the settings in a document, which is empty where it is left out. -/
def HasAnalysis (t analysis : Table) : Prop :=
  ∃ config : Table, t.GivenOr "config" .table [] config ∧ config.OnlyKeys ["analysis"] ∧
    config.GivenOr "analysis" .table [] analysis

/-- A setting is what a table says, and what it was if the table does not say. -/
def Settled (analysis : Table) (before after : Settings) (field : Settings.Field) : Prop :=
  analysis.GivenOr field.key .boolean (field.get before) (field.get after)

section

variable {analysis : Table} {before after : Settings} {fields : List Settings.Field}

/-- Settings are read from a table that has truth values for them. -/
theorem exists_readSettings_iff : (∃ after, readSettings room analysis before fields = .ok after) ↔
    ∀ field ∈ fields, analysis.Suits field.key .boolean := by
  induction fields generalizing before with
  | nil => simp [readSettings]
  | cons field rest ih =>
    unfold readSettings
    rw [List.forall_mem_cons]
    constructor
    · rintro ⟨after, read⟩
      obtain ⟨b, given, read⟩ := bind_eq_ok_iff.mp read
      exact ⟨(boolean_eq_ok_iff.mp given).suits fun _ => trivial, ih.mp ⟨after, read⟩⟩
    · rintro ⟨suits, others⟩
      obtain ⟨b, given⟩ := suits.exists_boolean (field.get before)
      obtain ⟨after, read⟩ := ih.mpr others
      exact ⟨after, bind_eq_ok_iff.mpr ⟨b, boolean_eq_ok_iff.mpr given, read⟩⟩

/-- What is apart from all settings that are read stays as it is. -/
theorem readSettings_of_apart {field : Settings.Field} (apart : ∀ g ∈ fields, field.Apart g)
    (read : readSettings room analysis before fields = .ok after) :
    field.get after = field.get before := by
  induction fields generalizing before with
  | nil =>
    obtain rfl := Except.ok.inj read
    rfl
  | cons g rest ih =>
    obtain ⟨b, _, read⟩ := bind_eq_ok_iff.mp read
    rw [ih (fun h member => apart h (List.mem_cons_of_mem g member)) read]
    exact (apart g List.mem_cons_self b before).2

/-- Every setting that is read is what the table says. -/
theorem settled_of_readSettings
    (lawful : ∀ field ∈ fields, ∀ b s, field.get (field.set b s) = b)
    (apart : fields.Pairwise Settings.Field.Apart)
    (read : readSettings room analysis before fields = .ok after) :
    ∀ field ∈ fields, Settled analysis before after field := by
  induction fields generalizing before with
  | nil => exact List.forall_mem_nil _
  | cons field rest ih =>
    obtain ⟨b, given, read⟩ := bind_eq_ok_iff.mp read
    obtain ⟨first, others⟩ := List.pairwise_cons.mp apart
    obtain ⟨law, laws⟩ := List.forall_mem_cons.mp lawful
    have settled := ih laws others read
    refine List.forall_mem_cons.mpr ⟨?_, fun g member => ?_⟩
    · unfold Settled
      rw [readSettings_of_apart first read, law]
      exact boolean_eq_ok_iff.mp given
    · have kept := (first g member b before).1
      have later := settled g member
      unfold Settled at later ⊢
      rwa [kept] at later

end

/-- The settings of a document are in the table of the settings, which has truth values and no other
keys. -/
def SettingsRules (t : Table) : Prop :=
  ∃ analysis, HasAnalysis t analysis ∧ analysis.Fits settingKinds

/-- Every setting is what the table of the settings says, or its default. -/
def SettingsEntry (t : Table) (settings : Settings) : Prop :=
  ∃ analysis, HasAnalysis t analysis ∧
    ∀ field ∈ Settings.fields, Settled analysis {} settings field

/-- There is one table of the settings. -/
theorem HasAnalysis.unique {analysis analysis' : Table} (has : HasAnalysis t analysis)
    (again : HasAnalysis t analysis') : analysis = analysis' := by
  obtain ⟨config, configGiven, _, given⟩ := has
  obtain ⟨config', configGiven', _, given'⟩ := again
  have distinct : Function.Injective Value.table := fun _ _ => Value.table.inj
  obtain rfl := configGiven.unique distinct configGiven'
  exact given.unique distinct given'

/-- The settings of a document are one thing. -/
theorem SettingsEntry.unique {settings settings' : Settings} (entry : SettingsEntry t settings)
    (again : SettingsEntry t settings') : settings = settings' := by
  obtain ⟨analysis, has, settled⟩ := entry
  obtain ⟨analysis', has', settled'⟩ := again
  obtain rfl := has.unique has'
  refine Settings.eq_of_fields fun field member => ?_
  exact (settled field member).unique (fun _ _ => Value.boolean.inj) (settled' field member)

/-- A table fits the settings when it has no other keys and truth values for those. -/
theorem fits_settingKinds_iff {analysis : Table} : analysis.Fits settingKinds ↔
    analysis.OnlyKeys (Settings.fields.map Settings.Field.key) ∧
      ∀ field ∈ Settings.fields, analysis.Suits field.key .boolean := by
  have keys : settingKinds.map Prod.fst = Settings.fields.map Settings.Field.key := List.map_map
  have kinds : (∀ asked ∈ settingKinds, analysis.Suits asked.1 asked.2) ↔
      ∀ field ∈ Settings.fields, analysis.Suits field.key .boolean := List.forall_mem_map
  rw [← keys, ← kinds]
  exact ⟨fun ⟨known, kinds⟩ => ⟨known, kinds⟩, fun ⟨known, kinds⟩ => ⟨known, kinds⟩⟩

/-- Settings that are read keep the rules and are what their table says. -/
theorem entry_of_settingsOf {settings : Settings} (read : settingsOf room t = .ok settings) :
    SettingsRules t ∧ SettingsEntry t settings := by
  unfold settingsOf at read
  simp only [bind_eq_ok_iff, table_eq_ok_iff, checkKeys_eq_ok_iff] at read
  obtain ⟨config, configGiven, _, known, analysis, given, _, keys, read⟩ := read
  have has : HasAnalysis t analysis := ⟨config, configGiven, known, given⟩
  have suits := exists_readSettings_iff.mp ⟨settings, read⟩
  exact ⟨⟨analysis, has, fits_settingKinds_iff.mpr ⟨keys, suits⟩⟩, analysis, has,
    settled_of_readSettings Settings.get_set_of_mem Settings.apart_fields read⟩

/-- Settings are read from exactly the documents that keep the rules. -/
theorem exists_settingsOf_iff :
    (∃ settings, settingsOf room t = .ok settings) ↔ SettingsRules t := by
  refine ⟨fun ⟨_, read⟩ => (entry_of_settingsOf read).1, ?_⟩
  rintro ⟨analysis, ⟨config, configGiven, known, given⟩, fits⟩
  obtain ⟨keys, suits⟩ := fits_settingKinds_iff.mp fits
  obtain ⟨settings, read⟩ := exists_readSettings_iff.mpr suits
  refine ⟨settings, ?_⟩
  unfold settingsOf
  simp only [bind_eq_ok_iff, table_eq_ok_iff, checkKeys_eq_ok_iff]
  exact ⟨config, configGiven, (), known, analysis, given, (), keys, read⟩

/-- Settings are read where the rules are kept, and are what their table says. -/
theorem settingsOf_eq_ok_iff {settings : Settings} :
    settingsOf room t = .ok settings ↔ SettingsRules t ∧ SettingsEntry t settings := by
  refine ⟨entry_of_settingsOf, ?_⟩
  rintro ⟨rules, entry⟩
  obtain ⟨other, read⟩ := exists_settingsOf_iff.mpr rules
  rwa [entry.unique (entry_of_settingsOf read).2]

/-- Reading the keys of settings can go wrong for their values. -/
theorem failsOnly_readSettings {fields : List Settings.Field} {kinds : List (String × Kind)}
    (asked : ∀ field ∈ fields, (field.key, Kind.boolean) ∈ kinds) (settings : Settings) :
    FailsOnly (t.Reports room kinds) (readSettings room t settings fields) := by
  induction fields generalizing settings with
  | nil => exact .ok settings
  | cons field rest ih =>
    obtain ⟨first, others⟩ := List.forall_mem_cons.mp asked
    exact (failsOnly_boolean first).bind fun b _ => ih others (field.set b settings)

/-- Reading settings can go wrong for the values of the keys of their table. -/
theorem failsOnly_settingsOf (room : Nat) (t : Table) :
    FailsOnly (fun e => e.IsConfig ∨ ∃ analysis, HasAnalysis t analysis ∧
      analysis.Unshown room settingKinds e) (settingsOf room t) := by
  unfold settingsOf
  refine .bind ((failsOnly_table _ _ _).mono fun _ => .inl) fun config configRead => ?_
  refine .bind ((failsOnly_checkKeys _ _ _).mono fun _ => .inl) fun _ known => ?_
  refine .bind ((failsOnly_table _ _ _).mono fun _ => .inl) fun analysis read => ?_
  refine .bind ((failsOnly_checkKeys _ _ _).mono fun _ => .inl) fun _ _ => ?_
  have has : HasAnalysis t analysis := ⟨config, table_eq_ok_iff.mp configRead,
    checkKeys_eq_ok_iff.mp known, table_eq_ok_iff.mp read⟩
  have asked : ∀ field ∈ Settings.fields, (field.key, Kind.boolean) ∈ settingKinds :=
    fun field member => List.mem_map_of_mem member
  exact (failsOnly_readSettings asked {}).mono fun _ reports =>
    reports.imp_right fun unshown => ⟨analysis, has, unshown⟩

end Manifest

end BankTrace
