import Mathlib.Data.List.Nodup
import BankTrace.Proofs.Manifest.Sections

/-!
# The schema of manifests

A document declares a manifest when its tables keep the rules of regions, banks and settings, there
is a bank, every name stands for one bank, and no fixed bank shares an address with another bank.
Then the manifest is what the document says, in its order. Any other document is a configuration
error, unless a value of the wrong kind would have to be shown in it and cannot be.
-/

namespace BankTrace

namespace Toml.Table

/-- An address lies in the stretch that a table gives. -/
def Covers (t : Table) (addr : Int) : Prop :=
  ∃ start size, t.Spans start size ∧ start ≤ addr ∧ addr < start + size

/-- Two tables can declare banks beside each other: if one of them is fixed, they have no address in
common. -/
def Beside (t u : Table) : Prop :=
  t.get? "fixed" = some (.boolean true) ∨ u.get? "fixed" = some (.boolean true) →
    ∀ addr, ¬(t.Covers addr ∧ u.Covers addr)

end Toml.Table

namespace Manifest

open Toml (Kind Table Value)

/-- A document declares a manifest. -/
structure Schema (t : Table) : Prop where
  /-- There are regions, banks and a configuration, and nothing else. -/
  known : t.OnlyKeys ["memory", "banks", "config"]
  /-- The regions are tables that keep the rules of regions. -/
  regions : ∃ tables, t.Lists "memory" tables ∧ ∀ u ∈ tables, RegionRules u
  /-- The banks are tables that keep the rules of banks; there is one, no two have one name, and a
  fixed one is apart from the others. -/
  banks : ∃ tables, t.Lists "banks" tables ∧ tables ≠ [] ∧ (∀ u ∈ tables, BankRules u) ∧
    (tables.map fun u => u.get? "name").Nodup ∧ tables.Pairwise Table.Beside
  /-- The settings keep their rules. -/
  settings : SettingsRules t

/-- A manifest is what a document says, with paths that start at `base`. -/
structure Carries (base : Path) (t : Table) (m : Manifest) : Prop where
  /-- The regions are those of the document in its order. -/
  regions : ∃ tables, t.Lists "memory" tables ∧ List.Forall₂ RegionEntry tables m.regions
  /-- The banks are those of the document in its order. -/
  banks : ∃ tables, t.Lists "banks" tables ∧ List.Forall₂ (BankEntry base) tables m.banks
  /-- The settings are those of the document. -/
  settings : SettingsEntry t m.settings

/-- The tables of a document that hold values of given kinds. -/
inductive HasSection (t : Table) : Table → List (String × Kind) → Prop
  /-- The table of a region. -/
  | region {tables : List Table} {u : Table} (listed : t.Lists "memory" tables)
      (member : u ∈ tables) : HasSection t u regionKinds
  /-- The table of a bank. -/
  | bank {tables : List Table} {u : Table} (listed : t.Lists "banks" tables)
      (member : u ∈ tables) : HasSection t u bankKinds
  /-- The table of the settings. -/
  | settings {analysis : Table} (has : HasAnalysis t analysis) : HasSection t analysis settingKinds

variable {room : Nat} {base : Path} {t u : Table}

/-! ## The layout of the banks -/

section

variable {a b : Bank} {tables : List Table} {banks : List Bank}

/-- A bank is fixed where its table says so. -/
theorem BankEntry.fixed_iff (entry : BankEntry base t a) :
    t.get? "fixed" = some (.boolean true) ↔ a.fixed = true := by
  constructor
  · intro found
    exact entry.fixed.unique (fun _ _ => Value.boolean.inj) (.inl found)
  · intro fixed
    rcases entry.fixed with found | ⟨_, unfixed⟩
    · rwa [fixed] at found
    · rw [fixed] at unfixed
      contradiction

/-- A bank has the addresses that its table gives. -/
theorem BankEntry.covers_iff (entry : BankEntry base t a) {addr : Int} :
    t.Covers addr ↔ a.contains addr = true := by
  rw [Bank.contains_iff]
  unfold Bank.endAddress
  constructor
  · rintro ⟨start, size, spans, low, high⟩
    obtain ⟨rfl, rfl⟩ := spans.unique entry.spans
    omega
  · rintro ⟨low, high⟩
    exact ⟨a.start, a.size, entry.spans, low, by omega⟩

/-- Tables can stand beside each other when their banks can be declared together. -/
theorem beside_iff (entry : BankEntry base t a) (other : BankEntry base u b) :
    t.Beside u ↔ Layout.compatible a b = true := by
  have apart : (∀ addr, ¬(t.Covers addr ∧ u.Covers addr)) ↔ a.overlaps b = false := by
    rw [← Bool.not_eq_true, Bank.overlaps_iff_exists, not_exists]
    exact forall_congr' fun addr => by rw [entry.covers_iff, other.covers_iff]
  unfold Table.Beside Layout.compatible
  rw [entry.fixed_iff, other.fixed_iff, apart]
  cases a.fixed <;> cases b.fixed <;> simp

/-- The tables name what the banks are named. -/
theorem map_name_eq (entries : List.Forall₂ (BankEntry base) tables banks) :
    (tables.map fun u => u.get? "name") = banks.map fun b => some (Value.string b.name) := by
  induction entries with
  | nil => rfl
  | cons entry _ ih => rw [List.map_cons, List.map_cons, entry.name, ih]

/-- Related lists have all elements of a sort when one of them has. -/
theorem forall_mem_iff {α β : Type} {R : α → β → Prop} {P : α → Prop} {Q : β → Prop}
    {list : List α} {others : List β} (related : List.Forall₂ R list others)
    (same : ∀ x y, R x y → (P x ↔ Q y)) : (∀ x ∈ list, P x) ↔ ∀ y ∈ others, Q y := by
  induction related with
  | nil => simp
  | cons first _ ih => rw [List.forall_mem_cons, List.forall_mem_cons, same _ _ first, ih]

/-- The tables stand beside each other when the banks can be declared together. -/
theorem pairwise_beside_iff (entries : List.Forall₂ (BankEntry base) tables banks) :
    tables.Pairwise Table.Beside ↔ banks.Pairwise fun a b => Layout.compatible a b = true := by
  induction entries with
  | nil => simp
  | cons entry rest ih =>
    rw [List.pairwise_cons, List.pairwise_cons, ih]
    exact and_congr_left fun _ => forall_mem_iff rest fun _ _ other => beside_iff entry other

/-- The rules of the layout as the tables have them. -/
theorem layout_iff (entries : List.Forall₂ (BankEntry base) tables banks) :
    Layout.check banks = .ok () ↔
      (tables.map fun u => u.get? "name").Nodup ∧ tables.Pairwise Table.Beside := by
  have distinct : Function.Injective fun name => some (Value.string name) :=
    fun _ _ same => Value.string.inj (Option.some.inj same)
  have names : (tables.map fun u => u.get? "name") =
      (banks.map Bank.name).map fun name => some (Value.string name) := by
    rw [map_name_eq entries, List.map_map]
    rfl
  rw [Layout.check_eq_ok_iff, names, List.nodup_map_iff distinct, pairwise_beside_iff entries]

end

/-! ## Documents -/

/-- A manifest is read by reading its regions, its banks and its settings. -/
theorem ofDocument_eq_ok_iff_sections {m : Manifest} :
    ofDocument room base t = .ok m ↔ t.OnlyKeys ["memory", "banks", "config"] ∧
      (∃ tables, t.Lists "memory" tables ∧ readEach (region room) 0 tables = .ok m.regions) ∧
      (∃ tables, t.Lists "banks" tables ∧ readEach (bank room base) 0 tables = .ok m.banks) ∧
      settingsOf room t = .ok m.settings := by
  unfold ofDocument
  simp only [bind_eq_ok_iff, checkKeys_eq_ok_iff, tables_eq_ok_iff]
  constructor
  · rintro ⟨_, known, regionTables, regionsListed, regions, regionsRead, bankTables, banksListed,
      banks, banksRead, made⟩
    split at made <;> try contradiction
    split at made <;> try contradiction
    obtain ⟨settings, settingsRead, made⟩ := bind_eq_ok_iff.mp made
    obtain rfl := Except.ok.inj made
    exact ⟨known, ⟨regionTables, regionsListed, regionsRead⟩, ⟨bankTables, banksListed, banksRead⟩,
      settingsRead⟩
  · rintro ⟨known, ⟨regionTables, regionsListed, regionsRead⟩,
      ⟨bankTables, banksListed, banksRead⟩, settingsRead⟩
    refine ⟨(), known, regionTables, regionsListed, m.regions, regionsRead, bankTables, banksListed,
      m.banks, banksRead, ?_⟩
    rw [dif_pos m.banks_ne]
    split
    · rename_i broken
      rw [m.layout] at broken
      contradiction
    · exact bind_eq_ok_iff.mpr ⟨m.settings, settingsRead, rfl⟩

/-- A manifest is read from a document that keeps the schema and says what the manifest is. -/
theorem ofDocument_eq_ok_iff {m : Manifest} :
    ofDocument room base t = .ok m ↔ Schema t ∧ Carries base t m := by
  rw [ofDocument_eq_ok_iff_sections, settingsOf_eq_ok_iff]
  constructor
  · rintro ⟨known, ⟨regionTables, regionsListed, regionsRead⟩,
      ⟨bankTables, banksListed, banksRead⟩, settingsRules, settings⟩
    have regionRules := exists_regions_iff.mp ⟨_, regionsRead⟩
    have bankRules := exists_banks_iff.mp ⟨_, banksRead⟩
    have regions := (regions_eq_ok_iff.mp regionsRead).2
    have banks := (banks_eq_ok_iff.mp banksRead).2
    have filled : bankTables ≠ [] := by
      rintro rfl
      exact m.banks_ne (List.forall₂_nil_left_iff.mp banks)
    exact ⟨⟨known, ⟨regionTables, regionsListed, regionRules⟩,
      ⟨bankTables, banksListed, filled, bankRules, (layout_iff banks).mp m.layout⟩, settingsRules⟩,
      ⟨regionTables, regionsListed, regions⟩, ⟨bankTables, banksListed, banks⟩, settings⟩
  · rintro ⟨schema, ⟨regionTables, regionsListed, regions⟩, ⟨bankTables, banksListed, banks⟩,
      settings⟩
    obtain ⟨regionTables', regionsListed', regionRules⟩ := schema.regions
    obtain ⟨bankTables', banksListed', _, bankRules, _⟩ := schema.banks
    obtain rfl := regionsListed.unique regionsListed'
    obtain rfl := banksListed.unique banksListed'
    have regionsRead : readEach (region room) 0 regionTables = .ok m.regions :=
      regions_eq_ok_iff.mpr ⟨fun u member => (regionRules u member).fits.known, regions⟩
    have banksRead : readEach (bank room base) 0 bankTables = .ok m.banks :=
      banks_eq_ok_iff.mpr ⟨fun u member => (bankRules u member).fits.known, banks⟩
    exact ⟨schema.known, ⟨regionTables, regionsListed, regionsRead⟩,
      ⟨bankTables, banksListed, banksRead⟩, schema.settings, settings⟩

/-- Every document that keeps the schema declares a manifest. -/
theorem exists_ofDocument (room : Nat) (base : Path) (schema : Schema t) :
    ∃ m, ofDocument room base t = .ok m := by
  obtain ⟨regionTables, regionsListed, regionRules⟩ := schema.regions
  obtain ⟨bankTables, banksListed, filled, bankRules, layout⟩ := schema.banks
  obtain ⟨settings, settingsRead⟩ := exists_settingsOf_iff.mpr schema.settings
  obtain ⟨regions, regionsRead⟩ := exists_regions_iff.mpr regionRules
  obtain ⟨banks, banksRead⟩ := exists_banks_iff.mpr bankRules
  have entries := (banks_eq_ok_iff.mp banksRead).2
  have banks_ne : banks ≠ [] := by
    rintro rfl
    exact filled (List.forall₂_nil_right_iff.mp entries)
  exact ⟨⟨regions, banks, settings, banks_ne, (layout_iff entries).mpr layout⟩,
    ofDocument_eq_ok_iff_sections.mpr ⟨schema.known, ⟨regionTables, regionsListed, regionsRead⟩,
      ⟨bankTables, banksListed, banksRead⟩, settingsRead⟩⟩

/-- Reading a document can go wrong for the values in its sections. -/
theorem failsOnly_ofDocument (room : Nat) (base : Path) (t : Table) :
    FailsOnly (fun e => e.IsConfig ∨ ∃ u kinds, HasSection t u kinds ∧ u.Unshown room kinds e)
      (ofDocument room base t) := by
  unfold ofDocument
  refine .bind ((failsOnly_checkKeys _ _ _).mono fun _ => .inl) fun _ _ => ?_
  refine .bind ((failsOnly_tables _ _).mono fun _ => .inl) fun regionTables regionsListed => ?_
  refine .bind (failsOnly_readEach (fun u member index => ?_) 0) fun _ _ => ?_
  · exact (failsOnly_region room u index).mono fun _ reports => reports.imp_right fun unshown =>
      ⟨u, _, .region (tables_eq_ok_iff.mp regionsListed) member, unshown⟩
  refine .bind ((failsOnly_tables _ _).mono fun _ => .inl) fun bankTables banksListed => ?_
  refine .bind (failsOnly_readEach (fun u member index => ?_) 0) fun _ _ => ?_
  · exact (failsOnly_bank room base u index).mono fun _ reports => reports.imp_right fun unshown =>
      ⟨u, _, .bank (tables_eq_ok_iff.mp banksListed) member, unshown⟩
  split
  · split
    · exact .error (.inl ⟨_, rfl⟩)
    · refine .bind ((failsOnly_settingsOf room t).mono fun _ => ?_) fun _ _ => .ok _
      exact Or.imp_right fun ⟨analysis, has, unshown⟩ => ⟨analysis, _, .settings has, unshown⟩
  · exact .error (.inl ⟨_, rfl⟩)

/-- Exactly the documents of the schema declare a manifest, which is what the document says. Any
other document is a configuration error, or has a value of the wrong kind that cannot be shown. -/
theorem ofDocument_exact (platform : Platform) (base : Path) (t : Table) :
    ((∃ m, ofDocument platform.room base t = .ok m) ↔ Schema t) ∧
      (∀ m, ofDocument platform.room base t = .ok m ↔ Schema t ∧ Carries base t m) ∧
      (∀ e, ofDocument platform.room base t = .error e →
        e.IsConfig ∨ ∃ u kinds, HasSection t u kinds ∧ u.Unshown platform.room kinds e) ∧
      ∀ s, Toml.parse platform.levels s = .ok t →
        parse platform base s = ofDocument platform.room base t := by
  refine ⟨⟨fun ⟨_, read⟩ => (ofDocument_eq_ok_iff.mp read).1, exists_ofDocument _ base⟩,
    fun m => ofDocument_eq_ok_iff, failsOnly_ofDocument _ base t, fun s written => ?_⟩
  unfold parse
  rw [written]

/-- A document that names its one bank by an integer. -/
def numbered (n : Int) : Table := [("banks", .array [.table [("name", .integer n)]])]

/-- A name that is an integer is shown where it is refused. -/
theorem ofDocument_numbered (room : Nat) (base : Path) (n : Int) :
    ofDocument room base (numbered n) =
      .error (wrongKind room (.integer n) (.notString (element "banks" 0) "name")) := rfl

/-- The first integer that has more decimal digits than are written. -/
def longInteger : Int := (Nat.pow 10 Integer.digitLimit : Nat)

/-- The integer names no bank, but for want of its text this is no configuration error, however many
values a message may show inside each other. -/
theorem ofDocument_longInteger : ¬Schema (numbered longInteger) ∧
    ∀ room, ∃ e, ofDocument room ⟨.relative, []⟩ (numbered longInteger) = .error e ∧
      ¬e.IsConfig := by
  have long : ¬longInteger.natAbs < Nat.pow 10 Integer.digitLimit := by
    rw [longInteger, Int.natAbs_natCast]
    exact Nat.lt_irrefl _
  have unshown : ∀ room, ∃ fault, (Value.integer longInteger).showFault? room = some fault := by
    intro room
    cases room with
    | zero => exact ⟨.tooDeep, by rw [Value.showFault?]⟩
    | succ room => exact ⟨.tooLong, by rw [Value.showFault?, if_neg long]⟩
  have fails : ∀ room, ∃ e, ofDocument room ⟨.relative, []⟩ (numbered longInteger) = .error e ∧
      ¬e.IsConfig := by
    intro room
    obtain ⟨fault, hidden⟩ := unshown room
    rw [ofDocument_numbered, wrongKind, hidden]
    cases fault with
    | tooDeep => exact ⟨_, rfl, fun ⟨_, same⟩ => nomatch same⟩
    | tooLong => exact ⟨_, rfl, fun ⟨_, same⟩ => nomatch same⟩
  refine ⟨fun schema => ?_, fails⟩
  obtain ⟨m, read⟩ := exists_ofDocument 0 ⟨.relative, []⟩ schema
  obtain ⟨e, failed, _⟩ := fails 0
  rw [failed] at read
  cases read

end Manifest

end BankTrace
