import Mathlib.Data.List.Forall2
import BankTrace.Manifest
import BankTrace.Proofs.Failures

/-!
# The keys of a table

A table of a manifest is read key by key. For each of the readers it is said here which tables it
reads and what it makes of them: a key has to be there, or there is a default for it, and its value
has to be of a kind. What else can happen is a configuration error, or a value of the wrong kind
that cannot be shown in one.
-/

namespace BankTrace

/-- An error of the configuration. -/
def Error.IsConfig (e : Error) : Prop := ∃ c, e = .config c

namespace Toml

/-- What the value of a key is asked to be. -/
inductive Kind where
  | string
  | integer
  | boolean
  deriving DecidableEq

/-- A value is of a kind. -/
def Value.HasKind : Value → Kind → Prop
  | .string _, .string | .integer _, .integer | .boolean _, .boolean => True
  | _, _ => False

/-- The error where a value cannot be shown. -/
def Value.ShowFault.error : Value.ShowFault → Error
  | tooDeep => .tooDeepToShow
  | tooLong => .tooLongToShow

namespace Table

/-- There are no keys but these. -/
def OnlyKeys (t : Table) (allowed : List String) : Prop :=
  ∀ key, (t.get? key).isSome = true → key ∈ allowed

/-- The value of a key stands for `a`, or the key is not there and `a` is the default. -/
def GivenOr {α : Type} (t : Table) (key : String) (value : α → Value) (default a : α) : Prop :=
  t.get? key = some (value a) ∨ t.get? key = none ∧ a = default

/-- A key has a value of a kind, if it is there. -/
def Suits (t : Table) (key : String) (kind : Kind) : Prop :=
  ∀ v, t.get? key = some v → v.HasKind kind

/-- A table has no keys but some, and their values are of the kinds that they ask for. -/
structure Fits (t : Table) (kinds : List (String × Kind)) : Prop where
  /-- There are no other keys. -/
  known : t.OnlyKeys (kinds.map Prod.fst)
  /-- The values of the keys that are there are of their kinds. -/
  kinds : ∀ asked ∈ kinds, t.Suits asked.1 asked.2

/-- A key has a value of another kind than it asks for, which cannot be shown for this error: there
is room for so many values inside each other. -/
def Unshown (room : Nat) (t : Table) (kinds : List (String × Kind)) (e : Error) : Prop :=
  ∃ key kind v fault, (key, kind) ∈ kinds ∧ t.get? key = some v ∧ ¬v.HasKind kind ∧
    v.showFault? room = some fault ∧ e = fault.error

/-- What can go wrong when the keys of a table are read. -/
def Reports (room : Nat) (t : Table) (kinds : List (String × Kind)) (e : Error) : Prop :=
  e.IsConfig ∨ t.Unshown room kinds e

/-- The tables that an array lists, none without the key. -/
def Lists (t : Table) (key : String) (tables : List Table) : Prop :=
  t.GivenOr key (fun tables => Value.array (tables.map Value.table)) [] tables

section

variable {t : Table} {key : String}

/-- The keys that have values are those that are listed. -/
theorem get?_isSome_iff : (t.get? key).isSome = true ↔ key ∈ t.map Prod.fst := by
  unfold get?
  simp

section

variable {α : Type} {value : α → Value} {default a : α}

/-- What a key is given for is one thing. -/
theorem GivenOr.unique (distinct : Function.Injective value) {b : α}
    (given : t.GivenOr key value default a) (again : t.GivenOr key value default b) : a = b := by
  rcases given with found | ⟨absent, rfl⟩ <;> rcases again with found' | ⟨absent', rfl⟩
  · rw [found] at found'
    exact distinct (Option.some.inj found')
  · rw [found] at absent'
    contradiction
  · rw [absent] at found'
    contradiction
  · rfl

/-- The tables of a key are one list. -/
theorem Lists.unique {tables tables' : List Table} (lists : t.Lists key tables)
    (again : t.Lists key tables') : tables = tables' := by
  refine GivenOr.unique (fun _ _ same => ?_) lists again
  exact List.map_injective_iff.mpr (fun _ _ => Value.table.inj) (Value.array.inj same)

/-- What a key is given for is of a kind when everything that can be given is. -/
theorem GivenOr.suits {kind : Kind} (given : t.GivenOr key value default a)
    (of : ∀ a, (value a).HasKind kind) : t.Suits key kind := by
  intro v found
  rcases given with there | ⟨absent, _⟩
  · rw [there] at found
    exact Option.some.inj found ▸ of a
  · rw [absent] at found
    contradiction

end

/-- The value of a key is of its own kind. -/
theorem suits_of_get? {v : Value} {kind : Kind} (found : t.get? key = some v)
    (of : v.HasKind kind) : t.Suits key kind := by
  intro w again
  rw [found] at again
  exact Option.some.inj again ▸ of

/-- Where a truth value or nothing is, the key is given for something. -/
theorem Suits.exists_boolean (suits : t.Suits key .boolean) (default : Bool) :
    ∃ b, t.GivenOr key .boolean default b := by
  cases found : t.get? key with
  | none => exact ⟨default, .inr ⟨found, rfl⟩⟩
  | some v =>
    have of := suits v found
    cases v with
    | boolean b => exact ⟨b, .inl found⟩
    | _ => exact absurd of id

/-- An integer that has no sign has none where it is given. -/
theorem GivenOr.natCast_nonneg {default given : Int} {n : Nat}
    (is : t.GivenOr key .integer default n) (found : t.get? key = some (.integer given)) :
    0 ≤ given := by
  have same : (n : Int) = given := is.unique (fun _ _ => Value.integer.inj) (.inl found)
  omega

/-- Where an integer without a sign or nothing is, the key is given for one. -/
theorem Suits.exists_natCast (suits : t.Suits key .integer)
    (signless : ∀ n, t.get? key = some (.integer n) → 0 ≤ n) :
    ∃ n : Nat, t.GivenOr key .integer 0 n := by
  cases found : t.get? key with
  | none => exact ⟨0, .inr ⟨found, rfl⟩⟩
  | some v =>
    have of := suits v found
    cases v with
    | integer n =>
      obtain ⟨m, rfl⟩ := Int.eq_ofNat_of_zero_le (signless n found)
      exact ⟨m, .inl found⟩
    | _ => exact absurd of id

end

end Table

end Toml

namespace Manifest

open Toml (Kind Table Value)

variable {room : Nat} {t : Table} {kinds : List (String × Kind)} {key place : String}

/-! ## What is read -/

/-- The keys of a table are accepted when there are no keys but those allowed. -/
theorem checkKeys_eq_ok_iff {allowed : List String} {done : Unit} :
    checkKeys t allowed place = .ok done ↔ t.OnlyKeys allowed := by
  have passed : checkKeys t allowed place = .ok done ↔
      ((t.map Prod.fst).filter fun key => !allowed.contains key) = [] := by
    unfold checkKeys
    cases (t.map Prod.fst).filter fun key => !allowed.contains key <;> simp
  rw [passed, List.filter_eq_nil_iff]
  refine forall_congr' fun key => ?_
  rw [Table.get?_isSome_iff]
  simp

/-- An integer is read where the key has one. -/
theorem integer_eq_ok_iff {n : Int} :
    integer room t key place = .ok n ↔ t.get? key = some (.integer n) := by
  unfold integer
  cases t.get? key with
  | none => simp
  | some v => cases v <;> simp [asInteger]

/-- An integer or zero is read where the key has an integer or nothing. -/
theorem integerOrZero_eq_ok_iff {n : Int} :
    integerOrZero room t key place = .ok n ↔ t.GivenOr key .integer 0 n := by
  unfold integerOrZero Table.GivenOr
  cases t.get? key with
  | none => simp [eq_comm]
  | some v => cases v <;> simp [asInteger]

/-- A truth value is read where the key has one or nothing. -/
theorem boolean_eq_ok_iff {default b : Bool} :
    boolean room t key place default = .ok b ↔ t.GivenOr key .boolean default b := by
  unfold boolean Table.GivenOr
  cases t.get? key with
  | none => simp [eq_comm]
  | some v => cases v <;> simp

/-- A text is read where the key has one. -/
theorem text_eq_ok_iff {s : String} :
    text room t key place = .ok s ↔ t.get? key = some (.string s) := by
  unfold text
  cases t.get? key with
  | none => simp
  | some v => cases v <;> simp

/-- Tables are read where all elements are tables. -/
theorem asTables_eq_ok_iff {elements : List Value} {tables : List Table} :
    asTables key elements = .ok tables ↔ elements = tables.map .table := by
  induction elements generalizing tables with
  | nil => simp [asTables, eq_comm]
  | cons v rest ih =>
    cases v with
    | table inner =>
      simp only [asTables, map_eq_ok_iff, ih]
      constructor
      · rintro ⟨others, rfl, rfl⟩
        rfl
      · intro same
        obtain ⟨first, others, rfl, front, behind⟩ := List.map_eq_cons_iff.mp same.symm
        exact ⟨others, behind.symm, by rw [Value.table.inj front]⟩
    | _ => cases tables <;> simp [asTables]

/-- Tables are read where the key has an array of them or nothing. -/
theorem tables_eq_ok_iff {tables : List Table} :
    Manifest.tables t key = .ok tables ↔ t.Lists key tables := by
  unfold Manifest.tables Table.Lists Table.GivenOr
  cases t.get? key with
  | none => simp [eq_comm]
  | some v => cases v <;> simp [asTables_eq_ok_iff]

/-- A table is read where the key has one or nothing. -/
theorem table_eq_ok_iff {inner : Table} :
    table t key place = .ok inner ↔ t.GivenOr key .table [] inner := by
  unfold table Table.GivenOr
  cases t.get? key with
  | none => simp [eq_comm]
  | some v => cases v <;> simp

/-! ## What can go wrong -/

/-- Keys are refused with a configuration error. -/
theorem failsOnly_checkKeys (t : Table) (allowed : List String) (place : String) :
    FailsOnly Error.IsConfig (checkKeys t allowed place) := by
  unfold checkKeys
  split
  · exact .ok ()
  · exact .error ⟨_, rfl⟩

/-- A broken rule is a configuration error. -/
theorem failsOnly_mapError {α : Type} (answer : Except ConfigError α) :
    FailsOnly Error.IsConfig (answer.mapError .config) := by
  cases answer with
  | ok a => exact .ok a
  | error e => exact .error ⟨e, rfl⟩

/-- A value of the wrong kind is shown in a configuration error or cannot be shown. -/
theorem reports_wrongKind {kind : Kind} {v : Value} (asked : (key, kind) ∈ kinds)
    (found : t.get? key = some v) (other : ¬v.HasKind kind) (error : String → ConfigError) :
    t.Reports room kinds (wrongKind room v error) := by
  unfold wrongKind
  cases shown : v.showFault? room with
  | none => exact .inl ⟨_, rfl⟩
  | some fault =>
    refine .inr ⟨key, kind, v, fault, asked, found, other, shown, ?_⟩
    cases fault <;> rfl

/-- Reading an integer can go wrong for the value of its key. -/
theorem failsOnly_integer (asked : (key, Kind.integer) ∈ kinds) :
    FailsOnly (t.Reports room kinds) (integer room t key place) := by
  unfold integer
  cases found : t.get? key with
  | none => exact .error (.inl ⟨_, rfl⟩)
  | some v =>
    cases v with
    | integer n => exact .ok n
    | _ => exact .error (reports_wrongKind asked found id _)

/-- Reading an integer that may be missing can go wrong for the value of its key. -/
theorem failsOnly_integerOrZero (asked : (key, Kind.integer) ∈ kinds) :
    FailsOnly (t.Reports room kinds) (integerOrZero room t key place) := by
  unfold integerOrZero
  cases found : t.get? key with
  | none => exact .ok 0
  | some v =>
    cases v with
    | integer n => exact .ok n
    | _ => exact .error (reports_wrongKind asked found id _)

/-- Reading a truth value can go wrong for the value of its key. -/
theorem failsOnly_boolean {default : Bool} (asked : (key, Kind.boolean) ∈ kinds) :
    FailsOnly (t.Reports room kinds) (boolean room t key place default) := by
  unfold boolean
  cases found : t.get? key with
  | none => exact .ok default
  | some v =>
    cases v with
    | boolean b => exact .ok b
    | _ => exact .error (reports_wrongKind asked found id _)

/-- Reading a text can go wrong for the value of its key. -/
theorem failsOnly_text (asked : (key, Kind.string) ∈ kinds) :
    FailsOnly (t.Reports room kinds) (text room t key place) := by
  unfold text
  cases found : t.get? key with
  | none => exact .error (.inl ⟨_, rfl⟩)
  | some v =>
    cases v with
    | string s => exact .ok s
    | _ => exact .error (reports_wrongKind asked found id _)

/-- Elements that are no tables are a configuration error. -/
theorem failsOnly_asTables (key : String) (elements : List Value) :
    FailsOnly Error.IsConfig (asTables key elements) := by
  induction elements with
  | nil => exact .ok []
  | cons v rest ih =>
    cases v with
    | table inner => exact ih.map _
    | _ => exact .error ⟨_, rfl⟩

/-- What is no array of tables is a configuration error. -/
theorem failsOnly_tables (t : Table) (key : String) :
    FailsOnly Error.IsConfig (Manifest.tables t key) := by
  unfold Manifest.tables
  split
  · exact .ok []
  · exact failsOnly_asTables key _
  · exact .error ⟨_, rfl⟩

/-- What is no table is a configuration error. -/
theorem failsOnly_table (t : Table) (key place : String) :
    FailsOnly Error.IsConfig (table t key place) := by
  unfold table
  split
  · exact .ok []
  · exact .ok _
  · exact .error ⟨_, rfl⟩

/-! ## Tables one after the other -/

section

variable {α : Type} {read : Table → Nat → Except Error α}

/-- What is read from tables is read from them one by one. -/
theorem readEach_eq_ok_iff {Entry : Table → α → Prop}
    (reads : ∀ t index a, read t index = .ok a ↔ Entry t a) {index : Nat} {tables : List Table}
    {entries : List α} :
    readEach read index tables = .ok entries ↔ List.Forall₂ Entry tables entries := by
  induction tables generalizing index entries with
  | nil => simp [readEach, eq_comm]
  | cons t rest ih =>
    unfold readEach
    simp only [bind_eq_ok_iff, reads, ih, List.forall₂_cons_left_iff]
    constructor
    · rintro ⟨a, entry, others, behind, done⟩
      exact ⟨a, others, entry, behind, (Except.ok.inj done).symm⟩
    · rintro ⟨a, others, entry, behind, rfl⟩
      exact ⟨a, entry, others, behind, rfl⟩

/-- Tables are read when each of them keeps the rules of the reader. -/
theorem exists_readEach_iff {Rules : Table → Prop}
    (reads : ∀ t index, (∃ a, read t index = .ok a) ↔ Rules t) {index : Nat}
    {tables : List Table} :
    (∃ entries, readEach read index tables = .ok entries) ↔ ∀ t ∈ tables, Rules t := by
  induction tables generalizing index with
  | nil => simp [readEach]
  | cons t rest ih =>
    rw [List.forall_mem_cons, ← reads t index, ← @ih (index + 1)]
    constructor
    · rintro ⟨_, done⟩
      obtain ⟨a, first, done⟩ := bind_eq_ok_iff.mp done
      obtain ⟨others, behind, _⟩ := bind_eq_ok_iff.mp done
      exact ⟨⟨a, first⟩, others, behind⟩
    · rintro ⟨⟨a, first⟩, others, behind⟩
      exact ⟨a :: others, bind_eq_ok_iff.mpr ⟨a, first, bind_eq_ok_iff.mpr ⟨others, behind, rfl⟩⟩⟩

/-- Reading tables can go wrong where reading one of them can. -/
theorem failsOnly_readEach {errors : Error → Prop} {tables : List Table}
    (each : ∀ t ∈ tables, ∀ index, FailsOnly errors (read t index)) (index : Nat) :
    FailsOnly errors (readEach read index tables) := by
  induction tables generalizing index with
  | nil => exact .ok []
  | cons t rest ih =>
    refine (each t List.mem_cons_self index).bind fun a _ => ?_
    exact (ih (fun u member => each u (List.mem_cons_of_mem t member)) _).bind fun _ _ => .ok _

end

end Manifest

end BankTrace
