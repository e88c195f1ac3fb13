import BankTrace.Bank.Layout
import BankTrace.Event
import BankTrace.FileSystem
import BankTrace.Memory.AddressSpace
import BankTrace.Toml.Draft

/-!
# Manifests

A manifest declares regions, banks and settings in a document. Keys that are not known are refused,
and every value must have its kind; a truth value is no integer. The regions are checked first, then
the banks one by one, their layout, and the settings. Paths of banks are relative to the directory
of the manifest. The message about a value of the wrong kind shows the value, and where that cannot
be done, that is the error.
-/

namespace BankTrace

/-- What is declared. -/
structure Manifest where
  /-- The regions; later ones repaint earlier ones. -/
  regions : List Region
  /-- The banks. -/
  banks : List Bank
  /-- The settings. -/
  settings : Settings
  /-- There is a bank. -/
  banks_ne : banks ≠ []
  /-- The banks keep the rules of a layout. -/
  layout : Layout.check banks = .ok ()

namespace Manifest

open Toml (Table Value)

/-- The keys of a table are among those allowed. -/
def checkKeys (t : Table) (allowed : List String) (place : String) : Except Error Unit :=
  match (t.map Prod.fst).filter fun key => !allowed.contains key with
  | [] => .ok ()
  | unknown => .error (.config (.unknownKeys place (unknown.mergeSort fun a b => !(b < a))))

section

-- As many values may lie inside each other where a message shows one.
variable (room : Nat)

/-- The error for a value of the wrong kind, which shows the value if it can be shown. -/
def wrongKind (v : Value) (error : String → ConfigError) : Error :=
  match v.showFault? room with
  | none => error v.shown
  | some .tooDeep => .tooDeepToShow
  | some .tooLong => .tooLongToShow

/-- An integer, or the error for any other value. -/
def asInteger (place key : String) : Value → Except Error Int
  | .integer n => .ok n
  | v => .error (wrongKind room v (.notInteger place key))

/-- The integer of a key that must be there. -/
def integer (t : Table) (key place : String) : Except Error Int :=
  match t.get? key with
  | some v => asInteger room place key v
  | none => .error (.config (.missingKey place key))

/-- The integer of a key, zero if it is not there. -/
def integerOrZero (t : Table) (key place : String) : Except Error Int :=
  match t.get? key with
  | some v => asInteger room place key v
  | none => .ok 0

/-- The truth value of a key, or a default if it is not there. -/
def boolean (t : Table) (key place : String) (default : Bool) : Except Error Bool :=
  match t.get? key with
  | some (.boolean b) => .ok b
  | some v => .error (wrongKind room v (.notBoolean place key))
  | none => .ok default

/-- The text of a key that must be there. -/
def text (t : Table) (key place : String) : Except Error String :=
  match t.get? key with
  | some (.string s) => .ok s
  | some v => .error (wrongKind room v (.notString place key))
  | none => .error (.config (.missingKey place key))

/-- The tables of an array. -/
def asTables (key : String) : List Value → Except Error (List Table)
  | [] => .ok []
  | .table t :: rest => (asTables key rest).map (t :: ·)
  | _ :: _ => .error (.config (.notTables key))

/-- The array of tables of a key; without the key there are none. -/
def tables (t : Table) (key : String) : Except Error (List Table) :=
  match t.get? key with
  | none => .ok []
  | some (.array elements) => asTables key elements
  | some _ => .error (.config (.notTables key))

/-- The table of a key, empty if it is not there. -/
def table (t : Table) (key place : String) : Except Error Table :=
  match t.get? key with
  | none => .ok []
  | some (.table inner) => .ok inner
  | some _ => .error (.config (.notTable place))

/-- The keys of a region. -/
def regionKeys : List String := ["start", "len", "readable", "writable", "executable"]

/-- The keys of a bank. -/
def bankKeys : List String :=
  ["name", "start", "len", "file", "file_offset", "cdl", "cdl_offset", "fixed"]

/-- A place in an array. -/
def element (key : String) (index : Nat) : String := key ++ "[" ++ toString index ++ "]"

/-- A region. -/
def region (t : Table) (index : Nat) : Except Error Region := do
  let place := element "memory" index
  checkKeys t regionKeys place
  let start ← integer room t "start" place
  let size ← integer room t "len" place
  let readable ← boolean room t "readable" place false
  let writable ← boolean room t "writable" place false
  let executable ← boolean room t "executable" place false
  (Region.ofBounds start size ⟨readable, writable, executable⟩).mapError .config

/-- A bank, with paths that start at `base`. -/
def bank (base : Path) (t : Table) (index : Nat) : Except Error Bank := do
  checkKeys t bankKeys (element "banks" index)
  let name ← text room t "name" (element "banks" index)
  let place := "bank '" ++ name ++ "'"
  let start ← integer room t "start" place
  let size ← integer room t "len" place
  let file ← text room t "file" place
  let cdl ← text room t "cdl" place
  let fileOffset ← integerOrZero room t "file_offset" place
  let cdlOffset ← integerOrZero room t "cdl_offset" place
  let fixed ← boolean room t "fixed" place false
  let declared : Bank.Declaration := {
    name, start, size, fileOffset, cdlOffset, fixed
    file := base.join (Path.ofString file)
    cdl := base.join (Path.ofString cdl) }
  (Bank.ofDeclaration declared).mapError .config

/-- Read tables one after the other, each with its index. -/
def readEach {α : Type} (read : Table → Nat → Except Error α) (index : Nat) :
    List Table → Except Error (List α)
  | [] => .ok []
  | t :: rest => do
    let a ← read t index
    let others ← readEach read (index + 1) rest
    return a :: others

/-- Read the given settings from a table, over those that there are. -/
def readSettings (t : Table) (settings : Settings) :
    List Settings.Field → Except Error Settings
  | [] => .ok settings
  | field :: rest => do
    let b ← boolean room t field.key "config.analysis" (field.get settings)
    readSettings t (field.set b settings) rest

/-- The settings. -/
def settingsOf (t : Table) : Except Error Settings := do
  let config ← table t "config" "config"
  checkKeys config ["analysis"] "config"
  let analysis ← table config "analysis" "config.analysis"
  checkKeys analysis (Settings.fields.map Settings.Field.key) "config.analysis"
  readSettings room analysis {} Settings.fields

/-- The manifest that a document declares, with paths that start at `base`. -/
def ofDocument (base : Path) (t : Table) : Except Error Manifest := do
  checkKeys t ["memory", "banks", "config"] "manifest"
  let regions ← readEach (region room) 0 (← tables t "memory")
  let banks ← readEach (bank room base) 0 (← tables t "banks")
  if banks_ne : banks ≠ [] then
    match layout : Layout.check banks with
    | .error e => throw (.config e)
    | .ok () =>
      let settings ← settingsOf room t
      return { regions, banks, settings, banks_ne, layout }
  else throw (.config .noBanks)

end

/-- The manifest that a text declares, with paths that start at `base`. -/
def parse (platform : Platform) (base : Path) (s : String) : Except Error Manifest :=
  match Toml.parse platform.levels s with
  | .error .malformed => .error (.config .malformed)
  | .error (.digits count) => .error (.digits count)
  | .error .tooDeep => .error .tooDeep
  | .ok t => ofDocument platform.room base t

/-- Read the manifest of a path. -/
def load (platform : Platform) (fs : FileSystem) (path : Path) :
    List Event × Except Error Manifest :=
  match fs.isFile path with
  | .error e => ([], .error (.file e))
  | .ok false => ([], .error (.noManifest path))
  | .ok true =>
    ([.readingManifest path], do
      let bytes ← (fs.read path).mapError Error.file
      let s ← (Utf8.decode bytes.toList).mapError Error.notText
      parse platform path.parent (String.ofList (Utf8.unifyLines s.toList)))

/-- The permissions that the regions give. -/
def addressSpace (m : Manifest) : AddressSpace := .ofRegions m.regions

end Manifest

end BankTrace
