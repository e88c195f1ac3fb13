import BankTrace.FileSystem

/-!
# Replacing files

A file is not written where it is: its new bytes go to a new file in the same directory, which is
then moved over it. Nothing has the name of the new file before, and nothing has it afterwards, so
all that is ever seen of it is that its name and its path must not be too long, and that refusals
speak of it. Which letters tell it from other such files does not matter to anything else.
-/

namespace BankTrace

/-- The letters that tell files from each other that do not stay. -/
structure Letters where
  /-- The letters in their order. -/
  text : String
  /-- There are eight of them. -/
  length_eq : text.toList.length = 8
  /-- They are small ones, digits or lines. -/
  known : ∀ c ∈ text.toList, c.isLower ∨ c.isDigit ∨ c = '_'
  deriving DecidableEq

/-- Letters that stand for any. -/
def Letters.any : Letters where
  text := "________"
  length_eq := by decide
  known := fun _ member =>
    .inr (.inr (List.eq_of_mem_replicate (show _ ∈ List.replicate 8 '_' from member)))

namespace FileSystem

/-- A new file in the directory of another one. Its name is that of the other one with a dot, some
letters and the mark of files that do not stay, and it is spelt from the top. -/
def beside (fs : FileSystem) (path : Path) (letters : Letters) : Path.Spelling :=
  let name := path.names.getLastD "" ++ "." ++ letters.text ++ ".tmp"
  let top := if path.root = .doubleSlash then .doubleSlash else .slash
  ⟨path.parent.child name, (Path.mk top (fs.placeOf path.parent ++ [name])).toString⟩

/-- Why a file cannot be moved to a path that leads to a directory. -/
def moveError (source : String) (path : Path) : FileError :=
  if path.names.getLastD ".." = ".." then .busy source path.toString
  else .overDirectory source path.toString

/-- Put bytes into a file by way of a new one beside it, which is moved over it. -/
def replace (fs : FileSystem) (path : Path) (bytes : Array UInt8) :
    Except FileError FileSystem := do
  let new := fs.beside path .any
  let _ ← fs.locateAs new
  let place ← fs.locate path
  match fs.node? place with
  | some .directory => throw (moveError new.text path)
  | _ => return fs.put place (.file bytes)

/-- Replace a file, making the directories above it first. -/
def replaceDeep (fs : FileSystem) (path : Path) (bytes : Array UInt8) :
    FileSystem × Except FileError Unit :=
  fs.below path (·.replace path bytes)

end FileSystem

end BankTrace
