/-!
# Paths

A path is a root, which is empty for a relative path, and the names from there. Blank steps are
dropped when a path is read: empty names and names that are a single dot. Names that are two dots
stay, because what they mean depends on the directories that exist. Two slashes in front are a root
of their own; one slash, or more than two, are the common root.
-/

namespace BankTrace

/-- Where a path starts. -/
inductive Path.Root where
  /-- The working directory. -/
  | relative
  /-- The common root `/`. -/
  | slash
  /-- The root `//`. -/
  | doubleSlash
  deriving DecidableEq, Hashable, Inhabited

/-- A start and the names from there. -/
structure Path where
  /-- Where the path starts. -/
  root : Path.Root
  /-- The names, none of them empty or a single dot when the path was read from a text. -/
  names : List String
  deriving DecidableEq, Hashable, Inhabited

namespace Path

/-- The written form of a root. -/
def Root.text : Root → String
  | relative => ""
  | slash => "/"
  | doubleSlash => "//"

/-- The parts of a text between its slashes, empty ones included. -/
def splitSlashes : List Char → List (List Char)
  | [] => [[]]
  | '/' :: rest => [] :: splitSlashes rest
  | c :: rest =>
    match splitSlashes rest with
    | [] => [[c]]
    | part :: parts => (c :: part) :: parts

/-- The root that a text starts with. -/
def rootOf (s : List Char) : Root :=
  match s.takeWhile (· = '/') with
  | [] => .relative
  | ['/', '/'] => .doubleSlash
  | _ => .slash

/-- Read a path. -/
def ofString (s : String) : Path :=
  let names := (splitSlashes s.toList).filter fun name => name ≠ [] ∧ name ≠ ['.']
  ⟨rootOf s.toList, names.map String.ofList⟩

/-- The written form; the path without names is a dot. -/
def toString (p : Path) : String :=
  match p.root, p.names with
  | .relative, [] => "."
  | root, names => root.text ++ "/".intercalate names

/-- The second path as seen from the first; a path with a root of its own stays as it is. -/
def join (base path : Path) : Path :=
  match path.root with
  | .relative => ⟨base.root, base.names ++ path.names⟩
  | _ => path

/-- The path without its last name; a path without names is its own parent. -/
def parent (p : Path) : Path :=
  ⟨p.root, p.names.dropLast⟩

/-- The path and one more name. -/
def child (p : Path) (name : String) : Path :=
  ⟨p.root, p.names ++ [name]⟩

/-- A path and a text that spells it. Several texts spell one path, and messages repeat the text. -/
structure Spelling where
  /-- The path. -/
  path : Path
  /-- The text. -/
  text : String
  deriving DecidableEq

/-- A text as a spelling of the path that is read from it. -/
def Spelling.ofString (s : String) : Spelling := ⟨Path.ofString s, s⟩

/-- Where no other text is given, a path is spelt by its written form. -/
instance : Coe Path Spelling := ⟨fun p => ⟨p, p.toString⟩⟩

@[simp] theorem parent_child (p : Path) (name : String) : (p.child name).parent = p := by
  simp [child, parent]

@[simp] theorem join_of_root {base path : Path} (h : path.root ≠ .relative) :
    base.join path = path := by
  cases path with
  | mk root names => cases root <;> simp_all [join]

end Path

end BankTrace
