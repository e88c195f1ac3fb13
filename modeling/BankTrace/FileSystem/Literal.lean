import BankTrace.FileSystem
import BankTrace.Path.Literal

/-!
# Requests by literal paths

Files are taken away and directories made at literal paths: every step of the text is followed, and
messages repeat the text. The directory that is asked for must be new. Those that lead to it are
made when they are missing, the topmost first, each by the part of the text that leads to it; what
has been made stays when a later one is refused.
-/

namespace BankTrace.FileSystem

/-- Follow steps of a literal path, which must not be empty. -/
def followLiteral (fs : FileSystem) (p : LiteralPath) (steps : List String) :
    Except FileError Place :=
  if p.chars = [] then .error (.notFound p.text) else fs.follow p.text p.root steps

/-- There is something at a literal path. -/
def hasLiteral (fs : FileSystem) (p : LiteralPath) : Bool :=
  match fs.followLiteral p p.stepsInside with
  | .ok place => (fs.node? place).isSome
  | .error _ => false

/-- Take a file away. -/
def removeLiteral (fs : FileSystem) (p : LiteralPath) : Except FileError FileSystem := do
  let place ← fs.followLiteral p p.stepsInside
  match fs.node? place with
  | some (.file _) => return fs.erase place
  | some .directory => throw (.isDirectory p.text)
  | none => throw (.notFound p.text)

/-- Make a directory where there is nothing, in a directory that is there. -/
def makeLiteral (fs : FileSystem) (p : LiteralPath) : FileSystem × Except FileError Unit :=
  match fs.followLiteral p p.steps with
  | .error e => (fs, .error e)
  | .ok place =>
    match fs.node? place with
    | some _ => (fs, .error (.exists p.text))
    | none => (fs.put place .directory, .ok ())

/-- Make a directory where there is nothing, and first those that lead to it. Behind a dot at the
end there is nothing left to make when its directory had to be made. -/
def makeLiteralDeep (fs : FileSystem) (s : List Char) : FileSystem × Except FileError Unit :=
  let parts := LiteralPath.cut s
  if parts.2 ≠ [] ∧ parts.1 ≠ [] ∧ fs.hasLiteral ⟨parts.1⟩ = false then
    match fs.makeLiteralDeep parts.1 with
    | (above, .ok ()) | (above, .error (.exists _)) =>
      if parts.2 = ['.'] then (above, .ok ()) else above.makeLiteral ⟨s⟩
    | (above, .error e) => (above, .error e)
  else fs.makeLiteral ⟨s⟩
termination_by s.length
decreasing_by
  rename_i missing
  exact LiteralPath.length_cut_lt missing.1

end BankTrace.FileSystem
