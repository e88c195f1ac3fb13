import BankTrace.Error
import BankTrace.Platform

/-!
# File systems

A file system is a value: it tells for every place whether there is a file, a directory or nothing.
A place is the list of names from the top. Paths that start nowhere else start at the home
directory, which always exists. A path is followed name by name, so every name in front of the last
must be that of a directory, and two dots lead to the directory that really holds the one reached.
There are no links and no special files, and nothing is kept from being read or written but by what
is on its way.

Requests that change a file system return the changed one. Making a directory with all those above
it can fail half way; what it made until then stays.
-/

namespace BankTrace

/-- The names from the top of a file system down to one place. -/
abbrev Place := List String

/-- What is at a place. -/
inductive Node where
  | file (bytes : Array UInt8)
  | directory
  deriving DecidableEq

/-- Files and directories below a home directory. -/
structure FileSystem where
  /-- Where relative paths start. -/
  home : Place
  /-- What has been made, at most one node for a place. -/
  nodes : List (Place × Node) := []
  deriving DecidableEq

namespace FileSystem

/-- The most bytes of a name. -/
def nameLimit : Nat := 255

/-- A path of this many bytes is refused. -/
def pathLimit : Nat := 4096

/-- What is at a place. The home directory and those above it are always there. -/
def node? (fs : FileSystem) (place : Place) : Option Node :=
  if place.isPrefixOf fs.home then some .directory else fs.nodes.lookup place

/-- Replace the node of a place, or add one behind the others. -/
def setNode (place : Place) (node : Node) : List (Place × Node) → List (Place × Node)
  | [] => [(place, node)]
  | (p, old) :: rest =>
    if p = place then (p, node) :: rest else (p, old) :: setNode place node rest

/-- Put a node at a place. -/
def put (fs : FileSystem) (place : Place) (node : Node) : FileSystem :=
  { fs with nodes := setNode place node fs.nodes }

/-- Take away what is at a place. -/
def erase (fs : FileSystem) (place : Place) : FileSystem :=
  { fs with nodes := fs.nodes.filter fun (p, _) => p ≠ place }

/-- The place that a name leads to from a directory. -/
def step (here : Place) (name : String) : Place :=
  if name = "." then here else if name = ".." then here.dropLast else here ++ [name]

/-- Follow names from a place on behalf of a text; the last of them need not exist. -/
def walk (fs : FileSystem) (text : String) (here : Place) : List String → Except FileError Place
  | [] => .ok here
  | name :: rest =>
    match fs.node? here with
    | none => .error (.notFound text)
    | some (.file _) => .error (.notDirectory text)
    | some .directory =>
      if name.utf8ByteSize > nameLimit then .error (.nameTooLong text)
      else fs.walk text (step here name) rest

/-- The place where paths with that root start. -/
def origin (fs : FileSystem) (root : Path.Root) : Place :=
  if root = .relative then fs.home else []

/-- Follow the names that a text spells from its root. -/
def follow (fs : FileSystem) (text : String) (root : Path.Root) (names : List String) :
    Except FileError Place :=
  if names.any (·.toList.contains '\x00') then .error .nullInPath
  else if text.utf8ByteSize ≥ pathLimit then .error (.nameTooLong text)
  else fs.walk text (fs.origin root) names

/-- The place that a path means which is spelt in a way of its own. -/
def locateAs (fs : FileSystem) (spelt : Path.Spelling) : Except FileError Place :=
  fs.follow spelt.text spelt.path.root spelt.path.names

/-- The place that a path means. -/
def locate (fs : FileSystem) (path : Path) : Except FileError Place :=
  fs.follow path.toString path.root path.names

/-- The place that a path leads to when it can be followed. -/
def placeOf (fs : FileSystem) (path : Path) : Place := path.names.foldl step (fs.origin path.root)

/-- The places that names lead through from a place, whatever is there, up to the first name that
no place has. -/
def trail (here : Place) : List String → List Place
  | [] => [here]
  | name :: rest =>
    if name.utf8ByteSize > nameLimit ∨ name.toList.contains '\x00' then [here]
    else here :: trail (step here name) rest

/-- What is at the end of a path. -/
def find (fs : FileSystem) (path : Path) : Except FileError Node := do
  match fs.node? (← fs.locate path) with
  | some node => return node
  | none => throw (.notFound path.toString)

/-- The bytes of a file. -/
def read (fs : FileSystem) (path : Path) : Except FileError (Array UInt8) := do
  match ← fs.find path with
  | .file bytes => return bytes
  | .directory => throw (.isDirectory path.toString)

/-- The bytes of a file; a file that does not exist is empty. -/
def readOrEmpty (fs : FileSystem) (path : Path) : Except FileError (Array UInt8) :=
  match fs.read path with
  | .error (.notFound _) => .ok #[]
  | answer => answer

/-- There is a file at the path. A name that is too long is an error, everything else that keeps
the path from being followed means that there is none. -/
def isFile (fs : FileSystem) (path : Path) : Except FileError Bool :=
  match fs.find path with
  | .ok (.file _) => .ok true
  | .ok .directory => .ok false
  | .error (.nameTooLong text) => .error (.nameTooLong text)
  | .error _ => .ok false

/-- There is a directory at the path. -/
def isDirectory (fs : FileSystem) (path : Path) : Bool :=
  match fs.find path with
  | .ok .directory => true
  | _ => false

/-- Positions and lengths from here on do not fit into 64 bits. -/
def wordLimit : Int := 0x8000000000000000

/-- Lengths from here on leave no room in 64 bits for what belongs to the bytes. -/
def roomLimit : Int := wordLimit - 33

/-- Exactly `size` bytes of a file from `offset` on; a length of -1 asks for all of them, and is
then found to be wrong. -/
def readRange (memory : Memory) (fs : FileSystem) (path : Path) (offset size : Int) :
    Except RangeError (Array UInt8) := do
  let bytes ← (fs.read path).mapError .file
  if offset ≥ wordLimit ∨ offset < -wordLimit then throw .offsetTooLarge
  if offset < 0 then throw (.file .badPosition)
  if size ≥ wordLimit ∨ size < -wordLimit then throw .sizeTooLarge
  if size < -1 then throw .negativeSize
  if size ≥ roomLimit then throw .noRoom
  if size ≥ memory.limit then throw .outOfMemory
  let rest := bytes.extract offset.toNat bytes.size
  let got := if size < 0 then rest else rest.extract 0 size.toNat
  if got.size = size then return got else throw (.short path got.size size offset)

/-- Put bytes into a file, which is made if there is none. -/
def write (fs : FileSystem) (path : Path) (bytes : Array UInt8) : Except FileError FileSystem := do
  let place ← fs.locate path
  match fs.node? place with
  | some .directory => throw (.isDirectory path.toString)
  | _ => return fs.put place (.file bytes)

/-- Make a directory. -/
def makeDirectory (fs : FileSystem) (path : Path) : Except FileError FileSystem := do
  let place ← fs.locate path
  match fs.node? place with
  | some _ => throw (.exists path.toString)
  | none => return fs.put place .directory

/-- Make a directory that is allowed to exist, and all those above it. -/
def makeDirectories (fs : FileSystem) (path : Path) : FileSystem × Except FileError Unit :=
  match fs.makeDirectory path with
  | .ok made => (made, .ok ())
  | .error (.notFound missing) =>
    if path.names = [] then (fs, .error (.notFound missing))
    else
      match fs.makeDirectories path.parent with
      | (above, .error e) => (above, .error e)
      | (above, .ok ()) =>
        match above.makeDirectory path with
        | .ok made => (made, .ok ())
        | .error e => (above, settle above e)
  | .error e => (fs, settle fs e)
termination_by path.names.length
decreasing_by
  rename_i nonempty
  have := List.length_pos_iff.2 nonempty
  simp only [Path.parent, List.length_dropLast]
  omega
where
  /-- A refusal does not matter when the directory is there. -/
  settle (fs : FileSystem) (e : FileError) : Except FileError Unit :=
    match e with
    | .notFound _ | .nullInPath => .error e
    | _ => if fs.isDirectory path then .ok () else .error e

/-- Change a file system at a path, making the directories above it first; these stay also when the
change is refused. -/
def below (fs : FileSystem) (path : Path) (change : FileSystem → Except FileError FileSystem) :
    FileSystem × Except FileError Unit :=
  match fs.makeDirectories path.parent with
  | (above, .error e) => (above, .error e)
  | (above, .ok ()) =>
    match change above with
    | .ok changed => (changed, .ok ())
    | .error e => (above, .error e)

/-- Put bytes into a file, making the directories above it first. -/
def writeDeep (fs : FileSystem) (path : Path) (bytes : Array UInt8) :
    FileSystem × Except FileError Unit :=
  fs.below path (·.write path bytes)

/-- All files below the home directory, each by its path from there. -/
def homeFiles (fs : FileSystem) : List (Path × Array UInt8) :=
  fs.nodes.filterMap fun (place, node) =>
    match node with
    | .file bytes =>
      if fs.home.isPrefixOf place then
        some (⟨.relative, place.drop fs.home.length⟩, bytes)
      else none
    | .directory => none

theorem lookup_node (place other : Place) (node : Node) (rest : List (Place × Node)) :
    List.lookup other ((place, node) :: rest) =
      if other = place then some node else rest.lookup other := by
  rw [List.lookup_cons]
  by_cases h : other = place
  · simp [h]
  · simp [h, beq_false_of_ne h]

theorem lookup_setNode (place other : Place) (node : Node) (nodes : List (Place × Node)) :
    (setNode place node nodes).lookup other =
      if other = place then some node else nodes.lookup other := by
  induction nodes with
  | nil => simp [setNode, lookup_node]
  | cons head rest ih =>
    obtain ⟨p, old⟩ := head
    by_cases hp : p = place
    · subst hp
      by_cases h : other = p <;> simp [setNode, lookup_node, h]
    · by_cases h : other = place
      · subst h
        simp [setNode, lookup_node, hp, Ne.symm hp, ih]
      · simp [setNode, lookup_node, hp, h, ih]

/-- A node is found where it was put, and everything else stays. -/
theorem node?_put (fs : FileSystem) (place other : Place) (node : Node)
    (outside : place.isPrefixOf fs.home = false) :
    (fs.put place node).node? other = if other = place then some node else fs.node? other := by
  unfold node? put
  by_cases h : other = place
  · simp [h, outside, lookup_setNode]
  · by_cases above : other.isPrefixOf fs.home <;> simp [h, above, lookup_setNode]

end FileSystem

end BankTrace
