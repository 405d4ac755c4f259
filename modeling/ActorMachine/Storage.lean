/-!
# Directory trees

A pure model of the files that chunks are saved to and loaded from: a tree of directories
with the rules of path lookup. A path is a list of segments. The empty segment and `.` stay
where they are, provided that is a directory; `..` goes up, and stays at the top.
-/

namespace ActorMachine

/-- Why a file operation has failed. -/
inductive StorageFault
  | notFound
  | alreadyExists
  | notADirectory
  | isADirectory
deriving DecidableEq, Repr, Inhabited

/-- The text shown for a fault. -/
def StorageFault.message : StorageFault → String
  | notFound => "No such file or directory (os error 2)"
  | alreadyExists => "File exists (os error 17)"
  | notADirectory => "Not a directory (os error 20)"
  | isADirectory => "Is a directory (os error 21)"

/-- A file, or a directory with its entries. -/
inductive FileNode
  | file (bytes : List UInt8)
  | directory (entries : List (String × FileNode))
deriving Inhabited

namespace FileNode

/-- The directory without entries. -/
def emptyDirectory : FileNode :=
  directory []

/-- The node is a directory. -/
def isDirectory : FileNode → Bool
  | directory _ => true
  | file _ => false

/-- The entry of a directory. -/
def child? (name : String) : FileNode → Option FileNode
  | directory entries => entries.lookup name
  | file _ => none

/-- Puts an entry into a directory, in the place of the one of that name. -/
def setEntry (n : FileNode) (name : String) (node : FileNode) : FileNode :=
  match n with
  | directory entries => directory ((name, node) :: entries.filter fun e => e.1 ≠ name)
  | file bytes => file bytes

/-- The node at a list of names. -/
def descend? (n : FileNode) : List String → Option FileNode
  | [] => some n
  | name :: names =>
    match n.child? name with
    | some child => child.descend? names
    | none => none

/-- Puts a node at a list of names, below directories that exist. -/
def place (n : FileNode) : List String → FileNode → FileNode
  | [], node => node
  | name :: names, node =>
    n.setEntry name (((n.child? name).getD emptyDirectory).place names node)

end FileNode

/-- A path, as its segments. -/
abbrev FilePath := List String

/-- A directory tree. -/
structure Storage where
  /-- The directory at the top. -/
  root : FileNode
deriving Inhabited

namespace Storage

/-- Operations on a directory tree. What a failing operation has done stays done. -/
abbrev Action := EStateM StorageFault Storage

/-- The tree without files. -/
def empty : Storage :=
  { root := .emptyDirectory }

/-- The names that a path leads to, starting at the names in `here`. -/
def locateFrom (s : Storage) (here : List String) : FilePath → Except StorageFault (List String)
  | [] => .ok here
  | segment :: path =>
    match s.root.descend? here with
    | none => .error .notFound
    | some (.file _) => .error .notADirectory
    | some (.directory entries) =>
      if segment = "" ∨ segment = "." then
        locateFrom s here path
      else if segment = ".." then
        locateFrom s here.dropLast path
      else if (entries.lookup segment).isSome then
        locateFrom s (here ++ [segment]) path
      else
        .error .notFound

/-- The names that a path leads to. -/
def locate (s : Storage) (path : FilePath) : Except StorageFault (List String) :=
  s.locateFrom [] path

/-- The node that a path leads to. -/
def node (s : Storage) (path : FilePath) : Except StorageFault FileNode := do
  match s.root.descend? (← s.locate path) with
  | some node => return node
  | none => throw .notFound

/-- A path leads to a directory. -/
def isDirectory (s : Storage) (path : FilePath) : Bool :=
  match s.node path with
  | .ok node => node.isDirectory
  | .error _ => false

/-- The bytes of a file. -/
def read (s : Storage) (path : FilePath) : Except StorageFault (List UInt8) := do
  match ← s.node path with
  | .file bytes => return bytes
  | .directory _ => throw .isADirectory

/-- The directory that the last segment of a path is looked up in. -/
def parentOf (s : Storage) (path : FilePath) : Except StorageFault (List String) := do
  let here ← s.locate path.dropLast
  match s.root.descend? here with
  | some (.directory _) => return here
  | _ => throw .notADirectory

/-- The last segment of a path is a name, and not a step that stays or goes up. -/
def lastName? (path : FilePath) : Option String :=
  match path.getLast? with
  | some segment =>
    if segment = "" ∨ segment = "." ∨ segment = ".." then none else some segment
  | none => none

/-- Makes one directory, whose parent has to be there. -/
def makeDirectory (path : FilePath) : Action Unit := do
  let here ← ofExcept ((← get).parentOf path)
  match lastName? path with
  | none => throw .alreadyExists
  | some name =>
    if ((← get).root.descend? (here ++ [name])).isSome then
      throw .alreadyExists
    modify fun s => { s with root := s.root.place (here ++ [name]) .emptyDirectory }

/-- Makes a directory and those above it as far as they are missing. The segments come last
first. -/
def makeDirectoriesReversed : FilePath → Action Unit
  | [] => return ()
  | segment :: outer => fun s =>
    let path := (segment :: outer).reverse
    match makeDirectory path s with
    | .ok _ s => .ok () s
    | .error .notFound s =>
      -- What is above is missing: make that first and try again.
      match makeDirectoriesReversed outer s with
      | .error fault s => .error fault s
      | .ok _ s =>
        match makeDirectory path s with
        | .ok _ s => .ok () s
        | .error fault s => if s.isDirectory path then .ok () s else .error fault s
    -- What is in the way may be the very directory that is wanted.
    | .error fault s => if s.isDirectory path then .ok () s else .error fault s

/-- Makes a directory and those above it as far as they are missing. -/
def makeDirectories (path : FilePath) : Action Unit :=
  makeDirectoriesReversed path.reverse

/-- Writes a file, in the place of the one that is there. A path that names no file but a
directory, by how it ends or by what it leads to, is refused. -/
def write (path : FilePath) (bytes : List UInt8) : Action Unit := do
  -- A path that ends in a separator stands for a directory.
  let (path, isName) :=
    match path.reverse with
    | "" :: outer => ((outer.dropWhile (· = "")).reverse, false)
    | _ => (path, true)
  let here ← ofExcept ((← get).parentOf path)
  match lastName? path with
  | none => throw .isADirectory
  | some name =>
    if !isName || (← get).isDirectory (here ++ [name]) then
      throw .isADirectory
    modify fun s => { s with root := s.root.place (here ++ [name]) (.file bytes) }

end Storage

end ActorMachine
