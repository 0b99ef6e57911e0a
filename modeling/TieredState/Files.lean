/-!
# Files

`FileAccess` is what a program asks of the files around it. `FileTree` answers it from a tree of
directories, in which paths are looked up as a file system does it: a path is a list of names with
slashes between them, one that begins with a slash starts at the root and any other in the working
directory, a name that is empty or a single point stays where it is, and two points go one directory
up.
-/

namespace TieredState

/-- Why a file could not be read or written. -/
inductive FileError where
  | notFound
  -- A name on the way is a file.
  | notDirectory
  | isDirectory
  -- The content is no text.
  | notText
  -- Any other cause, as the file system puts it.
  | other (cause : String)
  deriving DecidableEq, Repr

namespace FileError

def message : FileError → String
  | notFound => "No such file or directory (os error 2)"
  | notDirectory => "Not a directory (os error 20)"
  | isDirectory => "Is a directory (os error 21)"
  | notText => "stream did not contain valid UTF-8"
  | other cause => cause

end FileError

/-- Access to files by their paths. -/
class FileAccess (m : Type → Type) where
  readText (path : String) : m (Except FileError String)
  writeText (path text : String) : m (Except FileError Unit)
  isFile (path : String) : m Bool

/-! ## Paths -/

namespace Path

/-- The names in a path. -/
def names (path : String) : List String := path.splitOn "/"

/-- Whether a name stays in the directory where it is met. -/
def isStay (name : String) : Bool := name = "" || name = "."

/-- The place that a name leads to. -/
def step (here : List String) (name : String) : List String :=
  if isStay name then here else if name = ".." then here.dropLast else here ++ [name]

/-- The last name of a path, points and slashes at its end left out, if it names something in its
directory. -/
def fileName? (path : String) : Option String :=
  match ((names path).filter fun n => !isStay n).getLast? with
  | some name => if name = ".." then none else some name
  | none => none

/-- The path `base` extended by more names. -/
def join (base : String) (names : List String) : String :=
  names.foldl (fun p n => if p.endsWith "/" then p ++ n else p ++ "/" ++ n) base

end Path

/-! ## Trees of files -/

/-- What stands under a name. -/
inductive FileNode where
  | file (content : ByteArray)
  | directory
  -- A place that takes everything and gives nothing back.
  | sink

/-- Files and directories under their places, counted from the root. The directories on the way to
a place exist too. -/
structure FileTree where
  nodes : List (List String × FileNode)

namespace FileTree

/-- The working directory. It stands in the root under the empty name, which no path leads to, so
that nothing but a path without a slash in front gets there. -/
def working : List String := [""]

/-- The sink that every tree has. -/
def sinkPlace : List String := ["dev", "null"]

/-- The tree of the files that are given by their places in the working directory. -/
def ofWorking (files : List (List String × FileNode)) : FileTree where
  nodes :=
    (sinkPlace, .sink) :: (working, .directory) :: files.map fun (place, n) => (working ++ place, n)

instance : Inhabited FileTree := ⟨ofWorking []⟩

/-- What is at a place. -/
def node? (t : FileTree) (place : List String) : Option FileNode :=
  match t.nodes.lookup place with
  | some n => some n
  | none =>
    if place.isEmpty || t.nodes.any fun e => place.isPrefixOf e.1 then some .directory else none

/-- Follow names from a place. All but the last have to lead to directories. -/
def walk (t : FileTree) (here : List String) : List String → Except FileError (List String)
  | [] => .ok here
  | name :: names =>
    match t.node? here with
    | none => .error .notFound
    | some .directory => walk t (Path.step here name) names
    | some _ => .error .notDirectory

/-- The place that a path leads to. -/
def resolve (t : FileTree) (path : String) : Except FileError (List String) :=
  if path.isEmpty then .error .notFound
  else t.walk (if path.startsWith "/" then [] else working) (Path.names path)

/-- Whether a path leads to a file. -/
def isFile (t : FileTree) (path : String) : Bool :=
  match t.resolve path with
  | .error _ => false
  | .ok place =>
    match t.node? place with
    | some (.file _) => true
    | _ => false

/-- The text of a file. -/
def readText (t : FileTree) (path : String) : Except FileError String := do
  match t.node? (← t.resolve path) with
  | none => .error .notFound
  | some .directory => .error .isDirectory
  | some .sink => return ""
  | some (.file content) =>
    match String.fromUTF8? content with
    | some s => return s
    | none => .error .notText

/-- Put a file at a place. -/
def put (t : FileTree) (place : List String) (content : ByteArray) : FileTree :=
  ⟨(place, .file content) :: t.nodes.filter (·.1 ≠ place)⟩

/-- A path without the slashes at its end. -/
def trimmed (path : String) : String :=
  String.ofList (path.toList.reverse.dropWhile (· = '/')).reverse

/-- Write a file, in a directory that exists. A path to nothing that ends in a slash asks for a
directory. -/
def writeText (t : FileTree) (path text : String) : Except FileError FileTree :=
  match t.resolve path with
  | .ok place =>
    match t.node? place with
    | some .directory => .error .isDirectory
    | some .sink => .ok t
    | _ => .ok (t.put place text.toUTF8)
  | .error .notFound =>
    match t.resolve (trimmed path) with
    | .ok _ => if path.endsWith "/" then .error .isDirectory else .error .notFound
    | .error e => .error e
  | .error e => .error e

/-- The files in the working directory, by their places there. -/
def workingFiles (t : FileTree) : List (List String × ByteArray) :=
  t.nodes.filterMap fun (place, n) =>
    match n with
    | .file content =>
      if working.isPrefixOf place then some (place.drop working.length, content) else none
    | _ => none

end FileTree

/-- Files in a tree that each writing changes. -/
instance : FileAccess (StateM FileTree) where
  readText path := return (← get).readText path
  writeText path text := do
    match (← get).writeText path text with
    | .ok t => set t; return .ok ()
    | .error e => return .error e
  isFile path := return (← get).isFile path

end TieredState
