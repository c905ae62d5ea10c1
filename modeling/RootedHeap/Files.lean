/-!
Files and folders, as far as reading and writing one file needs them. A path is a list of names to
follow, from the top if its text starts with a slash, and from the working folder otherwise; `..`
leads back to the folder above. A path whose text ends in a slash, or in a name of dots, can only
mean a folder. Names have at most 255 bytes and paths at most 4095.
-/

namespace RootedHeap

structure Path where
  absolute : Bool
  /-- What stands between the slashes, after the first one of an absolute path. -/
  parts : List String
  deriving DecidableEq

namespace Path

def ofText (text : String) : Path :=
  match text.splitOn "/" with
  | "" :: part :: parts => ⟨true, part :: parts⟩
  | parts => ⟨false, parts⟩

/-- Whether a part leads nowhere: two slashes in a row, or a single dot. -/
def isIdle (part : String) : Bool := part == "" || part == "."

def names (p : Path) : List String := p.parts.filter fun part => !isIdle part

/-- Whether the path can only mean a folder. -/
def isFolder (p : Path) : Bool :=
  match p.parts.getLast? with
  | none => true
  | some last => isIdle last || last == ".."

def parent (p : Path) : Path :=
  { p with parts := (((p.parts.reverse.dropWhile isIdle).drop 1).dropWhile isIdle).reverse }

def text (p : Path) : String := (if p.absolute then "/" else "") ++ "/".intercalate p.parts

/-- Whether the path is short enough to be followed at all. -/
def fits (p : Path) : Bool := p.text.utf8ByteSize ≤ 4095

end Path

/-- What stands at a place. -/
inductive Node where
  | file (content : ByteArray)
  | folder (entries : List (String × Node))
  /-- A file that reads as empty, whatever is written to it. -/
  | void

namespace Node

/-- What stands in a node under its names: nothing, unless it is a folder. -/
def entries : Node → List (String × Node)
  | .folder entries => entries
  | _ => []

/-- What names lead to from a node. -/
def find? (node : Node) : (names : List String) → Option Node
  | [] => some node
  | name :: rest => (node.entries.lookup name).bind fun inner => inner.find? rest

/-- The node with another one put where names lead to, and folders made on the way to it. -/
def put (node new : Node) : (names : List String) → Node
  | [] => new
  | name :: rest =>
    let inner := (node.entries.lookup name).getD (.folder [])
    .folder ((name, inner.put new rest) :: node.entries.filter fun entry => entry.1 ≠ name)

end Node

/-- All files and folders. A place is the list of the names that lead to it from the top. -/
structure Files where
  top : Node
  working : List String

namespace Files

/-- An empty working folder, and the void at `/dev/null`. -/
def empty : Files :=
  ⟨.folder [("work", .folder []), ("dev", .folder [("null", .void)])], ["work"]⟩

def node? (files : Files) (place : List String) : Option Node := files.top.find? place

/-- The files with something put at a place. -/
def put (files : Files) (place : List String) (node : Node) : Files :=
  { files with top := files.top.put node place }

/-- Whether a name can be that of a file: it has no null character and not more than 255 bytes. -/
def isName (name : String) : Bool := !name.toList.contains '\x00' && name.utf8ByteSize ≤ 255

/-- The place that a name leads to from a folder. -/
def step (place : List String) (name : String) : List String :=
  if name = ".." then place.dropLast else place ++ [name]

/-- The place where a path starts. -/
def start (files : Files) (path : Path) : List String :=
  if path.absolute then [] else files.working

/-- The files with a file at a path, wherever that is. -/
def add (files : Files) (path : Path) (content : ByteArray) : Files :=
  files.put (path.names.foldl step (files.start path)) (.file content)

/-- The place that names lead to, if each of them is there. -/
def follow (files : Files) (place : List String) : (names : List String) → Option (List String)
  | [] => some place
  | name :: rest =>
    match files.node? place, files.node? (step place name) with
    | some (.folder _), some _ => files.follow (step place name) rest
    | _, _ => none

/-- The place that a path leads to, if there is anything. -/
def locate (files : Files) (path : Path) : Option (List String) :=
  if path.fits then files.follow (files.start path) path.names else none

def read (files : Files) (path : Path) : Option ByteArray :=
  if path.isFolder then none
  else
    match files.locate path >>= files.node? with
    | some (.file content) => some content
    | some .void => some .empty
    | _ => none

/-- The files with every folder on a way that is not there yet. -/
def makeWay (files : Files) (place : List String) : (names : List String) → Option Files
  | [] => some files
  | name :: rest =>
    let next := step place name
    match files.node? next with
    | some (.folder _) => files.makeWay next rest
    | some _ => none
    | none => if isName name then (files.put next (.folder [])).makeWay next rest else none

/-- The files with the folder of a path, and every folder on the way to it. -/
def makeFolder (files : Files) (path : Path) : Option Files :=
  if path.fits then files.makeWay (files.start path) path.names else none

/-- The files with a file written at a path, whose folder must be there. -/
def write (files : Files) (path : Path) (content : ByteArray) : Option Files := do
  let place ← files.locate path.parent
  let name ← path.names.getLast?
  if path.isFolder || !path.fits || !isName name then none
  else
    match files.node? place, files.node? (step place name) with
    | some (.folder _), some (.file _) | some (.folder _), none =>
      return files.put (step place name) (.file content)
    | some (.folder _), some .void => return files
    | _, _ => none

end Files

end RootedHeap
