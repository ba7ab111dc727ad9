import EvalDesk.Fault
import EvalDesk.Path

/-!
# The file tree

A tree of directories, files and archives, and the directory in which relative paths start. A path
is looked up name by name as it is written: every name but the last must be that of a directory,
even when the next one leads up again, and a path that ends in a slash names a directory.
-/
namespace EvalDesk

/-- What a path names. -/
inductive Disk.Node where
  /-- A file and its bytes. -/
  | file (content : List UInt8)
  /-- A directory. -/
  | directory
  /-- An archive and its entries, each with its bytes. -/
  | archive (entries : List (String × List UInt8))
  deriving DecidableEq, Repr

/-- A file tree. -/
structure Disk where
  /-- The nodes, each under the names that lead to it from the top. -/
  nodes : List (List String × Disk.Node)
  /-- The working directory. -/
  directory : Path

namespace Disk

/-- The longest name, in bytes. -/
def longestName : Nat := 255

/-- The longest path, in bytes. -/
def longestPath : Nat := 4095

/-- The node under names; the top is a directory. -/
def node? (disk : Disk) (names : List String) : Option Node :=
  if names = [] then some .directory else (disk.nodes.find? (·.1 = names)).map (·.2)

/-- Follow names from a node on. -/
def follow (disk : Disk) (names : List String) (node : Node) :
    List String → Except SystemError (List String × Node)
  | [] => .ok (names, node)
  | name :: rest =>
    if node ≠ .directory then .error .notDirectory
    else if name = "." then follow disk names node rest
    else if name = Path.above then follow disk names.dropLast .directory rest
    else if longestName < name.utf8ByteSize then .error .nameTooLong
    else
      match disk.node? (names ++ [name]) with
      | none => .error .missing
      | some inner => follow disk (names ++ [name]) inner rest

/-- The names of a path as it is written; a slash at its end stands for the directory itself. -/
def writtenNames (path : String) : List String :=
  let parts := (Text.splitOn '/' path.toList).filter (· ≠ [])
  parts.map String.ofList ++ (if path.toList.getLast? = some '/' then ["."] else [])

/-- The names at which a path starts. -/
def startNames (disk : Disk) (path : String) : List String :=
  if path.toList.head? = some '/' then [] else disk.directory.names

/-- The names from the top and the node that a path names. -/
def find (disk : Disk) (path : String) : Except SystemError (List String × Node) :=
  if path = "" then .error .missing
  else if longestPath < path.utf8ByteSize then .error .nameTooLong
  else disk.follow (disk.startNames path) .directory (writtenNames path)

/-- The node that a path names, or the reason there is none. -/
def lookUp (disk : Disk) (path : String) : Except Fault Node :=
  if path.toList.contains '\x00' then .error .nullInPath
  else
    match disk.find path with
    | .ok (_, node) => .ok node
    | .error error => .error (.system error path)

/-- Whether a path names anything. -/
def has (disk : Disk) (path : String) : Bool := (disk.lookUp path).isOk

/-- The node that a path names, none when there is none; a name that is too long is a fault. -/
def nodeAt (disk : Disk) (path : Path) : Except Fault (Option Node) :=
  match disk.lookUp path.text with
  | .ok node => .ok (some node)
  | .error (.system .nameTooLong name) => .error (.system .nameTooLong name)
  | .error _ => .ok none

/-- Whether a path names anything; a name that is too long is a fault. -/
def hasPath (disk : Disk) (path : Path) : Except Fault Bool :=
  (disk.nodeAt path).map Option.isSome

/-- Whether a path names a file; a name that is too long is a fault. -/
def hasFile (disk : Disk) (path : Path) : Except Fault Bool :=
  (disk.nodeAt path).map fun node => node.isSome && node ≠ some .directory

/-- The bytes of a file. An archive has bytes too, which are no text. -/
def readBytes (disk : Disk) (path : String) : Except Fault (List UInt8) := do
  match ← disk.lookUp path with
  | .file content => return content
  | .directory => throw (.system .isDirectory path)
  | .archive _ => return [0xff]

/-- The text of a file, with its line ends made line feeds. -/
def readText (disk : Disk) (path : String) : Except Fault String := do
  match Text.Utf8.decode (← disk.readBytes path) with
  | .ok text => return String.ofList (Text.unifyLineEnds text.toList)
  | .error flaw => throw (.undecodable flaw)

/-- Put a node under names, in place of what stands there. -/
def put (disk : Disk) (names : List String) (node : Node) : Disk :=
  { disk with nodes := (names, node) :: disk.nodes.filter (·.1 ≠ names) }

/-- Remove the node under names. -/
def erase (disk : Disk) (names : List String) : Disk :=
  { disk with nodes := disk.nodes.filter (·.1 ≠ names) }

/-- Make the missing directories that lead along names below others, as far as no file is in the
way. -/
def makeDirectoriesFrom (disk : Disk) (names : List String) : List String → Disk
  | [] => disk
  | name :: rest =>
    match disk.node? (names ++ [name]) with
    | none => makeDirectoriesFrom (disk.put (names ++ [name]) .directory) (names ++ [name]) rest
    | some .directory => makeDirectoriesFrom disk (names ++ [name]) rest
    | some _ => disk

/-- Make the missing directories that lead to an absolute path. -/
def makeDirectories (disk : Disk) (path : Path) : Disk := disk.makeDirectoriesFrom [] path.names

/-- Write a file at an absolute path; its directory must be there. -/
def write (disk : Disk) (path : Path) (content : List UInt8) : Except Fault Disk :=
  if path.text.toList.contains '\x00' then .error .nullInPath
  else
    match disk.find path.text with
    | .ok (_, .directory) => .error (.system .isDirectory path.text)
    | .ok (names, _) => .ok (disk.put names (.file content))
    | .error .missing =>
      match disk.find path.parent.text with
      | .ok (names, .directory) => .ok (disk.put (names ++ [path.name]) (.file content))
      | .ok _ => .error (.system .notDirectory path.text)
      | .error error => .error (.system error path.text)
    | .error error => .error (.system error path.text)

/-- Open a file at an absolute path for more text: it is made when it is missing. -/
def openForMore (disk : Disk) (path : Path) : Except Fault Disk :=
  match disk.lookUp path.text with
  | .ok .directory => .error (.system .isDirectory path.text)
  | .ok _ => .ok disk
  | .error _ => disk.write path []

/-- A file tree with a working directory and nothing in it. -/
def start (directory : Path) : Disk := (Disk.mk [] directory).makeDirectories directory

/-- What was put under names stands there. -/
theorem node?_put (disk : Disk) {names : List String} (node : Node) (below : names ≠ []) :
    (disk.put names node).node? names = some node := by
  simp [node?, put, below]

/-- Putting a node under names leaves the other nodes as they are. -/
theorem node?_put_of_ne (disk : Disk) {names other : List String} (node : Node)
    (different : other ≠ names) : (disk.put names node).node? other = disk.node? other := by
  unfold node? put
  split
  · rfl
  · have apart : ¬names = other := fun same => different same.symm
    simp only [List.find?_cons, apart, decide_false, List.find?_filter]
    congr 2
    funext entry
    by_cases same : entry.1 = other
    · simp [same, different]
    · simp [same]

end Disk
end EvalDesk
