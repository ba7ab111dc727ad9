import EvalDesk.Disk

/-!
# Finding the project

The directory of a project is the nearest one above a source that holds one of the files projects
are marked with; without one it is the directory of the source. A server that runs in a project
writes its port into a file, which is looked for in the same way.
-/
namespace EvalDesk.Discovery

/-- The names of the files that mark a project. -/
def markers : List String :=
  ["project.clj", "deps.edn", "build.boot", "shadow-cljs.edn", "bb.edn", ".nrepl-port"]

/-- The name of the file with the port of a server. -/
def portFile : String := ".nrepl-port"

/-- Whether a directory holds one of some names; they are looked for in order. -/
def holdsAny (disk : Disk) (directory : Path) : List String → Except Fault Bool
  | [] => .ok false
  | name :: rest => do
    if ← disk.hasPath (directory.child name) then return true
    holdsAny disk directory rest

/-- The first of some directories that holds a marker. -/
def firstMarked? (disk : Disk) : List Path → Except Fault (Option Path)
  | [] => .ok none
  | directory :: rest => do
    if ← holdsAny disk directory markers then return some directory
    firstMarked? disk rest

/-- The directory of the project that a source belongs to. -/
def projectRoot (disk : Disk) (source : String) : Except Fault Path := do
  let start := (Path.absolute disk.directory source).parent
  return (← firstMarked? disk start.ancestors).getD start

/-- A path with all directories on its way resolved. -/
def resolve (disk : Disk) (path : String) : Except Fault Path :=
  if path.toList.contains '\x00' then .error .nullInPath
  else .ok (Path.absolute disk.directory path).withSingleRoot

/-- The first of some directories that holds a file with a port. -/
def firstWithPort? (disk : Disk) : List Path → Except Fault (Option Path)
  | [] => .ok none
  | directory :: rest => do
    if ← disk.hasFile (directory.child portFile) then return some (directory.child portFile)
    firstWithPort? disk rest

/-- The port that a file holds, none when it holds no number. -/
def portIn (disk : Disk) (file : Path) : Option Int :=
  match disk.readText file.text with
  | .error _ => none
  | .ok text => (Text.readInteger (Text.strip text)).toOption

/-- The port of the server that runs in the nearest directory from a path on. A file that holds
no number ends the search. -/
def port? (disk : Disk) (start : String) : Except Fault (Option Int) := do
  match ← firstWithPort? disk (← resolve disk start).ancestors with
  | none => return none
  | some file => return portIn disk file

end EvalDesk.Discovery
