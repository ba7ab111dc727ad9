import EvalDesk.Engine.Basic

/-!
# Sources of the engine

A path that the server tells is looked for in the project and in the source roots of the settings.
Sources other than the shown one stay open as they were read. The source that is shown is read from
its file or archive, and a file is watched while it is shown.
-/
namespace EvalDesk.Engine

/-- The name of the kind of a path where it cannot be joined with a datum. -/
def pathKind : String := "PosixPath"

/-- The text of a listed datum, which is joined to a path. -/
def listedText : Datum → Except Fault String
  | .text name => .ok name
  | other => .error (.misuse (.operands "/" pathKind other.kind))

/-- The texts that a setting lists: the items of a list, the letters of a text, or the keys of a
table. -/
def listedTexts : Datum → Except Fault (List String)
  | .list items => items.mapM listedText
  | .text letters => .ok (letters.toList.map String.singleton)
  | .table entries => (Table.keys entries).mapM fun key => listedText key.datum
  | other => .error (.misuse (.notIterable other.kind))

/-- The directories in which a relative path is looked for. -/
def bases (engine : Engine) : Except Fault (List Path) := do
  let roots ← listedTexts (engine.settings.get "source_roots" (.list []))
  return engine.projectRoot :: roots.map fun root => engine.projectRoot.join (.ofText root)

/-- The first of some directories that has something under a path. -/
def firstBaseWith? (disk : Disk) (path : Path) : List Path → Except Fault (Option Path)
  | [] => .ok none
  | base :: rest => do
    if ← disk.hasPath (base.join path) then return some (base.join path)
    firstBaseWith? disk path rest

/-- What a path stands for: an absolute path for itself, a relative one for what is found in the
project. -/
def resolvePath (engine : Engine) (disk : Disk) (path : String) : Except Fault (Option Path) := do
  let path := Path.ofText path
  if path.isAbsolute then return if ← disk.hasPath path then some path else none
  return (← firstBaseWith? disk path (← engine.bases)).map Path.normal

/-- Read the source of a path; none when the path leads to the shown source. -/
def readOther (engine : Engine) (disk : Disk) (path : String) : Except Fault (Option Buffer) :=
  match Source.splitEntry? path with
  | some (archive, entry) => (Source.ofEntry disk archive entry).map some
  | none => do
    match ← engine.resolvePath disk path with
    | none => throw (.source (.absent path))
    | some found =>
      if found.text = engine.state.sourcePath then return none
      (Source.ofFile disk found.text).map some

/-- The buffer of a path, as it was read first; none when the path leads to the shown source. -/
def otherBuffer? (engine : Engine) (disk : Disk) (path : String) : Except Fault (Option Buffer) :=
  if path = engine.state.sourcePath then .ok none
  else
    match engine.opened.find? (·.1 = path) with
    | some (_, buffer) => .ok (some buffer)
    | none => engine.readOther disk path

/-- The buffer of a path, and the open sources with it. -/
def openBuffer (engine : Engine) (disk : Disk) (path : String) :
    Except Fault (Buffer × List (String × Buffer)) := do
  match ← engine.otherBuffer? disk path with
  | none => return (engine.buffer, engine.opened)
  | some buffer =>
    if engine.opened.any (·.1 = path) then return (buffer, engine.opened)
    return (buffer, engine.opened ++ [(path, buffer)])

/-- Open the buffer of a path. -/
def openPath (disk : Disk) (path : String) : Action Buffer := do
  let (buffer, opened) ← (← get).openBuffer disk path
  modify fun engine => { engine with opened }
  return buffer

/-- Watch nothing. -/
def stopWatching (engine : Engine) : Engine :=
  if engine.watch.isSome then { engine.emit .unwatched with watch := none } else engine

/-- Watch a file in place of the one that is watched. A file that is not there is not watched. -/
def startWatching (disk : Disk) (path : String) : Action Unit := do
  let resolved ← (Discovery.resolve disk path : Except Fault Path)
  if disk.has resolved.text then
    let watch ← (SaveWatch.start disk resolved.text SaveWatch.usualQuiet : Except Fault SaveWatch)
    modify fun engine =>
      { engine.stopWatching.emit (.watched resolved.text resolved.parent.text) with
        watch := some watch }

/-- Show a buffer as the source. -/
def showBuffer (engine : Engine) (buffer : Buffer) : Engine :=
  { engine with
    buffer
    state := { engine.state with sourcePath := buffer.path }.updateSource buffer.text }

/-- Read the source again. When it cannot be read its buffer is empty and the status tells why. -/
def loadSource (disk : Disk) : Action Unit := do
  let path := (← get).state.sourcePath
  let buffer ← match Source.ofFile disk path with
    | .ok buffer => pure buffer
    | .error (.source problem) =>
      modify (·.withStatus problem.message)
      pure { path }
    | .error fault => throw fault
  modify fun engine =>
    { engine with
      buffer
      opened := engine.opened.filter (·.1 ≠ path)
      state := engine.state.updateSource buffer.text }

/-- Show the source of a location in a file; its path is the one that was found. -/
def visitFile (disk : Disk) (location : Location) : Action Location := do
  match ← (← get).resolvePath disk location.path with
  | none => throw (.source (.absent location.path))
  | some found =>
    let path := found.text
    if path ≠ (← get).state.sourcePath then
      let buffer ← (Source.ofFile disk path : Except Fault Buffer)
      let projectRoot ← (Discovery.projectRoot disk path : Except Fault Path)
      modify fun engine => { engine with projectRoot }
      startWatching disk path
      modify (·.showBuffer buffer)
    return { location with path }

/-- Show the source of a location. A source in an archive is not watched. -/
def visit (disk : Disk) (location : Location) : Action Location :=
  match location.archive with
  | none | some "" => visitFile disk location
  | some archive => do
    let buffer ← openPath disk (Source.entryPath archive location.path)
    modify fun engine => engine.stopWatching.showBuffer buffer
    return location

end EvalDesk.Engine
