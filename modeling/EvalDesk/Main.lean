import EvalDesk.CommandLine.Run

/-!
# The program

The outer layer copies those parts of the file system that a run can look at, runs the program on
the copy, and prints and makes what the report tells. No transports come with the program itself.
-/
namespace EvalDesk

/-- The node at an absolute path, if there is one. -/
def nodeOf (path : String) : IO (Option Disk.Node) := do
  let place := (← IO.currentDir) / path
  if ← place.isDir then return some .directory
  if ← place.pathExists then return some (.file (← IO.FS.readBinFile place).toList)
  return none

/-- Copy what is at a path and above it, and the files with ports beside these. -/
def copyPath (disk : Disk) (path : Path) : IO Disk := do
  let mut copy := disk
  for place in path.ancestors do
    for target in [place, place.child Discovery.portFile] do
      if let some node ← nodeOf target.text then copy := copy.put target.names node
  return copy

/-- Copy what is at some paths. -/
def copyPaths (disk : Disk) (paths : List Path) : IO Disk := paths.foldlM copyPath disk

/-- The path of the log that the settings on a file tree name. -/
def logPath? (disk : Disk) (home : Path) : Option Path :=
  match Settings.load disk (home.child Settings.directoryName) with
  | (_, .ok settings) =>
    (settings.get "log_file" .null).text?.map (Path.absolute disk.directory)
  | (_, .error _) => none

/-- Run the program with some words; the result is the exit code. -/
def runProgram (words : List String) : IO UInt32 := do
  let directory := Path.ofText (← IO.currentDir).toString
  let home := Path.ofText ((← IO.getEnv "HOME").getD "/")
  let settings := home.child Settings.directoryName
  let start := Disk.start directory
  let disk ← copyPaths start
    (Settings.fileIn settings :: words.map (Path.absolute directory))
  let disk ← copyPaths disk (logPath? disk home).toList
  let environment : CommandLine.Environment Empty :=
    { disk, home, modules := [], interface := fun _ => none }
  let report := CommandLine.run environment words
  if let some log := report.log then
    IO.FS.createDirAll settings.text
    IO.FS.withFile log .append fun file => file.flush
  (← IO.getStdout).putStr report.output
  (← IO.getStderr).putStr report.errors
  match report.escaped with
  | none => return report.exit.toUInt32
  | some fault =>
    (← IO.getStderr).putStr (fault.message ++ "\n")
    return 1

end EvalDesk

/-- Run the program. -/
def main (words : List String) : IO UInt32 := EvalDesk.runProgram words
