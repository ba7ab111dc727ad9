import EvalDesk.CommandLine.Arguments
import EvalDesk.Dialect
import EvalDesk.Session.Connection
import EvalDesk.Settings
import EvalDesk.Discovery

/-!
# Running the program

The command line names a source that exists and can be sent. Then the settings are loaded, the log
is opened, the server is found and the connection is made, and the interface is started. What can be
told to the user ends the program with a message; other faults escape.
-/
namespace EvalDesk.CommandLine

/-- What the interface is started with. -/
structure Launch (Connection : Type) where
  /-- The path of the source. -/
  path : String
  /-- The connection. -/
  connection : Connection
  /-- The settings. -/
  settings : Settings

/-- How an interface ends early. -/
inductive Ending where
  /-- The user breaks it off. -/
  | brokenOff
  /-- It fails. -/
  | failed (fault : Fault)

/-- What the program finds when it is run. -/
structure Environment (Connection : Type) where
  /-- The file tree. -/
  disk : Disk
  /-- The home directory. -/
  home : Path
  /-- The modules that transports come from. -/
  modules : Modules Connection
  /-- The interface. -/
  interface : Launch Connection → Option Ending

/-- What a run of the program has done. -/
structure Report (Connection : Type) where
  /-- The exit code. -/
  exit : Nat
  /-- What was printed. -/
  output : String
  /-- What was printed as errors. -/
  errors : String
  /-- What the interface was started with. -/
  launched : Option (Launch Connection)
  /-- The path of the log. -/
  log : Option String
  /-- The fault that escaped. -/
  escaped : Option Fault

variable {Connection : Type}

namespace Report

/-- The end of the program with a code after printing something. -/
def ended (exit : Nat) (output : String) : Report Connection :=
  { exit, output, errors := "", launched := none, log := none, escaped := none }

/-- A fault escapes. -/
def fault (fault : Fault) : Report Connection := { (ended 0 "") with escaped := some fault }

end Report

/-- The name of the program. -/
def program : String := "replpeek"

/-- How the program is used. -/
def usage : String :=
  "usage: " ++ program ++ " [-h] [--host HOST] [--port PORT] [--transport TRANSPORT]\n" ++
    "                [file]\n"

/-- The help. -/
def helpText : String :=
  usage ++ "\n" ++ program ++ ": a source view wired to a live Clojure REPL\n\n" ++
    "positional arguments:\n" ++
    "  file                  Clojure source file (.clj, .cljs, .cljc, .edn)\n\n" ++
    "options:\n" ++
    "  -h, --help            show this help message and exit\n" ++
    "  --host HOST           nREPL host (default from config)\n" ++
    "  --port PORT           nREPL port (default: .nrepl-port, then config)\n" ++
    "  --transport TRANSPORT\n" ++
    "                        Transport factory as module:callable\n"

/-- What is printed for a flaw of the command line. -/
def flawText (flaw : Flaw) : String := usage ++ program ++ ": error: " ++ flaw.message ++ "\n"

/-- What is printed when no source is named. -/
def noFileText : String :=
  "Error: No source file specified.\nUsage: " ++ program ++
    " <file.clj> [--host HOST] [--port PORT]\n"

/-- The path of the source that is named, or what is printed when it cannot be used. -/
def sourcePath (disk : Disk) (arguments : Arguments) : Except String String :=
  match arguments.file with
  | none | some "" => .error noFileText
  | some file =>
    let path := (Path.absolute disk.directory file).text
    if !disk.has path then .error ("Error: File not found: " ++ path ++ "\n")
    else if !(Dialect.ofPath path).isSupported then
      .error "Error: Unsupported file type. Use .clj, .cljs, .cljc or .edn\n"
    else .ok path

/-- Open the log that the settings name. -/
def openLog (disk : Disk) (settings : Settings) : Except Fault (Disk × String) :=
  match settings.get "log_file" (.text "/tmp/replpeek.log") with
  | .text file => do
    let path := Path.absolute disk.directory file
    return (← disk.openForMore path, path.text)
  | other => .error (.misuse (.notPath other.kind))

/-- The integer that a setting gives. -/
def settingInteger : Datum → Except Fault Int
  | .integer number => .ok number
  | .bool truth => .ok (if truth then 1 else 0)
  | .real number =>
    match number with
    | .infinite _ => .error .infiniteInteger
    | .undefined => .error .undefinedInteger
    | finite => .ok (finite.truncate?.getD 0)
  | .text text => (Text.readInteger text).mapError .integer
  | other => .error (.misuse (.notNumber other.kind))

/-- The port of the server: the one that is given, the one of a server that runs in the project, or
the one of the settings. Zero is none. -/
def serverPort (disk : Disk) (settings : Settings) (arguments : Arguments) (path : String) :
    Except Fault Int := do
  let given := arguments.port.getD 0
  if given ≠ 0 then return given
  let found := (← Discovery.port? disk (Path.ofText path).parent.text).getD 0
  if found ≠ 0 then return found
  settingInteger (settings.get "port" (.integer 7888))

/-- A text that is given and not empty, or the setting. -/
def orSetting (given : Option String) (setting : Datum) : Datum :=
  match given with
  | none | some "" => setting
  | some text => .text text

/-- The connection to the server. -/
def makeConnection (environment : Environment Connection) (disk : Disk) (settings : Settings)
    (arguments : Arguments) (path : String) : Except Fault Connection := do
  let host := orSetting arguments.host (settings.get "host" (.text "127.0.0.1"))
  let port ← serverPort disk settings arguments path
  connect environment.modules
    (orSetting arguments.transport (settings.get "transport" (.text ""))) host port

/-- What is printed when there is no connection. -/
def problemText (problem : TransportProblem) : String :=
  "Error: " ++ problem.message ++ "\n" ++
    match problem.hint? with
    | some hint => hint ++ "\n"
    | none => ""

/-- Start the interface. -/
def launch (environment : Environment Connection) (start : Launch Connection) :
    Report Connection :=
  let report : Report Connection :=
    match environment.interface start with
    | none | some .brokenOff => .ended 0 ""
    | some (.failed fault) => .ended 1 ("Fatal Error: " ++ fault.message ++ "\n")
  { report with launched := some start }

/-- Work on a source with settings, on a file tree with the log in it. -/
def work (environment : Environment Connection) (disk : Disk) (settings : Settings)
    (arguments : Arguments) (path : String) : Report Connection :=
  match makeConnection environment disk settings arguments path with
  | .ok connection => launch environment ⟨path, connection, settings⟩
  | .error (.transport problem) => .ended 1 (problemText problem)
  | .error fault => .fault fault

/-- Load the settings, open the log and work. -/
def workWithSettings (environment : Environment Connection) (arguments : Arguments)
    (path : String) : Report Connection :=
  match Settings.load environment.disk (environment.home.child Settings.directoryName) with
  | (_, .error fault) => .fault fault
  | (disk, .ok settings) =>
    match openLog disk settings with
    | .error fault => .fault fault
    | .ok (disk, log) =>
      { work environment disk settings arguments path with log := some log }

/-- Run the program. -/
def run (environment : Environment Connection) (words : List String) : Report Connection :=
  match read words with
  | .error flaw => { (Report.ended 2 "") with errors := flawText flaw }
  | .ok .help => .ended 0 helpText
  | .ok (.work arguments) =>
    match sourcePath environment.disk arguments with
    | .error message => .ended 1 message
    | .ok path => workWithSettings environment arguments path

end EvalDesk.CommandLine
