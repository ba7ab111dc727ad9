import EvalDesk.Datum.Basic

/-!
# The status bar

The bar shows the source with its dialect, the namespace, the connection, the status of the last
request and how many diagnostics there are. What is not known takes no place.
-/
namespace EvalDesk.Panel

/-- What the bar shows. -/
structure StatusBar where
  /-- The path of the source. -/
  file : String
  /-- The namespace. -/
  ns : Datum
  /-- The status of the last request. -/
  status : String
  /-- Whether there is a connection. -/
  connected : Bool
  /-- How many diagnostics there are. -/
  diagnostics : Int
  /-- The label of the dialect. -/
  dialect : String

namespace StatusBar

/-- The bar before anything is known. -/
def start : StatusBar :=
  { file := "", ns := .text "", status := "idle", connected := false, diagnostics := 0
    dialect := "" }

/-- What is to be shown instead; what is absent stays as it is. -/
structure Change where
  /-- Another source. -/
  file : Option String
  /-- Another namespace. -/
  ns : Datum
  /-- Another status. -/
  status : Option String
  /-- Another state of the connection. -/
  connected : Option Bool
  /-- Another number of diagnostics. -/
  diagnostics : Option Int
  /-- Another label of a dialect. -/
  dialect : Option String

/-- The bar after a change. -/
def apply (bar : StatusBar) (change : Change) : StatusBar :=
  { file := change.file.getD bar.file
    ns := match change.ns with
      | .null => bar.ns
      | other => other
    status := change.status.getD bar.status
    connected := change.connected.getD bar.connected
    diagnostics := change.diagnostics.getD bar.diagnostics
    dialect := change.dialect.getD bar.dialect }

/-- What stands between two parts. -/
def separator : String := "  │  "

/-- The part for the source. -/
def filePart (bar : StatusBar) : List String :=
  if bar.file = "" then []
  else if bar.dialect = "" then [bar.file]
  else [bar.dialect ++ " " ++ bar.file]

/-- The part for the namespace, which must be one that can be shown. -/
def nsPart (bar : StatusBar) : Except Fault (List String) := do
  if bar.ns.isPresent then return ["ns " ++ (← bar.ns.shown)]
  return []

/-- The part for the diagnostics. -/
def diagnosticsPart (bar : StatusBar) : List String :=
  if bar.diagnostics = 0 then [] else [toString bar.diagnostics ++ " diagnostic(s)"]

/-- The text of the bar. -/
def text (bar : StatusBar) : Except Fault String := do
  let nsPart ← bar.nsPart
  return separator.intercalate
    (bar.filePart ++ nsPart ++ [if bar.connected then "connected" else "disconnected"] ++
      [bar.status] ++ bar.diagnosticsPart)

end StatusBar
end EvalDesk.Panel
