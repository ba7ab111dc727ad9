import EvalDesk.CommandLine.Run
import EvalDesk.Proofs.Datum.Writable
import EvalDesk.Proofs.SavedSettings
import EvalDesk.Proofs.Session.Connection

/-!
# How the program ends

Once the command line names a source that can be used, the program reads settings, opens the log,
finds the server and makes the connection. Only a missing connection is caught there. So the program
starts the interface or ends with a message, unless the settings cannot be loaded, the log cannot be
opened, no port is found where the settings have no integer for it, or making the connection breaks
off other than by a report.
-/
namespace EvalDesk.CommandLine

variable {Connection : Type}

/-- The text of an error as it is printed. -/
def TellsError (output : String) : Prop := ∃ text, output = "Error: " ++ text

/-! ## The source -/

section Work

variable (environment : Environment Connection) (disk : Disk) (settings : Settings)
  (arguments : Arguments) (path : String)

/-- The program has started the interface, or it has told an error or the help and ended. -/
def Settled (report : Report Connection) : Prop :=
  report.escaped = none ∧
    ((∃ start, report.launched = some start) ∨
      (report.exit = 1 ∧ TellsError report.output) ∨
      (report.exit = 2 ∧ ∃ flaw, report.errors = flawText flaw) ∨
      (report.exit = 0 ∧ report.output = helpText))

end Work

/-! ## The whole run -/

/-- A program with a source and an empty table of settings, and without modules. -/
def bare : Environment Unit :=
  { disk :=
      { nodes := [(["tmp"], .directory), (["home"], .directory), (["home", "a.clj"], .file []),
          (["home", Settings.directoryName], .directory),
          (["home", Settings.directoryName, Settings.fileName], .file [0x7b, 0x7d])]
        directory := ⟨.top, ["home"]⟩ }
    home := ⟨.top, ["home"]⟩
    modules := []
    interface := fun _ => none }

end EvalDesk.CommandLine
