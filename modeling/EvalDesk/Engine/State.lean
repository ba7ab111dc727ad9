import EvalDesk.Diagnostic.Shape
import EvalDesk.Location
import EvalDesk.Text.Lines
import EvalDesk.Transcript

/-!
# What is known at the desk

The state holds everything that is shown: the source, the session, the results of evaluations and
the diagnostics of the current one. An evaluation cycle starts without diagnostics and with nothing
pending.
-/
namespace EvalDesk

/-- The location of a definition that was asked for. Each answer has a number of its own, so two
answers can be told apart even when they name the same place. -/
structure Definition where
  /-- Where it stands. -/
  location : Location
  /-- The number of the answer. -/
  answer : Nat
  deriving DecidableEq, Repr

/-- What is known at the desk. -/
structure DeskState where
  /-- The path of the source. -/
  sourcePath : String
  /-- The text of the source. -/
  sourceText : String
  /-- The lines of the source, ended by any line break. -/
  sourceLines : List String
  /-- The namespace that is shown. -/
  ns : Datum
  /-- The identity of the session. -/
  identity : Datum
  /-- Whether there is a connection. -/
  connected : Bool
  /-- What was sent and what came back. -/
  transcript : Transcript
  /-- How many entries the transcript keeps. -/
  transcriptLimit : Datum
  /-- The last value that came back. -/
  lastValue : Datum
  /-- The documentation that was asked for last. -/
  documentation : String
  /-- The definition that was asked for last, once it is known. -/
  definition : Option Definition
  /-- The diagnostics of the current evaluation. -/
  diagnostics : List Diagnostic
  /-- The status of the last request. -/
  status : String
  /-- The identity of the evaluation that runs. -/
  pending : Option String

namespace DeskState

/-- The state before anything has happened. -/
def start (sourcePath : String) (ns transcriptLimit : Datum) : DeskState :=
  { sourcePath, sourceText := "", sourceLines := [], ns, identity := .null, connected := false
    transcript := [], transcriptLimit, lastValue := .null, documentation := ""
    definition := none, diagnostics := [], status := "idle", pending := none }

/-- How many entries a transcript keeps, if nothing else is said. -/
def usualLimit : Datum := .integer 500

/-- One of the diagnostics is more than a warning. -/
def hasErrors (state : DeskState) : Bool := state.diagnostics.any (·.severity ≠ .warning)

/-- Add an entry to the transcript. -/
def append (state : DeskState) (kind : Transcript.Kind) (text : Datum) :
    DeskState × Except Fault Unit :=
  let (transcript, result) := state.transcript.add state.transcriptLimit ⟨kind, text⟩
  ({ state with transcript }, result)

/-- Start a new evaluation cycle. -/
def resetCycle (state : DeskState) : DeskState := { state with diagnostics := [], pending := none }

/-- Show another text as the source. -/
def updateSource (state : DeskState) (text : String) : DeskState :=
  { state with sourceText := text, sourceLines := Text.outputLines text }

/-- A line of the source by its number. -/
def line? (state : DeskState) (number : Int) : Option String :=
  if number < 1 then none else state.sourceLines[number.toNat - 1]?

/-- Add a diagnostic. -/
def addDiagnostic (state : DeskState) (diagnostic : Diagnostic) : DeskState :=
  { state with diagnostics := state.diagnostics ++ [diagnostic] }

end DeskState
end EvalDesk
