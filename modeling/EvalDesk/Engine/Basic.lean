import EvalDesk.Decoration
import EvalDesk.Disk
import EvalDesk.Engine.State
import EvalDesk.Placement
import EvalDesk.Session.Basic
import EvalDesk.Settings
import EvalDesk.Source
import EvalDesk.Watcher

/-!
# The engine

The engine holds a source and a session and does what is asked for at the desk. What it does
outside itself is written down as effects in order: messages that are sent, changes that are told
to the view, and the start and end of watching. An action may fail; what it has done by then stays
done.
-/
namespace EvalDesk

/-- What a request of the engine is for. -/
inductive Purpose where
  /-- Code is evaluated that comes from an origin. -/
  | evaluation (origin : Origin)
  /-- The documentation of a symbol is shown. -/
  | documentation (symbol : String)
  /-- The definition of a symbol is shown. -/
  | definition (symbol : String)
  /-- The answers are not needed. -/
  | unheard
  deriving DecidableEq, Repr

/-- Something the engine does outside itself. -/
inductive Effect where
  /-- A message is sent. -/
  | sent (message : Message)
  /-- The view is told that the state has changed; the status is this one. -/
  | updated (status : String)
  /-- A file in a directory is watched from now on. -/
  | watched (file directory : String)
  /-- Nothing is watched from now on. -/
  | unwatched
  /-- The connection is closed. -/
  | closed

/-- What the engine finds outside itself. -/
structure World where
  /-- The file tree. -/
  disk : Disk
  /-- The far end of the session. -/
  transport : Transport

/-- The engine. -/
structure Engine where
  /-- The settings. -/
  settings : Settings
  /-- What is known at the desk. -/
  state : DeskState
  /-- The session with the server. -/
  session : Session Purpose
  /-- The decorations of the current evaluation. -/
  decorations : Decorations
  /-- The watch of the source, if it is watched. -/
  watch : Option SaveWatch
  /-- The directory of the project. -/
  projectRoot : Path
  /-- The source. -/
  buffer : Buffer
  /-- The other sources that were opened, each under the path it was asked for by. -/
  opened : List (String × Buffer)
  /-- A tracked request is being sent. -/
  sending : Bool
  /-- The requests that ended while the current one was being sent. -/
  endedEarly : List String
  /-- How many locations of definitions have come back. -/
  locations : Nat
  /-- What was done outside, in order. -/
  effects : List Effect

namespace Engine

/-- The engine for a source, before it is started. -/
def create (disk : Disk) (source : String) (settings : Settings) : Except Fault Engine := do
  let path := (Path.absolute disk.directory source).text
  let ns := settings.get "namespace" (.text "user")
  let limit := settings.get "transcript_limit" DeskState.usualLimit
  let projectRoot ← Discovery.projectRoot disk path
  return {
    settings
    state := .start path ns limit
    session := .start ns .null
    decorations := []
    watch := none
    projectRoot
    buffer := { path }
    opened := []
    sending := false
    endedEarly := []
    locations := 0
    effects := [] }

/-- Something the engine does, which may fail. -/
abbrev Action (α : Type) := ExceptT Fault (StateM Engine) α

/-- Do it; the engine after a failure is the one at the failure. -/
def perform {α : Type} (engine : Engine) (action : Action α) : Engine × Except Fault α :=
  let (result, engine) := action.run.run engine
  (engine, result)

/-- Do something that happens outside. -/
def emit (engine : Engine) (effect : Effect) : Engine :=
  { engine with effects := engine.effects ++ [effect] }

/-- Tell the view that the state has changed. -/
def notify (engine : Engine) : Engine := engine.emit (.updated engine.state.status)

/-- Change what is known. -/
def withState (engine : Engine) (change : DeskState → DeskState) : Engine :=
  { engine with state := change engine.state }

/-- Change the status. -/
def withStatus (engine : Engine) (status : String) : Engine :=
  engine.withState fun state => { state with status }

/-- Change the status and tell the view. -/
def showStatus (engine : Engine) (status : String) : Engine := (engine.withStatus status).notify

/-- There is no connection for a reason. -/
def fail (engine : Engine) (fault : Fault) : Engine :=
  engine.withState fun state =>
    { state with status := "Connection Error: " ++ fault.message, pending := none
                 connected := false }

/-- Add an entry to the transcript. -/
def append (kind : Transcript.Kind) (text : Datum) : Action Unit := fun engine =>
  let (state, result) := engine.state.append kind text
  (result, { engine with state })

end Engine
end EvalDesk
