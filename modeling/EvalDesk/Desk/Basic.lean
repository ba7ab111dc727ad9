import EvalDesk.Engine.Requests
import EvalDesk.Panel.Peek
import EvalDesk.Panel.Prompt
import EvalDesk.Panel.StatusBar
import EvalDesk.Panel.TranscriptPane

/-!
# The desk

The desk shows what the engine knows: the source in rows, one a line, with a cursor, and panels
around it. The engine does not draw; what it tells and what is entered in the prompt are postings,
which are handled in order after the work that posted them is done.
-/
namespace EvalDesk

/-- A row, which shows a line of the source. -/
structure Desk.Row where
  /-- What is written in it. -/
  content : Styled
  /-- The class of style of the first decoration that touches the line. -/
  decorationClass : Option String
  /-- The cursor is on it. -/
  underCursor : Bool

/-- Something to be handled. -/
inductive Desk.Posting where
  /-- The state has changed. -/
  | changed
  /-- A text was entered in the prompt. -/
  | entered (mode : Panel.Prompt.Mode) (value : String)
  deriving DecidableEq, Repr

/-- A note that is shown for a while. -/
structure Desk.Note where
  /-- What it says. -/
  message : String
  /-- How important it is. -/
  severity : String
  deriving DecidableEq, Repr

/-- The desk. -/
structure Desk where
  /-- The engine. -/
  engine : Engine
  /-- The line of the cursor, counted from zero. -/
  cursor : Nat
  /-- The column of the cursor, counted from zero. -/
  column : Int
  /-- The lines that are shown. -/
  lines : List String
  /-- The path and text of the source whose lines are shown. -/
  shown : Option (String × String)
  /-- The answer with a definition that the cursor was moved to last. -/
  lastAnswer : Option Nat
  /-- How many times the rows were made. -/
  generation : Nat
  /-- The rows. -/
  rows : List Desk.Row
  /-- The status bar. -/
  bar : Panel.StatusBar
  /-- The peek panel, once it was drawn. -/
  peek : Option Styled
  /-- The transcript pane, once it was drawn. -/
  output : Option Styled
  /-- The prompt. -/
  prompt : Panel.Prompt
  /-- The notes in order. -/
  notes : List Desk.Note
  /-- What is to be handled, in order. -/
  postings : List Desk.Posting
  /-- How many effects of the engine were looked at for changes. -/
  seen : Nat

namespace Desk

/-- A desk for an engine that was not started. -/
def start (engine : Engine) : Desk :=
  { engine, cursor := 0, column := 0, lines := [], shown := none, lastAnswer := none
    generation := 0, rows := [], bar := .start, peek := none, output := none, prompt := .start
    notes := [], postings := [], seen := engine.effects.length }

/-- Something done at the desk, which may fail. -/
abbrev Action (α : Type) := ExceptT Fault (StateM Desk) α

/-- Do it; the desk after a failure is the one at the failure. -/
def perform {α : Type} (desk : Desk) (action : Action α) : Desk × Except Fault α :=
  let (result, desk) := action.run.run desk
  (desk, result)

/-- Whether an effect is a change that was told. -/
def isChange : Effect → Bool
  | .updated _ => true
  | _ => false

/-- Post the changes that the engine has told since they were last posted. -/
def collect (desk : Desk) : Desk :=
  let changes := (desk.engine.effects.drop desk.seen).filter isChange
  { desk with
    postings := desk.postings ++ changes.map fun _ => .changed
    seen := desk.engine.effects.length }

/-- Let the engine do something. -/
def engineAction {α : Type} (action : Engine.Action α) : Action α := fun desk =>
  let (engine, result) := desk.engine.perform action
  (result, { desk with engine }.collect)

/-- Let the engine do something that cannot fail. -/
def engineChange (change : Engine → Engine) : Action Unit := engineAction (modify change)

end Desk
end EvalDesk
