import EvalDesk.Desk.Rows

/-!
# Commands of the desk

A key stands for a command. While the prompt is shown the commands that move the cursor are blocked;
all others are still done.
-/
namespace EvalDesk.Desk

/-- A command. -/
inductive Command where
  /-- Leave the desk. -/
  | quit
  /-- Evaluate the outermost form at the cursor. -/
  | evaluateForm
  /-- Evaluate the last expression of the line. -/
  | evaluateLast
  /-- Load the source. -/
  | loadSource
  /-- Ask for an expression. -/
  | askExpression
  /-- Ask for a namespace. -/
  | askNamespace
  /-- Evaluate the form that declares the namespace. -/
  | evaluateNamespaceForm
  /-- Show the documentation of the symbol at the cursor. -/
  | documentation
  /-- Show the definition of the symbol at the cursor. -/
  | definition
  /-- Stop the evaluation that runs. -/
  | interrupt
  /-- Remove the decorations. -/
  | clear
  /-- Move the cursor up. -/
  | up
  /-- Move the cursor down. -/
  | down
  /-- Move the cursor to the left. -/
  | left
  /-- Move the cursor to the right. -/
  | right
  deriving DecidableEq, Repr

/-- The keys and their commands. -/
def bindings : List (String × Command) :=
  [("q", .quit), ("e", .evaluateForm), ("l", .evaluateLast), ("b", .loadSource),
    ("x", .askExpression), ("n", .askNamespace), ("s", .evaluateNamespaceForm),
    ("d", .documentation), ("full_stop", .definition), ("i", .interrupt), ("c", .clear),
    ("up", .up), ("down", .down), ("left", .left), ("right", .right), ("k", .up), ("j", .down)]

/-- The command of a key. -/
def Command.ofKey? (key : String) : Option Command := (bindings.find? (·.1 = key)).map (·.2)

/-- Whether a command moves the cursor. -/
def Command.movesCursor : Command → Bool
  | .up | .down | .left | .right => true
  | _ => false

/-- Whether a command may be done now. -/
def allows (desk : Desk) (command : Command) : Bool := !(command.movesCursor && desk.prompt.shown)

/-- The offset of the cursor in the buffer. -/
def cursorOffset (desk : Desk) : Except Fault Nat :=
  if desk.lines = [] then .ok 0
  else desk.engine.buffer.offset (desk.cursor + 1) (desk.column + 1)

/-- The symbol at the cursor. -/
def symbolAtCursor (desk : Desk) : Except Fault (Option String) :=
  desk.cursorOffset.map (Form.symbolAt desk.engine.buffer.chars)

/-- The offset of the end of the line of the cursor. -/
def lineEnd (desk : Desk) : Except Fault Nat := do
  if desk.lines = [] then return 0
  return (← desk.lineStart desk.cursor) + (← desk.lineAt desk.cursor).length

/-- Do something with the symbol at the cursor, or note that there is none. -/
def withSymbol (change : String → Engine → Engine) : Action Unit := do
  match ← ((← get).symbolAtCursor : Except Fault (Option String)) with
  | none | some "" =>
    modify fun desk => { desk with notes := desk.notes ++ [⟨"No symbol at cursor", "warning"⟩] }
  | some symbol => engineChange (change symbol)

/-- Do a command. -/
def run (world : World) (command : Command) : Action Unit := do
  let desk ← get
  let line : Int := desk.cursor
  match command with
  | .quit => pure ()
  | .evaluateForm =>
    let offset ← (desk.cursorOffset : Except Fault Nat)
    engineAction (Engine.evaluateTopLevel world offset)
  | .evaluateLast =>
    let offset ← (desk.lineEnd : Except Fault Nat)
    engineAction (Engine.evaluateLast world offset)
  | .loadSource => engineAction (Engine.evaluateBuffer world)
  | .askExpression => set { desk with prompt := desk.prompt.ask .expression (.text "") }
  | .askNamespace => set { desk with prompt := desk.prompt.ask .ns desk.engine.state.ns }
  | .evaluateNamespaceForm => engineAction (Engine.evaluateNamespaceForm world)
  | .documentation => withSymbol (Engine.askDocumentation world)
  | .definition => withSymbol (Engine.askDefinition world)
  | .interrupt => engineChange (Engine.interrupt world)
  | .clear => engineChange Engine.clearDecorations
  | .up => moveCursor (line - 1) none
  | .down => moveCursor (line + 1) none
  | .left => moveCursor line (some (max (desk.column - 1) 0))
  | .right => moveCursor line (some (desk.column + 1))

/-- Do a command several times. -/
def repeated (world : World) (command : Command) : Nat → Action Unit
  | 0 => pure ()
  | times + 1 => do
    run world command
    repeated world command times

/-- Enter a text in the prompt. -/
def enter (desk : Desk) (text : String) : Desk :=
  { desk with
    prompt := desk.prompt.close
    postings := desk.postings ++
      ((Panel.Prompt.entered? text).map (Posting.entered desk.prompt.mode)).toList }

/-- A key is pressed in the prompt. -/
def promptKey (desk : Desk) (key : String) : Desk :=
  if key = "escape" then { desk with prompt := desk.prompt.close } else desk

end EvalDesk.Desk
