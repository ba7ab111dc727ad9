import EvalDesk.Desk.Basic
import EvalDesk.Dialect
import EvalDesk.Highlight

/-!
# Rows of the desk

A row shows the number of a line, the line highlighted, the decorations that touch it, and the
cursor. All rows are made anew when another source is shown; otherwise they are painted again in
place. The lines that are shown may be older than the buffer, and a line that the buffer does not
have cannot be painted.
-/
namespace EvalDesk.Desk

/-- The style of the mark in front of a row. -/
def markStyle : String := "bold #fecd91"

/-- The line at a position, which may count from the end. -/
def lineAt (desk : Desk) (position : Int) : Except Fault (List Char) :=
  match (Text.place? desk.lines.length position).bind (desk.lines[·]?) with
  | some line => .ok line.toList
  | none => .error (.ofPosition position .outsideList)

/-- The offset of the start of a line in the buffer. -/
def lineStart (desk : Desk) (index : Int) : Except Fault Nat :=
  desk.engine.buffer.offset (index + 1) 1

/-- The decorations that touch a line. -/
def lineDecorations (desk : Desk) (index : Int) : Except Fault Decorations := do
  let start ← desk.lineStart index
  let line ← desk.lineAt index
  return desk.engine.decorations.overlapping desk.engine.buffer.path start (start + line.length)

/-- What is written in a row; nothing behind the last line. -/
def renderLine (desk : Desk) (index : Int) : Except Fault Styled := do
  if desk.lines.length ≤ index then return .empty
  let line ← desk.lineAt index
  let decorations ← desk.lineDecorations index
  let start ← desk.lineStart index
  let row := Styled.empty.append (if index = desk.cursor then "▶ " else "  ").toList markStyle
  let row := row.append (Panel.Peek.padded 4 (index + 1) ++ [' ']) "dim"
  let body := decorations.drawOn start line.length (Highlight.line line)
  let body :=
    if index = desk.cursor ∧ desk.column ≤ line.length then
      body.stylize "reverse" desk.column (desk.column + 1)
    else body
  return row.appendStyled body

/-- The row of a line. -/
def makeRow (desk : Desk) (index : Nat) : Except Fault Row := do
  let content ← desk.renderLine index
  let decorations ← desk.lineDecorations index
  return {
    content
    decorationClass := decorations.head?.map (·.style)
    underCursor := index = desk.cursor }

/-- Make all rows anew. -/
def populate : Action Unit := do
  modify fun desk => { desk with rows := [], generation := desk.generation + 1 }
  let desk ← get
  let rows ← ((List.range desk.lines.length).mapM desk.makeRow : Except Fault (List Row))
  modify fun desk => { desk with rows }

/-- Change the row of a line. -/
def changeRow (index : Nat) (change : Row → Row) : Action Unit :=
  modify fun desk => { desk with rows := desk.rows.modify index change }

/-- Paint the row of a line again, if there is one. -/
def repaintRow (index : Nat) : Action Unit := do
  if index < (← get).rows.length then
    changeRow index fun row => { row with decorationClass := none }
    let desk ← get
    let decorations ← (desk.lineDecorations index : Except Fault Decorations)
    changeRow index fun row =>
      { row with
        decorationClass := decorations.head?.map (·.style)
        underCursor := index = desk.cursor }
    let content ← (desk.renderLine index : Except Fault Styled)
    changeRow index fun row => { row with content }

/-- Paint rows again in order. -/
def repaint (indices : List Nat) : Action Unit := indices.forM repaintRow

/-- The place of a number in a table of eight places, when one of them may be taken: the number
itself tells the first place, and its further digits to the base 32 the ones after that. -/
def placeInTable (taken : Option Nat) : Nat → Nat → Nat → Nat
  | 0, place, _ => place
  | tries + 1, place, digits =>
    if some place = taken then
      placeInTable taken tries ((place * 5 + 1 + digits / 32) % 8) (digits / 32)
    else place

/-- Two lines in the order in which their rows are painted again: that of a table of eight places,
into which they are put one after the other. -/
def paintOrder (old new : Nat) : List Nat :=
  if old = new then [new]
  else if old % 8 < placeInTable (some (old % 8)) 64 (new % 8) new then [old, new]
  else [new, old]

/-- Draw the peek panel for the line of the cursor. -/
def syncPeek (desk : Desk) : Desk :=
  let peek : Panel.Peek :=
    { lines := desk.engine.state.sourceLines
      decorations := desk.engine.decorations.onSurface desk.engine.buffer.path
      documentation := desk.engine.state.documentation }
  { desk with peek := some (peek.textFor (desk.cursor + 1)) }

/-- Move the cursor to a line that is shown, and to a column if one is given; it does not go behind
the end of the line. -/
def moveCursor (line : Int) (column : Option Int) : Action Unit := do
  let desk ← get
  if 0 ≤ line ∧ line < desk.lines.length then
    let index := line.toNat
    let length : Int := (desk.lines.getD index "").length
    set { desk with cursor := index, column := min (column.getD desk.column) length }
    repaint (paintOrder desk.cursor index)
    modify syncPeek

/-- Show the lines of the source of the engine, when it is another one than is shown. -/
def showSource : Action Unit := do
  let desk ← get
  let state := desk.engine.state
  let source := (state.sourcePath, state.sourceText)
  if desk.shown = some source then repaint (List.range desk.lines.length)
  else
    let lines := if state.sourceText = "" then [] else desk.engine.buffer.lines
    set { desk with
      shown := some source, lines, cursor := min desk.cursor (lines.length - 1) }
    populate

/-- Move the cursor to a definition that has come back since. -/
def showDefinition : Action Unit := do
  let desk ← get
  match desk.engine.state.definition with
  | none => pure ()
  | some found =>
    if desk.lastAnswer ≠ some found.answer then
      set { desk with lastAnswer := some found.answer }
      let column := found.location.column.getD 1
      moveCursor (max (found.location.line - 1) 0)
        (some (max ((if column = 0 then 1 else column) - 1) 0))

/-- Draw the transcript. -/
def showTranscript : Action Unit := do
  let state := (← get).engine.state
  let shown := state.transcript.last Panel.TranscriptPane.shownEntries
  let output ← (Panel.TranscriptPane.render shown state.ns : Except Fault Styled)
  modify fun desk => { desk with output := some output }

/-- Tell the status bar what to show. -/
def syncBar (desk : Desk) : Desk :=
  let state := desk.engine.state
  { desk with
    bar := desk.bar.apply {
      file := state.sourcePath
      ns := state.ns
      status := state.status
      connected := state.connected
      diagnostics := some state.diagnostics.length
      dialect := (Dialect.ofPath state.sourcePath).label } }

/-- Draw the status bar. It keeps what it was told when its text cannot be made. -/
def showBar : Action Unit := do
  modify syncBar
  discard (((← get).bar.text : Except Fault String) : Action String)

/-- Draw everything for a state that has changed. -/
def showChange : Action Unit := do
  showSource
  showDefinition
  showTranscript
  showBar
  modify syncPeek

/-- Handle a posting. -/
def handle (world : World) : Posting → Action Unit
  | .changed => showChange
  | .entered .ns value => engineAction (Engine.changeNamespace world value)
  | .entered .expression value => engineAction (Engine.evaluateCode world value)

/-- Handle as many postings as there are given. -/
def handleFirst (world : World) : List Posting → Action Unit
  | [] => pure ()
  | posting :: rest => do
    modify fun desk => { desk with postings := desk.postings.tail }
    handle world posting
    handleFirst world rest

/-- Handle everything. Only what was entered posts anything more, and that are changes; so after
everything was handled twice nothing is left. A failure leaves the rest for another time. -/
def handleAll (world : World) : Action Unit := do
  handleFirst world (← get).postings
  handleFirst world (← get).postings

end EvalDesk.Desk
