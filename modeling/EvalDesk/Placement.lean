import EvalDesk.Buffer
import EvalDesk.Diagnostic.Basic

/-!
# Placing diagnostics

A diagnostic that names a file tells a line of that file. One without a file counts its lines from
the outermost form the evaluation was started in, so its first line is the first line of that form.
It is drawn over the expression that starts at its column, over the rest of the line when none
does, and over the whole line when it has no column or one behind the end of the line.
-/
namespace EvalDesk

/-- Where the code that was sent comes from. -/
structure Origin where
  /-- The path of the source. -/
  path : String
  /-- The line on which the outermost form of the code starts. -/
  formLine : Int
  deriving DecidableEq, Repr

/-- A diagnostic drawn in a buffer. -/
structure Placement where
  /-- The path of the buffer. -/
  target : String
  /-- The offset at which it starts. -/
  start : Nat
  /-- The offset behind its end. -/
  stop : Nat
  /-- How bad it is. -/
  severity : Severity
  /-- What it says. -/
  text : String
  /-- The line it is on. -/
  line : Int
  /-- The column it told, if any. -/
  column : Option Int
  deriving DecidableEq, Repr

/-- The span drawn for a line and column: blanks behind the column are passed over first. -/
def Buffer.expressionSpan (buffer : Buffer) (line column : Int) : Except Fault Form.Span := do
  let ⟨lineStart, lineEnd⟩ ← buffer.lineSpan line
  let first := lineStart + ((max column 1).toNat - 1)
  if lineEnd ≤ first then return ⟨lineStart, lineEnd⟩
  let chars := buffer.chars
  let start := min (chars.length - (Form.skipBlank (chars.drop first)).length) lineEnd
  if lineEnd ≤ start then return ⟨lineStart, lineEnd⟩
  return ⟨start, (Form.formEnd? chars start).getD lineEnd⟩

/-- A way to open the buffer of a path, with what else it leaves behind. -/
abbrev Opener (σ : Type) := String → Except Fault (Buffer × σ)

/-- The file and line a diagnostic tells, seen from where the code comes from. -/
def Diagnostic.place (diagnostic : Diagnostic) (origin : Origin) : String × Int :=
  match diagnostic.file with
  | some file => (file, diagnostic.line)
  | none => (origin.path, origin.formLine + diagnostic.line - 1)

/-- Where a diagnostic is drawn in a buffer opened for its target, none when the buffer does not
have its line. -/
def Diagnostic.placeIn (diagnostic : Diagnostic) (target : String) (line : Int)
    (buffer : Buffer) : Except Fault (Option Placement) := do
  if !buffer.hasLine line then return none
  let span ← match diagnostic.column with
    | none => buffer.lineSpan line
    | some column => buffer.expressionSpan line column
  return some {
    target := if buffer.path = "" then target else buffer.path
    start := span.start
    stop := span.stop
    severity := diagnostic.severity
    text := diagnostic.message
    line
    column := diagnostic.column }

/-- Where a diagnostic is drawn: none when its source cannot be shown or does not have its line.
Other faults of opening the source are passed on. -/
def place {σ : Type} (diagnostic : Diagnostic) (origin : Origin) (openBuffer : Opener σ) :
    Except Fault (Option Placement × Option σ) := do
  let (target, line) := diagnostic.place origin
  match openBuffer target with
  | .error (.source _) => return (none, none)
  | .error fault => throw fault
  | .ok (buffer, left) => return (← diagnostic.placeIn target line buffer, some left)

end EvalDesk
