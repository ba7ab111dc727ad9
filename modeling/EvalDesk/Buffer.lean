import EvalDesk.Fault
import EvalDesk.Form.Namespace
import EvalDesk.Form.Query
import EvalDesk.Text.Lines
import EvalDesk.Text.Slice

/-!
# Source buffers

A buffer is the text of a source under the path that names it. Its lines are the parts between line
feeds; lines and columns count from one, offsets count characters from zero.
-/
namespace EvalDesk

/-- The text of a source and the path it is known by. -/
structure Buffer where
  /-- Where the source comes from. -/
  path : String := ""
  /-- The text as it is shown and sent. -/
  text : String := ""
  deriving DecidableEq, Repr, Inhabited

namespace Buffer

/-- The characters of the text. -/
def chars (buffer : Buffer) : List Char := buffer.text.toList

/-- The characters of each line. -/
def charLines (buffer : Buffer) : List (List Char) := Text.splitOn '\n' buffer.chars

/-- The lines. -/
def lines (buffer : Buffer) : List String := buffer.charLines.map String.ofList

/-- How many lines there are, at least one. -/
def lineCount (buffer : Buffer) : Nat := buffer.charLines.length

/-- Offsets of the starts of lines, the first of which stands at an offset. -/
def startsFrom (offset : Nat) : List (List Char) → List Nat
  | [] => []
  | line :: rest => offset :: startsFrom (offset + line.length + 1) rest

/-- The offset of the start of each line. -/
def starts (buffer : Buffer) : List Nat := startsFrom 0 buffer.charLines

/-- The number is that of a line. -/
def hasLine (buffer : Buffer) (line : Int) : Bool := 1 ≤ line && line ≤ buffer.lineCount

/-- The offset of the start of a line. -/
def lineStart (buffer : Buffer) (line : Int) : Except Fault Nat :=
  if buffer.hasLine line then .ok (buffer.starts.getD (line.toNat - 1) 0)
  else .error (.outsideBuffer line buffer.lineCount)

/-- The offset of a column of a line; a column below one is the first. -/
def offset (buffer : Buffer) (line : Int) (column : Int) : Except Fault Nat :=
  (buffer.lineStart line).map (· + (max column 1).toNat - 1)

/-- The line an offset lies on and its column there; before the text it is the first line. -/
def position (buffer : Buffer) (offset : Int) : Nat × Int :=
  let starts := buffer.starts
  let index := (starts.takeWhile fun (start : Nat) => (start : Int) ≤ offset).length - 1
  (index + 1, offset - starts.getD index 0 + 1)

/-- The span of a line without its line feed. -/
def lineSpan (buffer : Buffer) (line : Int) : Except Fault Form.Span :=
  (buffer.lineStart line).map fun start =>
    ⟨start, start + (buffer.charLines.getD (line.toNat - 1) []).length⟩

/-- The text between two offsets, which may count from the end. -/
def substring (buffer : Buffer) (start stop : Int) : String :=
  String.ofList (Text.slice buffer.chars start stop)

/-- The text of a span. -/
def spanText (buffer : Buffer) (span : Form.Span) : String :=
  String.ofList (span.of buffer.chars)

/-- The outermost form at an offset. -/
def topLevelAt (buffer : Buffer) (offset : Int) : Option Form.Span :=
  Form.topLevelAt buffer.chars offset

/-- The innermost expression before an offset. -/
def lastBefore (buffer : Buffer) (offset : Int) : Option Form.Span :=
  Form.lastBefore buffer.chars offset

/-- The form that declares the namespace. -/
def namespaceForm? (buffer : Buffer) : Option Form.Span :=
  (Form.namespaceForm? buffer.chars).map (·.1)

/-- The namespace the source declares. -/
def namespaceName? (buffer : Buffer) : Option String :=
  (Form.namespaceForm? buffer.chars).map (·.2)

end Buffer
end EvalDesk
