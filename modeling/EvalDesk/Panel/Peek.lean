import EvalDesk.Decoration
import EvalDesk.Text.Lines

/-!
# The peek panel

The panel shows the first decoration of a line with the lines around it. For a line without one it
shows the documentation that was asked for last, and without that a hint.
-/
namespace EvalDesk.Panel

/-- What the panel chooses from. -/
structure Peek where
  /-- The lines of the source. -/
  lines : List String
  /-- The decorations of the source. -/
  decorations : Decorations
  /-- The documentation that was asked for last. -/
  documentation : String

namespace Peek

/-- The label of a class of style, and its own style. -/
def label (style : String) : String × String :=
  if style = "warning" then ("WARNING", "bold yellow")
  else if style = "compile-error" then ("COMPILE ERROR", "bold red")
  else ("ERROR", "bold red")

/-- The first decoration of a line. -/
def current? (peek : Peek) (line : Int) : Option Decoration :=
  peek.decorations.find? (·.line = line)

/-- A number with blanks in front up to a width. -/
def padded (width : Nat) (number : Int) : List Char :=
  let digits := (toString number).toList
  List.replicate (width - digits.length) ' ' ++ digits

/-- Add a line to the panel, when there is one of that number. -/
def appendLine (peek : Peek) (marked : Int) (panel : Styled) (number : Int) : Styled :=
  if number < 1 ∨ peek.lines.length < number then panel
  else
    let style := if number = marked then "bold white" else "dim"
    let mark := if number = marked then '►' else ' '
    let panel := panel.append ([mark, ' '] ++ padded 4 number ++ " │ ".toList) style
    let panel := panel.append (peek.lines.getD (number.toNat - 1) "").toList style
    panel.appendPlain ['\n']

/-- The panel for a decoration. -/
def decorationText (peek : Peek) (decoration : Decoration) : Styled :=
  let (name, style) := label decoration.style
  let panel := Styled.empty.append (name ++ " ").toList style
  let panel := panel.appendPlain (Text.strip decoration.text).toList
  let panel := panel.appendPlain ['\n']
  [decoration.line - 1, decoration.line, decoration.line + 1].foldl
    (peek.appendLine decoration.line) panel

/-- The panel for documentation. -/
def documentationText (peek : Peek) : Styled :=
  (Styled.empty.append "DOC ".toList "bold cyan").appendPlain
    (Text.strip peek.documentation).toList

/-- The panel when there is nothing to show. -/
def hintText : Styled :=
  ((Styled.empty.append "REPL ".toList "bold cyan").append "│ ".toList "dim").append
    "(e: eval form  d: doc  .: jump to definition)".toList "dim italic"

/-- The panel for a line. -/
def textFor (peek : Peek) (line : Int) : Styled :=
  match peek.current? line with
  | some decoration => peek.decorationText decoration
  | none => if peek.documentation = "" then hintText else peek.documentationText

end Peek
end EvalDesk.Panel
