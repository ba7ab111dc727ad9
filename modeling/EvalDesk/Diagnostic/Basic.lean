import EvalDesk.Fault
import EvalDesk.Text.Lines

/-!
# Diagnostics

A diagnostic is what one line of error output says about a place in a source. A pattern recognizes
the shapes such lines have: it gives the captured parts of a line by number, and tells by numbers
which parts can hold the file, the line and the column, and which of them tell the severity. Of
several parts for one field the first that was captured counts, even when it is empty.
-/
namespace EvalDesk

/-- How bad it is. -/
inductive Severity where
  /-- The code was taken, with a doubt. -/
  | warning
  /-- The code could not be compiled. -/
  | compileError
  /-- The code failed. -/
  | error
  deriving DecidableEq, Repr

/-- The word for a severity. -/
def Severity.word : Severity → String
  | .warning => "warning"
  | .compileError => "compile-error"
  | .error => "error"

/-- What one line of error output says about a place. -/
structure Diagnostic where
  /-- The line, counted from one in the file or in the code that was sent. -/
  line : Int
  /-- How bad it is. -/
  severity : Severity
  /-- The line of output. -/
  message : String
  /-- The file, none for code that was not read from one. -/
  file : Option String
  /-- The column, none for the whole line. -/
  column : Option Int
  deriving DecidableEq, Repr

namespace Diagnostic

/-- The captured parts of a line by their numbers; a part that is not captured is none. -/
abbrev Captures := Nat → Option (List Char)

/-- A way to recognize diagnostics. -/
structure Pattern where
  /-- The captured parts of a text that has one of the shapes. -/
  captures? : List Char → Option Captures
  /-- The parts that hold the file. -/
  fileParts : List Nat
  /-- The parts that hold the line. -/
  lineParts : List Nat
  /-- The parts that hold the column. -/
  columnParts : List Nat
  /-- The part whose presence makes it a warning. -/
  warningPart : Option Nat
  /-- The part whose presence makes it an error of compilation. -/
  compilingPart : Option Nat
  /-- Names that stand in place of a file for code that was not read from one. -/
  sentinels : List String

/-- The first of the parts that was captured. -/
def firstPart? (captures : Captures) (parts : List Nat) : Option (List Char) :=
  parts.findSome? captures

/-- The number a captured part writes. -/
def numberOf (field : String) (text : String) : Option (List Char) → Except Fault (Option Int)
  | none => .ok none
  | some part =>
    match Text.readInteger (String.ofList part) with
    | .ok number => .ok (some number)
    | .error _ => .error (.malformedDiagnostic field (String.ofList part) text)

/-- The part was captured and is not empty. -/
def isMarked (captures : Captures) (part : Option Nat) : Bool :=
  ((part.bind captures).getD []) ≠ []

/-- The diagnostic a text holds by a pattern. -/
def extractBy (pattern : Pattern) (text : String) : Except Fault (Option Diagnostic) := do
  match pattern.captures? text.toList with
  | none => return none
  | some captures =>
    match ← numberOf "line" text (firstPart? captures pattern.lineParts) with
    | none => return none
    | some line =>
      let name := String.ofList ((firstPart? captures pattern.fileParts).getD [])
      let file := if name = "" ∨ name ∈ pattern.sentinels then none else some name
      let column ← numberOf "column" text (firstPart? captures pattern.columnParts)
      let severity : Severity :=
        if isMarked captures pattern.warningPart then .warning
        else if isMarked captures pattern.compilingPart then .compileError
        else .error
      return some { line, severity, message := text, file, column }

end Diagnostic
end EvalDesk
