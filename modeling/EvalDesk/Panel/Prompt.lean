import EvalDesk.Datum.Basic
import EvalDesk.Text.Lines

/-!
# The prompt

A prompt of one line asks for an expression or for the name of a namespace. What is entered counts
without the white space around it; nothing but white space only closes the prompt.
-/
namespace EvalDesk.Panel

/-- What a prompt asks for. -/
inductive Prompt.Mode where
  /-- An expression to evaluate. -/
  | expression
  /-- The name of a namespace to change to. -/
  | ns
  deriving DecidableEq, Repr

/-- The word for what a prompt asks for. -/
def Prompt.Mode.word : Prompt.Mode → String
  | .expression => "eval"
  | .ns => "ns"

/-- The title of a prompt. -/
def Prompt.Mode.title : Prompt.Mode → String
  | .expression => "Evaluate"
  | .ns => "Switch Namespace"

/-- A prompt. -/
structure Prompt where
  /-- Whether it is shown. -/
  shown : Bool
  /-- What it asks for. -/
  mode : Prompt.Mode
  /-- What stands in it when it is shown. -/
  value : Datum

namespace Prompt

/-- The prompt before it is shown. -/
def start : Prompt := ⟨false, .expression, .text ""⟩

/-- Show it for something. -/
def ask (_ : Prompt) (mode : Mode) (value : Datum) : Prompt := ⟨true, mode, value⟩

/-- Close it. -/
def close (prompt : Prompt) : Prompt := { prompt with shown := false }

/-- What an entered text counts as, none for nothing. -/
def entered? (text : String) : Option String :=
  let value := Text.strip text
  if value = "" then none else some value

end Prompt
end EvalDesk.Panel
