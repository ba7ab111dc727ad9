import EvalDesk.Datum.Basic
import EvalDesk.Text.Slice

/-!
# The transcript

A transcript is what was sent and what came back, in order. It has a limit; adding an entry drops
the oldest ones beyond it. The limit is a setting of any kind: one that is no number cannot be
compared with a count, and a fraction can be compared but says no count to drop. The entry stays
added when the limit fails.
-/
namespace EvalDesk

/-- What an entry is. -/
inductive Transcript.Kind where
  /-- Code that was sent. -/
  | input
  /-- A value that came back. -/
  | value
  /-- Output of the code. -/
  | output
  /-- Error output of the code. -/
  | errorOutput
  /-- News about the connection. -/
  | status
  /-- Something else. -/
  | other (word : String)
  deriving DecidableEq, Repr

/-- An entry of a transcript. -/
structure Transcript.Entry where
  /-- What it is. -/
  kind : Transcript.Kind
  /-- What it says. -/
  text : Datum
  deriving Repr

/-- Entries in order. -/
abbrev Transcript := List Transcript.Entry

namespace Transcript

/-- The word for a kind. -/
def Kind.word : Kind → String
  | .input => "input"
  | .value => "value"
  | .output => "out"
  | .errorOutput => "err"
  | .status => "status"
  | .other word => word

/-- The kind of a word. -/
def Kind.ofWord (word : String) : Kind :=
  if word = "input" then .input
  else if word = "value" then .value
  else if word = "out" then .output
  else if word = "err" then .errorOutput
  else if word = "status" then .status
  else .other word

/-- How many of a count of entries lie beyond a limit. -/
def excess (count : Nat) : Datum → Except Fault Nat
  | .integer limit => .ok (count - limit).toNat
  | .bool limit => .ok (count - (if limit then 1 else 0))
  | .real limit =>
    if Binary64.lt (.ofInt 0) (Binary64.sub (.ofInt count) limit) then
      .error (.misuse .notSliceEnd)
    else .ok 0
  | other => .error (.misuse (.operands "-" "int" other.kind))

/-- Add an entry. -/
def add (transcript : Transcript) (limit : Datum) (entry : Entry) :
    Transcript × Except Fault Unit :=
  let longer := transcript ++ [entry]
  match excess longer.length limit with
  | .ok count => (longer.drop count, .ok ())
  | .error fault => (longer, .error fault)

/-- A transcript with a limit never holds more entries than that. -/
theorem length_add_le (transcript : Transcript) (limit : Nat) (entry : Entry) :
    (transcript.add (.integer limit) entry).1.length ≤ limit := by
  simp only [add, excess, List.length_drop, List.length_append, List.length_singleton]
  omega

/-- The entries that a pane for so many shows: the last ones, and all for a pane for none. -/
def last (transcript : Transcript) (most : Int) : Transcript := Text.sliceFrom transcript (-most)

end Transcript
end EvalDesk
