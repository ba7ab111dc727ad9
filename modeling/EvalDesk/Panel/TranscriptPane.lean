import EvalDesk.Styled
import EvalDesk.Text.Lines
import EvalDesk.Transcript

/-!
# The transcript pane

Each entry is a line of its own in the style of its kind, without the line feeds at its end; code
that was sent has the namespace in front.
-/
namespace EvalDesk.Panel.TranscriptPane

/-- How many entries the pane shows. -/
def shownEntries : Int := 200

/-- The style of a kind. -/
def styleOf : Transcript.Kind → String
  | .input => "bold cyan"
  | .value => "green"
  | .errorOutput => "red"
  | .status => "dim italic"
  | .output | .other _ => ""

/-- The text of an entry. -/
def entryText : Datum → Except Fault (List Char)
  | .text text => .ok (Text.dropFinalLineFeeds text).toList
  | .bytes _ => .error (.misuse .bytesTrimmed)
  | other => .error (.misuse (.noMember other.kind "rstrip"))

/-- Add what stands in front of an entry of a kind. -/
def appendPrompt (ns : Datum) (pane : Styled) (kind : Transcript.Kind) : Except Fault Styled := do
  if kind = .input then return pane.append ((← ns.shown) ++ "=> ").toList "bold"
  return pane

/-- Add an entry to the pane. -/
def appendEntry (ns : Datum) (pane : Styled) (entry : Transcript.Entry) : Except Fault Styled := do
  let text ← entryText entry.text
  let pane ← appendPrompt ns pane entry.kind
  return (pane.append text (styleOf entry.kind)).appendPlain ['\n']

/-- The pane for some entries. -/
def render (entries : Transcript) (ns : Datum) : Except Fault Styled :=
  entries.foldlM (appendEntry ns) .empty

end EvalDesk.Panel.TranscriptPane
