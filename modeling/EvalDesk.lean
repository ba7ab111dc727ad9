import EvalDesk.Buffer
import EvalDesk.CommandLine.Arguments
import EvalDesk.CommandLine.Run
import EvalDesk.CommandLine.Words
import EvalDesk.Datum.Basic
import EvalDesk.Datum.Json
import EvalDesk.Datum.JsonText
import EvalDesk.Decoration
import EvalDesk.Desk.Basic
import EvalDesk.Desk.Commands
import EvalDesk.Desk.Rows
import EvalDesk.Diagnostic.Basic
import EvalDesk.Diagnostic.Example
import EvalDesk.Diagnostic.Shape
import EvalDesk.Dialect
import EvalDesk.Discovery
import EvalDesk.Disk
import EvalDesk.Engine.Answers
import EvalDesk.Engine.Basic
import EvalDesk.Engine.Requests
import EvalDesk.Engine.Sources
import EvalDesk.Engine.State
import EvalDesk.Fault
import EvalDesk.Form.Blank
import EvalDesk.Form.Literal
import EvalDesk.Form.Namespace
import EvalDesk.Form.Query
import EvalDesk.Form.Reader
import EvalDesk.Form.Signed
import EvalDesk.Form.Span
import EvalDesk.Highlight
import EvalDesk.Location
import EvalDesk.Main
import EvalDesk.Number.Binary64
import EvalDesk.Number.Decimal
import EvalDesk.Number.Quantity
import EvalDesk.Panel.Peek
import EvalDesk.Panel.Prompt
import EvalDesk.Panel.StatusBar
import EvalDesk.Panel.TranscriptPane
import EvalDesk.Path
import EvalDesk.Placement
import EvalDesk.Proofs.CommandLine
import EvalDesk.Proofs.Datum.Grammar
import EvalDesk.Proofs.Datum.Merging
import EvalDesk.Proofs.Datum.Numbers
import EvalDesk.Proofs.Datum.Reading
import EvalDesk.Proofs.Datum.Reals
import EvalDesk.Proofs.Datum.Strings
import EvalDesk.Proofs.Datum.Writable
import EvalDesk.Proofs.Datum.Writing
import EvalDesk.Proofs.Decoration.Drawing
import EvalDesk.Proofs.Decoration.Painting
import EvalDesk.Proofs.Desk.Acts
import EvalDesk.Proofs.Desk.Cursor
import EvalDesk.Proofs.Desk.Jump
import EvalDesk.Proofs.Desk.Painting
import EvalDesk.Proofs.Desk.Peek
import EvalDesk.Proofs.Desk.Repainting
import EvalDesk.Proofs.Desk.Rows
import EvalDesk.Proofs.Desk.Stance
import EvalDesk.Proofs.Desk.Steady
import EvalDesk.Proofs.Diagnostic.Expression
import EvalDesk.Proofs.Diagnostic.Extraction
import EvalDesk.Proofs.Diagnostic.Shapes
import EvalDesk.Proofs.Disk
import EvalDesk.Proofs.Engine.Advance
import EvalDesk.Proofs.Engine.Announce
import EvalDesk.Proofs.Engine.Answers
import EvalDesk.Proofs.Engine.Backing
import EvalDesk.Proofs.Engine.Chronicle
import EvalDesk.Proofs.Engine.Complaints
import EvalDesk.Proofs.Engine.Cycle
import EvalDesk.Proofs.Engine.Diagnostics
import EvalDesk.Proofs.Engine.Documentation
import EvalDesk.Proofs.Engine.Ends
import EvalDesk.Proofs.Engine.Entries
import EvalDesk.Proofs.Engine.Frame
import EvalDesk.Proofs.Engine.Happenings
import EvalDesk.Proofs.Engine.Holdings
import EvalDesk.Proofs.Engine.InStep
import EvalDesk.Proofs.Engine.Interruption
import EvalDesk.Proofs.Engine.Jumps
import EvalDesk.Proofs.Engine.Malformed
import EvalDesk.Proofs.Engine.Namespaces
import EvalDesk.Proofs.Engine.Numbering
import EvalDesk.Proofs.Engine.Outlasting
import EvalDesk.Proofs.Engine.Pending
import EvalDesk.Proofs.Engine.Recall
import EvalDesk.Proofs.Engine.Record
import EvalDesk.Proofs.Engine.Requests
import EvalDesk.Proofs.Engine.Run
import EvalDesk.Proofs.Engine.Saving
import EvalDesk.Proofs.Engine.Search
import EvalDesk.Proofs.Engine.Shown
import EvalDesk.Proofs.Engine.Snippets
import EvalDesk.Proofs.Engine.SourceParts
import EvalDesk.Proofs.Engine.Steps
import EvalDesk.Proofs.Engine.Telling
import EvalDesk.Proofs.Engine.Timing
import EvalDesk.Proofs.Engine.Twins
import EvalDesk.Proofs.Fallible
import EvalDesk.Proofs.Files
import EvalDesk.Proofs.Form.Blanks
import EvalDesk.Proofs.Form.Context
import EvalDesk.Proofs.Form.Core
import EvalDesk.Proofs.Form.Declaration
import EvalDesk.Proofs.Form.Descent
import EvalDesk.Proofs.Form.Expression
import EvalDesk.Proofs.Form.Group
import EvalDesk.Proofs.Form.Name
import EvalDesk.Proofs.Form.Order
import EvalDesk.Proofs.Form.Origin
import EvalDesk.Proofs.Form.Outermost
import EvalDesk.Proofs.Form.Quotes
import EvalDesk.Proofs.Form.Reader
import EvalDesk.Proofs.Form.Reading
import EvalDesk.Proofs.Form.Signed
import EvalDesk.Proofs.Form.Symbol
import EvalDesk.Proofs.Form.Tiling
import EvalDesk.Proofs.Form.TopLevel
import EvalDesk.Proofs.Highlight.Agreement
import EvalDesk.Proofs.Highlight.Columns
import EvalDesk.Proofs.Highlight.Comments
import EvalDesk.Proofs.Highlight.Strings
import EvalDesk.Proofs.Highlight.Styles
import EvalDesk.Proofs.Location.Address
import EvalDesk.Proofs.Location.Expression
import EvalDesk.Proofs.Location.Literal
import EvalDesk.Proofs.Location.Printed
import EvalDesk.Proofs.Number.Rounding
import EvalDesk.Proofs.Number.Shortest
import EvalDesk.Proofs.Path
import EvalDesk.Proofs.Placement.Landing
import EvalDesk.Proofs.Placement.Lines
import EvalDesk.Proofs.Placement.Marks
import EvalDesk.Proofs.Placement.Offsets
import EvalDesk.Proofs.Placement.Regions
import EvalDesk.Proofs.Placement.Relative
import EvalDesk.Proofs.SavedSettings
import EvalDesk.Proofs.Saves
import EvalDesk.Proofs.Session.Completion
import EvalDesk.Proofs.Session.Connection
import EvalDesk.Proofs.Session.Messages
import EvalDesk.Proofs.Session.Runs
import EvalDesk.Proofs.Session.Stamps
import EvalDesk.Proofs.Settings
import EvalDesk.Proofs.Text.Breaks
import EvalDesk.Proofs.Text.Digits
import EvalDesk.Proofs.Text.Expression
import EvalDesk.Proofs.Text.Percent
import EvalDesk.Proofs.Text.Utf8
import EvalDesk.Session.Basic
import EvalDesk.Session.Connection
import EvalDesk.Session.Event
import EvalDesk.Session.Recorder
import EvalDesk.Settings
import EvalDesk.Source
import EvalDesk.Styled
import EvalDesk.Text.Character
import EvalDesk.Text.Hex
import EvalDesk.Text.Integer
import EvalDesk.Text.Lines
import EvalDesk.Text.Percent
import EvalDesk.Text.Quoted
import EvalDesk.Text.Ranges
import EvalDesk.Text.Replace
import EvalDesk.Text.Slice
import EvalDesk.Text.Utf8
import EvalDesk.Transcript
import EvalDesk.Watcher
