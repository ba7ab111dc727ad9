import EvalDesk.Datum.Basic
import EvalDesk.Text.Lines
import EvalDesk.Text.Percent
import EvalDesk.Text.Replace

/-!
# Locations of definitions

The server tells where a definition stands as a vector of a path, a line and a column. The path is
a string literal; it may be the address of a file or of an entry in an archive. A line that is not
known is the first one. A path that only says that there is no source is no location.
-/
namespace EvalDesk

/-- Where a definition stands. -/
structure Location where
  /-- The path of the source, or of the entry in the archive. -/
  path : String
  /-- The line. -/
  line : Int
  /-- The column, if it is known. -/
  column : Option Int
  /-- The archive, when the path is that of an entry. -/
  archive : Option String
  deriving DecidableEq, Repr

namespace Location

/-- Paths that say that there is no source. -/
def absentSources : List String := ["NO_SOURCE_PATH", "NO_SOURCE_FILE"]

/-- The text without the white space in front. -/
def skipSpace (text : List Char) : List Char := text.dropWhile Text.isSpace

/-- The text behind white space that must be there. -/
def spaced? (text : List Char) : Option (List Char) :=
  match text with
  | c :: rest => if Text.isSpace c then some (skipSpace rest) else none
  | [] => none

/-- The text behind a character that must be there. -/
def after? (mark : Char) : List Char → Option (List Char)
  | c :: rest => if c = mark then some rest else none
  | [] => none

/-- The inside of a string literal up to its closing quote, as it is written, and the text behind
it. A backslash takes the character behind it along, which may be no line feed. -/
def literalRest? : List Char → Option (List Char × List Char)
  | [] => none
  | '"' :: rest => some ([], rest)
  | ['\\'] => none
  | '\\' :: c :: rest =>
    if c = '\n' then none
    else (literalRest? rest).map fun (inside, rest) => ('\\' :: c :: inside, rest)
  | c :: rest => (literalRest? rest).map fun (inside, rest) => (c :: inside, rest)

/-- The digits of a number, none for the word that says it is not known, and the text behind. -/
def number? (text : List Char) : Option (Option (List Char) × List Char) :=
  match text.span Text.isDecimal with
  | ([], 'n' :: 'i' :: 'l' :: rest) => some (none, rest)
  | ([], _) => none
  | (digits, rest) => some (some digits, rest)

/-- The parts of a vector: the path as it is written, the line and the column. -/
def parts? (text : List Char) : Option (List Char × Option (List Char) × Option (List Char)) := do
  let text ← after? '[' (skipSpace text)
  let text ← after? '"' (skipSpace text)
  let (path, text) ← literalRest? text
  let (line, text) ← number? (← spaced? text)
  let (column, text) ← number? (← spaced? text)
  let text ← after? ']' (skipSpace text)
  if skipSpace text = [] then some (path, line, column) else none

/-- The text that the inside of a string literal stands for. -/
def unescape (inside : List Char) : List Char :=
  Text.replace ['\\', '\\'] ['\\'] (Text.replace ['\\', '"'] ['"'] inside)

/-- The text without a part in front, if it starts with it. -/
def without? (start : String) (text : List Char) : Option (List Char) :=
  if start.toList.isPrefixOf text then some (text.drop start.toList.length) else none

/-- The path and archive of an address. -/
def ofAddress (address : List Char) : String × Option String :=
  match without? "jar:" address with
  | some inner =>
    let (archive, entry) := (Text.partition? ['!', '/'] inner).getD (inner, [])
    (String.ofList entry,
      some (String.ofList (Text.Percent.decode ((without? "file:" archive).getD archive))))
  | none =>
    match without? "file:" address with
    | some file => (String.ofList (Text.Percent.decode file), none)
    | none => (String.ofList address, none)

/-- The number that digits write. -/
def numberOf (digits : List Char) : Except Fault Int :=
  (Text.readInteger (String.ofList digits)).mapError .integer

/-- The location a text tells. -/
def ofText? (text : String) : Except Fault (Option Location) := do
  let some (inside, line, column) := parts? text.toList | return none
  let address := unescape inside
  if address = [] ∨ String.ofList address ∈ absentSources then return none
  let (path, archive) := ofAddress address
  let line ← match line with
    | some digits => numberOf digits
    | none => .ok 1
  let column ← match column with
    | some digits => (numberOf digits).map some
    | none => .ok none
  return some { path, line, column, archive }

/-- The location a datum tells; what is not present tells none. -/
def ofDatum? (datum : Datum) : Except Fault (Option Location) :=
  if !datum.isPresent then .ok none
  else
    match datum with
    | .text text => ofText? text
    | .bytes _ => .error (.misuse .bytesMatched)
    | other => .error (.misuse (.notText other.kind))

end Location
end EvalDesk
