import EvalDesk.Datum.Basic

/-!
# Writing data

Data is written as JSON text with one item a line, each level indented by two blanks, in ASCII
only: other characters are written as the escapes of their units. An empty list or table takes no
lines of its own. What is written here are settings, whose integers are short enough; that a longer
one, or bytes, would be refused is left out.
-/
namespace EvalDesk.Json

/-- The escape of a unit. -/
def unitEscape (unit : Nat) : List Char := '\\' :: 'u' :: Text.hexText 4 unit

/-- A character inside a string. -/
def escape (c : Char) : List Char :=
  if c = '"' || c = '\\' then ['\\', c]
  else if c = '\n' then ['\\', 'n']
  else if c = '\r' then ['\\', 'r']
  else if c = '\t' then ['\\', 't']
  else if c = '\x08' then ['\\', 'b']
  else if c = '\x0c' then ['\\', 'f']
  else if 0x20 ≤ c.toNat && c.toNat < 0x7f then [c]
  else if c.toNat < 0x10000 then unitEscape c.toNat
  else
    unitEscape (0xd800 + (c.toNat - 0x10000) / 0x400) ++
      unitEscape (0xdc00 + (c.toNat - 0x10000) % 0x400)

/-- The text of a string. -/
def stringText (value : String) : String :=
  "\"" ++ String.ofList (value.toList.flatMap escape) ++ "\""

/-- The text of bytes: that of a string with their numbers as its characters. -/
def bytesText (value : List UInt8) : String :=
  stringText (String.ofList (value.map fun byte => Char.ofNat byte.toNat))

/-- The text of a floating-point number. -/
def realText : Binary64 → String
  | .infinite negative => if negative then "-Infinity" else "Infinity"
  | .undefined => "NaN"
  | value => value.text

/-- The text of a key: a text stands for itself, all else for what is written of it. -/
def keyText : Table.Key → String
  | .null => stringText "null"
  | .bool value => stringText (if value then "true" else "false")
  | .integer value => stringText (toString value)
  | .real value => stringText (realText value)
  | .text value => stringText value
  | .bytes value => bytesText value

/-- The start of a line at a level. -/
def lineStart (level : Nat) : String := "\n" ++ String.ofList (List.replicate (2 * level) ' ')

mutual

/-- The text of a datum at a level. -/
def textAt (level : Nat) : Datum → String
  | .null => "null"
  | .bool value => if value then "true" else "false"
  | .integer value => toString value
  | .real value => realText value
  | .text value => stringText value
  | .bytes value => bytesText value
  | .list [] => "[]"
  | .list items =>
    "[" ++ ",".intercalate (itemTexts (level + 1) items) ++ lineStart level ++ "]"
  | .table [] => "\x7b\x7d"
  | .table entries =>
    "\x7b" ++ ",".intercalate (entryTexts (level + 1) entries) ++ lineStart level ++ "\x7d"

/-- The items of a list, each on a line of its own. -/
def itemTexts (level : Nat) : List Datum → List String
  | [] => []
  | item :: rest => (lineStart level ++ textAt level item) :: itemTexts level rest

/-- The entries of a table, each on a line of its own. -/
def entryTexts (level : Nat) : List (Table.Key × Datum) → List String
  | [] => []
  | (key, value) :: rest =>
    (lineStart level ++ keyText key ++ ": " ++ textAt level value) :: entryTexts level rest

end

/-- The text of a datum without bytes or integers that are too long to be written. -/
def write (datum : Datum) : String := textAt 0 datum

end EvalDesk.Json
