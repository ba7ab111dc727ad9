import EvalDesk.Text.Character
import EvalDesk.Text.Hex

/-!
# Quoted literals

A literal shows a text between quotes in such a way that every character can be told: the quote
in use, the backslash and whatever has no visible form are written as escapes. Single quotes are
used unless the text has a single quote and no double one.
-/
namespace EvalDesk.Text

/-- A character inside a literal. -/
def escaped (mark c : Char) : List Char :=
  if c = mark || c = '\\' then ['\\', c]
  else if c = '\n' then ['\\', 'n']
  else if c = '\r' then ['\\', 'r']
  else if c = '\t' then ['\\', 't']
  else if isVisible c then [c]
  else if c.toNat < 0x100 then '\\' :: 'x' :: hexText 2 c.toNat
  else if c.toNat < 0x10000 then '\\' :: 'u' :: hexText 4 c.toNat
  else '\\' :: 'U' :: hexText 8 c.toNat

/-- The quote a literal of the text uses. -/
def quoteFor (text : List Char) : Char :=
  if text.contains '\'' && !text.contains '"' then '"' else '\''

/-- The characters of the literal of a text. -/
def quotedChars (text : List Char) : List Char :=
  let mark := quoteFor text
  mark :: text.flatMap (escaped mark) ++ [mark]

/-- The literal of a text. -/
def quoted (text : String) : String := String.ofList (quotedChars text.toList)

/-- A byte inside the literal of bytes, of which only the ASCII ones are shown as they are. -/
def escapedByte (mark : Char) (byte : UInt8) : List Char :=
  let c := Char.ofNat byte.toNat
  if byte.toNat < 0x80 then escaped mark c else '\\' :: 'x' :: hexText 2 byte.toNat

/-- The literal of bytes: a literal with a letter before it. -/
def quotedBytes (bytes : List UInt8) : String :=
  let mark := quoteFor (bytes.map fun byte => Char.ofNat byte.toNat)
  String.ofList ('b' :: mark :: bytes.flatMap (escapedByte mark) ++ [mark])

end EvalDesk.Text
