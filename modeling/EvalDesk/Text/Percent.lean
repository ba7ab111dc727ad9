import EvalDesk.Text.Utf8

/-!
# Percent encoding

A byte is written as a percent sign and two digits. Reading takes every run of ASCII characters as
bytes of UTF-8, written plainly or in this way, and leaves all other characters as they are; bytes
that are no text become the replacement character. A percent sign without two digits stands for
itself.
-/
namespace EvalDesk.Text.Percent

/-- The bytes that ASCII characters write. -/
def bytesOf : List Char → List UInt8
  | [] => []
  | '%' :: high :: low :: rest =>
    match hexNumber? [high, low] with
    | some value => value.toUInt8 :: bytesOf rest
    | none => 0x25 :: bytesOf (high :: low :: rest)
  | c :: rest => c.toNat.toUInt8 :: bytesOf rest
termination_by text => text.length

/-- A character that is one byte of UTF-8. -/
def isAscii (c : Char) : Bool := c.toNat < 0x80

/-- The characters that a run of characters of one class writes. -/
def decodeRun (run : List Char) : List Char :=
  if run.all isAscii then Utf8.decodeLenientChars (bytesOf run) else run

/-- The text that a text writes. -/
def decode (text : List Char) : List Char :=
  (text.splitBy fun c next => isAscii c == isAscii next).flatMap decodeRun

end EvalDesk.Text.Percent
