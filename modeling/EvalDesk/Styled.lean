/-!
# Styled text

Text with marks that give a style to a part of it. Marks are kept in the order they were made, and
later ones are drawn over earlier ones. Characters that move the point of printing are dropped when
text is added, so a mark may cover nothing.
-/
namespace EvalDesk

/-- A style given to a part of a text. -/
structure Styled.Mark where
  /-- The position at which it starts. -/
  start : Int
  /-- The position behind its end. -/
  stop : Int
  /-- The style. -/
  style : String
  deriving DecidableEq, Repr

/-- Text and the marks on it. -/
structure Styled where
  /-- The characters of the text. -/
  plain : List Char
  /-- The marks in the order they were made. -/
  marks : List Styled.Mark
  deriving DecidableEq, Repr

namespace Styled

/-- Text with nothing in it. -/
def empty : Styled := ⟨[], []⟩

/-- A character that is dropped: it rings, goes back, or moves to another line or page. -/
def isDropped (c : Char) : Bool :=
  c = '\x07' || c = '\x08' || c = '\x0b' || c = '\x0c' || c = '\x0d'

/-- The characters that are kept. -/
def kept (text : List Char) : List Char := text.filter fun c => !isDropped c

/-- Add text in a style; the empty style makes no mark, and no text adds nothing. -/
def append (styled : Styled) (text : List Char) (style : String) : Styled :=
  if text = [] then styled
  else
    let start := styled.plain.length
    let plain := styled.plain ++ kept text
    { plain
      marks :=
        if style = "" then styled.marks
        else styled.marks ++ [⟨start, plain.length, style⟩] }

/-- Add text without a style. -/
def appendPlain (styled : Styled) (text : List Char) : Styled := styled.append text ""

/-- Text without a style. -/
def ofChars (text : List Char) : Styled := empty.appendPlain text

/-- Add styled text with its marks. -/
def appendStyled (styled other : Styled) : Styled :=
  let shift : Int := styled.plain.length
  { plain := styled.plain ++ other.plain
    marks := styled.marks ++ other.marks.map fun mark =>
      ⟨mark.start + shift, mark.stop + shift, mark.style⟩ }

/-- Give a style to a part. Positions below zero count from the end; a part that starts behind
the text or ends at its start is none. -/
def stylize (styled : Styled) (style : String) (start stop : Int) : Styled :=
  let length : Int := styled.plain.length
  let start := if start < 0 then length + start else start
  let stop := if stop < 0 then length + stop else stop
  if style = "" ∨ length ≤ start ∨ stop ≤ start then styled
  else { styled with marks := styled.marks ++ [⟨start, min length stop, style⟩] }

/-- Giving a style changes no text. -/
theorem plain_stylize (styled : Styled) (style : String) (start stop : Int) :
    (styled.stylize style start stop).plain = styled.plain := by
  simp only [stylize]
  split <;> split <;> split <;> rfl

/-- Adding text adds the characters that are kept. -/
theorem plain_append (styled : Styled) (text : List Char) (style : String) :
    (styled.append text style).plain = styled.plain ++ kept text := by
  unfold append
  split
  · rename_i nothing
    simp [nothing, kept]
  · rfl

end Styled
end EvalDesk
