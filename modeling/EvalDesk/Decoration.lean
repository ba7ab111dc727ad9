import EvalDesk.Styled

/-!
# Decorations

A decoration marks a region of a surface, which is named like the buffer shown on it, with a class
of style and a text. Regions may lie anywhere; a line shows those that touch it.
-/
namespace EvalDesk

/-- A marked region. -/
structure Decoration where
  /-- The surface. -/
  surface : String
  /-- The offset at which it starts. -/
  start : Int
  /-- The offset behind its end. -/
  stop : Int
  /-- The class of style, which is a word for a severity. -/
  style : String
  /-- What it says. -/
  text : String
  /-- The line it belongs to. -/
  line : Int
  deriving DecidableEq, Repr

/-- Decorations in the order they were made. -/
abbrev Decorations := List Decoration

namespace Decoration

/-- A decoration of a region whose ends may be given in either order. -/
def between (surface : String) (start stop : Int) (style text : String) (line : Int) : Decoration :=
  { surface, start := min start stop, stop := max start stop, style, text, line }

/-- Whether it touches a region, be it only at an end. -/
def touches (decoration : Decoration) (start stop : Int) : Bool :=
  decoration.start ≤ stop && start ≤ decoration.stop

/-- The style in which a class is drawn; an unknown class is drawn like an error. -/
def drawnStyle (style : String) : String :=
  if style = "warning" then "on #5c4a00"
  else if style = "compile-error" then "underline on #5a1a1a"
  else "on #5a1a1a"

/-- Draw it on a line of the given length that starts at an offset. On an empty line a blank is
drawn for it. -/
def drawOn (decoration : Decoration) (lineStart lineLength : Int) (text : Styled) : Styled :=
  let start := max (decoration.start - lineStart) 0
  let stop := min (decoration.stop - lineStart) lineLength
  let style := drawnStyle decoration.style
  if start < stop then text.stylize style start stop
  else if lineLength = 0 then text.append [' '] style
  else text

end Decoration

namespace Decorations

/-- Those of a surface. -/
def onSurface (decorations : Decorations) (surface : String) : Decorations :=
  decorations.filter (·.surface = surface)

/-- Those of a line of a surface. -/
def onLine (decorations : Decorations) (surface : String) (line : Int) : Decorations :=
  (decorations.onSurface surface).filter (·.line = line)

/-- Those of a surface that touch a region. -/
def overlapping (decorations : Decorations) (surface : String) (start stop : Int) : Decorations :=
  (decorations.onSurface surface).filter (·.touches start stop)

/-- Add one behind the others. -/
def add (decorations : Decorations) (decoration : Decoration) : Decorations :=
  decorations ++ [decoration]

/-- All but those of a surface. -/
def clear (decorations : Decorations) (surface : String) : Decorations :=
  decorations.filter (·.surface ≠ surface)

/-- Draw them on a line of the given length that starts at an offset. -/
def drawOn (decorations : Decorations) (lineStart lineLength : Int) (text : Styled) : Styled :=
  decorations.foldl (fun text decoration => decoration.drawOn lineStart lineLength text) text

/-- The added decoration is the last of its surface. -/
theorem onSurface_add (decorations : Decorations) (decoration : Decoration) :
    (decorations.add decoration).onSurface decoration.surface =
      decorations.onSurface decoration.surface ++ [decoration] := by
  simp [onSurface, add]

/-- A cleared surface has no decorations. -/
theorem onSurface_clear (decorations : Decorations) (surface : String) :
    (decorations.clear surface).onSurface surface = [] := by
  simp [onSurface, clear]

end Decorations
end EvalDesk
