import EvalDesk.Text.Character

/-!
# Lines

Text has two kinds of lines here. A source buffer is split at line feeds only, and joining its
lines by line feeds gives the text back. Output and shown text is split at every line break of the
character database, and a break at the very end starts no further line.
-/
namespace EvalDesk.Text

/-- The parts of a text between the occurrences of a character, one more than there are. -/
def splitOn (mark : Char) : List Char → List (List Char)
  | [] => [[]]
  | c :: rest =>
    if c = mark then [] :: splitOn mark rest else (splitOn mark rest).modifyHead (c :: ·)

/-- A character that ends a line of output. -/
def isLineBreak (c : Char) : Bool :=
  c = '\n' || c = '\r' || c = '\x0b' || c = '\x0c' || c = '\x1c' || c = '\x1d' || c = '\x1e' ||
    c = '\u0085' || c = '\u2028' || c = '\u2029'

/-- The lines of output after the reversed start of the first one; a carriage return and the
line feed behind it are one break. -/
def outputLinesFrom (reversed : List Char) : List Char → List (List Char)
  | [] => if reversed.isEmpty then [] else [reversed.reverse]
  | '\r' :: '\n' :: rest => reversed.reverse :: outputLinesFrom [] rest
  | c :: rest =>
    if isLineBreak c then reversed.reverse :: outputLinesFrom [] rest
    else outputLinesFrom (c :: reversed) rest

/-- The lines of output, without the breaks that end them. -/
def outputLines (text : String) : List String :=
  (outputLinesFrom [] text.toList).map String.ofList

/-- The text a file read as text holds: every line end becomes a line feed. -/
def unifyLineEnds : List Char → List Char
  | [] => []
  | '\r' :: '\n' :: rest => '\n' :: unifyLineEnds rest
  | c :: rest => (if c = '\r' then '\n' else c) :: unifyLineEnds rest

/-- The items without those at either end that have the property. -/
def trim {α : Type} (removed : α → Bool) (items : List α) : List α :=
  ((items.dropWhile removed).reverse.dropWhile removed).reverse

/-- The text without white space at either end. -/
def strip (text : String) : String := String.ofList (trim isSpace text.toList)

/-- The text without line feeds at its end. -/
def dropFinalLineFeeds (text : String) : String :=
  String.ofList (text.toList.reverse.dropWhile (· = '\n')).reverse

/-- A text consists of white space only, or is empty. -/
def isBlankText (text : String) : Bool := text.toList.all isSpace

/-- The first occurrence of a part of a text splits it into what stands before and after. -/
def partition? (mark : List Char) : List Char → Option (List Char × List Char)
  | [] => if mark.isEmpty then some ([], []) else none
  | c :: rest =>
    if mark.isPrefixOf (c :: rest) then some ([], (c :: rest).drop mark.length)
    else (partition? mark rest).map fun (before, after) => (c :: before, after)

/-- Splitting gives at least one part. -/
theorem splitOn_ne_nil (mark : Char) (text : List Char) : splitOn mark text ≠ [] := by
  induction text with
  | nil => simp [splitOn]
  | cons c rest ih =>
    simp only [splitOn]
    split
    · simp
    · cases parts : splitOn mark rest with
      | nil => exact absurd parts ih
      | cons => simp

/-- The parts joined by the mark are the text. -/
theorem intercalate_splitOn (mark : Char) (text : List Char) :
    [mark].intercalate (splitOn mark text) = text := by
  induction text with
  | nil => rfl
  | cons c rest ih =>
    simp only [splitOn]
    cases parts : splitOn mark rest with
    | nil => exact absurd parts (splitOn_ne_nil mark rest)
    | cons part others =>
      rw [parts] at ih
      split
      · rename_i same
        subst same
        simpa [List.intercalate] using ih
      · cases others <;> simpa [List.intercalate] using ih

end EvalDesk.Text
