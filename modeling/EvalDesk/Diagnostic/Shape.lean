import EvalDesk.Diagnostic.Basic

/-!
# The shapes of compiler output

A line of the compiler tells a place in one of three shapes, and the first that fits counts:

* words and the word `warning`, then a file with line and column;
* the word `compiling` on the first line, then in parentheses a file with a line and perhaps a
  column, at the leftmost place where all of that stands;
* a file with a line and perhaps a column at the front, then a colon or a hyphen between blanks.

White space at the front is passed over. A file is a run of characters without white space, colons
and parentheses; numbers are whole runs of decimal digits.
-/
namespace EvalDesk.Diagnostic

/-- A character of the name of a file. -/
def isFileChar (c : Char) : Bool := !(Text.isSpace c || c = ':' || c = '(' || c = ')')

/-- The run of characters with a property at the front, of which there is at least one, and the
rest. -/
def run? (inside : Char → Bool) (input : List Char) : Option (List Char × List Char) :=
  let found := input.takeWhile inside
  if found.isEmpty then none else some (found, input.dropWhile inside)

/-- The rest behind a fixed text. -/
def literal? (text : String) (input : List Char) : Option (List Char) :=
  if text.toList.isPrefixOf input then some (input.drop text.toList.length) else none

/-- The rest behind white space, of which there is at least one character. -/
def blanks? (input : List Char) : Option (List Char) :=
  (run? Text.isSpace input).map (·.2)

/-- A colon and a run of digits: the digits and the rest. -/
def colonNumber? (input : List Char) : Option (List Char × List Char) := do
  run? Text.isDecimal (← literal? ":" input)

/-- The place a shape tells: file, line and perhaps a column. -/
structure Place where
  /-- The name of the file. -/
  file : List Char
  /-- The digits of the line. -/
  line : List Char
  /-- The digits of the column. -/
  column : Option (List Char)
  deriving DecidableEq, Repr

/-- A place at the front and the rest; the column is taken when one is written. -/
def place? (input : List Char) : Option (Place × List Char) := do
  let (file, rest) ← run? isFileChar input
  let (line, rest) ← colonNumber? rest
  match colonNumber? rest with
  | some (column, rest) => return (⟨file, line, some column⟩, rest)
  | none => return (⟨file, line, none⟩, rest)

/-- The word of a warning and its place, the word at the front. -/
def warningHere? (input : List Char) : Option (List Char × Place) := do
  let word := input.take 7
  if word ≠ "warning".toList ∧ word ≠ "Warning".toList then none
  let rest ← literal? "," (input.drop 7)
  let (place, _) ← place? (← blanks? rest)
  if place.column.isNone then none
  return (word, place)

/-- A warning behind words: `before` is the character before the input. The word starts where no
word goes on, and only word characters and blanks stand before it. -/
def warning? (before : Option Char) : List Char → Option (List Char × Place)
  | [] => none
  | c :: rest =>
    let found := if before.any Text.isWord then none else warningHere? (c :: rest)
    match found with
    | some found => some found
    | none => if Text.isWord c || c = ' ' then warning? (some c) rest else none

/-- The place of an error of compilation, the word at the front. -/
def compilingHere? (input : List Char) : Option Place := do
  let rest ← literal? "compiling" input
  let rest ← match literal? ":" rest with
    | some rest => some rest
    | none => do blanks? (← literal? "at" (← blanks? rest))
  let (place, rest) ← place? (← literal? "(" rest)
  let _ ← literal? ")" rest
  return place

/-- An error of compilation anywhere before the next line feed: `before` is the character before
the input. The word starts where no word goes on. -/
def compiling? (before : Option Char) : List Char → Option Place
  | [] => none
  | c :: rest =>
    let found := if before.any Text.isWord then none else compilingHere? (c :: rest)
    match found with
    | some found => some found
    | none => if c = '\n' then none else compiling? (some c) rest

/-- What separates a place from the message: a colon and blanks, or a hyphen between blanks. -/
def separator? (input : List Char) : Option (List Char) :=
  match literal? ":" input with
  | some rest => blanks? rest
  | none => do blanks? (← literal? "-" (← blanks? input))

/-- A place at the front with a message behind it. -/
def located? (input : List Char) : Option Place := do
  let (place, rest) ← place? input
  let _ ← separator? rest
  return place

/-- Parts under the numbers of a shape, of which the first is that of the word or the file. -/
def capturesOf (word : Option (Nat × List Char)) (first : Nat) (place : Place) : Captures :=
  fun number =>
    if word.any (·.1 = number) then word.map (·.2)
    else if number = first then some place.file
    else if number = first + 1 then some place.line
    else if number = first + 2 then place.column
    else none

/-- The captured parts of a line of the compiler. -/
def compilerCaptures? (text : List Char) : Option Captures :=
  let input := text.dropWhile Text.isSpace
  match warning? none input with
  | some (word, place) => some (capturesOf (some (1, word)) 2 place)
  | none =>
    match compiling? none input with
    | some place => some (capturesOf (some (5, "compiling".toList)) 6 place)
    | none => (located? input).map (capturesOf none 9)

/-- The pattern of compiler output. -/
def compilerPattern : Pattern where
  captures? := compilerCaptures?
  fileParts := [2, 6, 9]
  lineParts := [3, 7, 10]
  columnParts := [4, 8, 11]
  warningPart := some 1
  compilingPart := some 5
  sentinels := ["NO_SOURCE_PATH", "NO_SOURCE_FILE", "REPL"]

/-- The diagnostic a line of compiler output holds. -/
def extract (text : String) : Except Fault (Option Diagnostic) := extractBy compilerPattern text

/-- The diagnostics of all lines of output, up to the first that is malformed. -/
def extractAll (output : String) : Except Fault (List Diagnostic) := do
  return (← (Text.outputLines output).mapM extract).filterMap id

end EvalDesk.Diagnostic
