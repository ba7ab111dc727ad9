import EvalDesk.Diagnostic.Shape

/-!
# Example patterns

Three small patterns that use the fields of a pattern in other ways than the compiler's: fields
that may be missing, two parts for one field, numbers that may be empty or written with letters.
-/
namespace EvalDesk.Diagnostic.Example

/-- Parts in order, from number one. -/
def numbered (parts : List (Option (List Char))) : Captures := fun number =>
  if number = 0 then none else (parts[number - 1]?).join

/-- A pattern without severities and without names in place of a file. -/
def plain (captures? : List Char → Option Captures) : Pattern where
  captures? := captures?
  fileParts := [1]
  lineParts := [2]
  columnParts := []
  warningPart := none
  compilingPart := none
  sentinels := []

/-- The last colon of a run that has something before it and a word behind it splits the run:
what is before it and the word. -/
def lastColon? (before : List Char) : List Char → Option (List Char × List Char)
  | [] => none
  | c :: rest =>
    match lastColon? (c :: before) rest with
    | some found => some found
    | none =>
      if c = ':' ∧ !before.isEmpty then
        (run? Text.isWord rest).map fun (word, _) => (before.reverse, word)
      else none

/-- A file and a word for its line, joined by a colon. -/
def word : Pattern := plain fun text => do
  let (run, _) ← run? (!Text.isSpace ·) text
  let (file, line) ← lastColon? [] run
  return numbered [some file, some line]

/-- A hexadecimal digit in lower case. -/
def isHexDigit (c : Char) : Bool := ('0' ≤ c && c ≤ '9') || ('a' ≤ c && c ≤ 'f')

/-- A digit or a letter in lower case. -/
def isDigitOrLower (c : Char) : Bool := ('0' ≤ c && c ≤ '9') || ('a' ≤ c && c ≤ 'z')

/-- A letter and a run behind it, when both are there. -/
def lettered? (letter : String) (inside : Char → Bool) (input : List Char) :
    Option (List Char) × List Char :=
  match (literal? letter input).bind (run? inside) with
  | some (found, rest) => (some found, rest)
  | none => (none, input)

/-- A file between angle brackets, when it is there. -/
def bracketed? (input : List Char) : Option (List Char) × List Char :=
  match literal? "<" input with
  | none => (none, input)
  | some rest =>
    match rest.dropWhile (· ≠ '>') with
    | [] => (none, input)
    | _ :: behind => (some (rest.takeWhile (· ≠ '>')), behind)

/-- A file, a line and a column, each of which may be missing. -/
def optional : Pattern where
  captures? text :=
    let (file, rest) := bracketed? text
    let (line, rest) := lettered? "L" isHexDigit rest
    let (column, _) := lettered? "C" isDigitOrLower rest
    some (numbered [file, line, column])
  fileParts := [1]
  lineParts := [2]
  columnParts := [3]
  warningPart := none
  compilingPart := none
  sentinels := ["-"]

/-- A field up to the next bar, with the rest behind the bar before it. -/
def barField? (input : List Char) : Option (List Char × List Char) := do
  let rest ← literal? "|" input
  return (rest.takeWhile (· ≠ '|'), rest.dropWhile (· ≠ '|'))

/-- Digits behind a bar, perhaps none, and the rest. -/
def barDigits? (input : List Char) : Option (List Char × List Char) := do
  let rest ← literal? "|" input
  return (rest.takeWhile Text.isDecimal, rest.dropWhile Text.isDecimal)

/-- The letters of a severity at the front: which of the three they are, and the rest. -/
def severityLetters (input : List Char) : List (Option (List Char)) × List Char :=
  let mark (letters : String) : Option (List Char × List Char) :=
    ((literal? letters input).filter fun rest => "|".toList.isPrefixOf rest).map
      (letters.toList, ·)
  match mark "W", mark "E", mark "WE" with
  | some (letters, rest), _, _ => ([some letters, none, none], rest)
  | _, some (letters, rest), _ => ([none, some letters, none], rest)
  | _, _, some (letters, rest) => ([none, none, some letters], rest)
  | _, _, _ => ([none, none, none], input)

/-- A severity, two fields for the file, a line and a column, separated by bars. -/
def two : Pattern where
  captures? text := do
    let (letters, rest) := severityLetters text
    let (first, rest) ← barField? rest
    let (second, rest) ← barField? rest
    let (line, rest) ← barDigits? rest
    let (column, _) ← barDigits? rest
    return numbered (letters ++ [some first, some second, some line, some column])
  fileParts := [4, 5]
  lineParts := [6]
  columnParts := [7]
  warningPart := some 1
  compilingPart := some 2
  sentinels := []

end EvalDesk.Diagnostic.Example
