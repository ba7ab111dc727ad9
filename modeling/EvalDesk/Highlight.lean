import EvalDesk.Form.Span
import EvalDesk.Styled
import EvalDesk.Text.Character

/-!
# Highlighting a line

Every character of a line has at most one style. Rules find the parts of the line that are special
words, keywords, numbers, strings and a comment; where parts of two rules overlap the later rule
wins, and the comment wins over all. Within a rule parts are found from the left, each behind the
one before.
-/
namespace EvalDesk.Highlight

open Form (Span)

/-- The parts of a text that a matcher finds. The matcher sees the character before a place and the
text from there on, and gives the length of a part that starts there. While characters of a part
are left they are passed over. -/
def successive (length? : Option Char → List Char → Option Nat) (before : Option Char)
    (offset left : Nat) : List Char → List Span
  | [] => []
  | c :: rest =>
    match left with
    | left + 1 => successive length? (some c) (offset + 1) left rest
    | 0 =>
      match length? before (c :: rest) with
      | none => successive length? (some c) (offset + 1) 0 rest
      | some length =>
        ⟨offset, offset + length⟩ :: successive length? (some c) (offset + 1) (length - 1) rest

/-- All parts of a line that a matcher finds. -/
def parts (length? : Option Char → List Char → Option Nat) (line : List Char) : List Span :=
  successive length? none 0 0 line

/-- Words that name special forms. -/
def specialWords : List String :=
  ["def", "defn", "defn-", "defmacro", "defmulti", "defmethod", "defprotocol", "defrecord",
    "deftype", "defonce", "ns", "fn", "fn*", "let", "letfn", "loop", "recur", "if", "if-not",
    "if-let", "when", "when-not", "when-let", "cond", "condp", "case", "do", "doseq", "dotimes",
    "for", "try", "catch", "finally", "throw", "quote", "var", "binding", "new", "set!"]

/-- A character that ends a special word. -/
def endsWord (c : Char) : Bool := Text.isSpace c || c = ')' || c = ']'

/-- The special words of a line: the first word behind a round bracket, when it is one. -/
def specials (offset : Nat) : List Char → List Span
  | [] => []
  | c :: rest =>
    let later := specials (offset + 1) rest
    if c ≠ '(' then later
    else
      let blanks := rest.takeWhile Text.isSpace
      let word := (rest.drop blanks.length).takeWhile fun next => !endsWord next
      if String.ofList word ∈ specialWords then
        ⟨offset + 1 + blanks.length, offset + 1 + blanks.length + word.length⟩ :: later
      else later

/-- A character that may stand in a name before a colon. -/
def isNameChar (c : Char) : Bool := Text.isWord c || "*+!?<>=/-".toList.contains c

/-- A character of a keyword behind its colons. -/
def isKeywordChar (c : Char) : Bool := isNameChar c || c = '.'

/-- The length of a keyword: one or two colons, no name before them, and a name behind. -/
def keywordLength? (before : Option Char) (text : List Char) : Option Nat :=
  let colons := min (text.takeWhile (· = ':')).length 2
  let name := (text.drop colons).takeWhile isKeywordChar
  if before.any isNameChar ∨ colons = 0 ∨ name = [] then none else some (colons + name.length)

/-- How many digits are at the front. -/
def digitCount (text : List Char) : Nat := (text.takeWhile Text.isDecimal).length

/-- The length of a mark with digits behind it, zero when it is not there. -/
def markedDigits (mark : Char) : List Char → Nat
  | c :: rest => if c = mark ∧ digitCount rest ≠ 0 then 1 + digitCount rest else 0
  | [] => 0

/-- The length of what may stand behind the digits of a number: a letter that tells its kind with
the rest of the word, or a denominator. -/
def numberTail (text : List Char) : Nat :=
  match text with
  | c :: rest =>
    if c = 'M' ∨ c = 'N' ∨ c = 'r' then 1 + (rest.takeWhile Text.isWord).length
    else markedDigits '/' text
  | [] => 0

/-- No word goes on at the front of the text. -/
def startsNoWord (text : List Char) : Bool := !(text.head?.any Text.isWord)

/-- The length of a number: a sign, digits, and then a fraction and a tail as far as no word goes
on behind them; the tail is given up first and the fraction next. -/
def numberLength? (before : Option Char) (text : List Char) : Option Nat :=
  if before.any fun c => Text.isWord c || c = '-' then none
  else
    let sign := match text with
      | c :: _ => if c = '+' ∨ c = '-' then 1 else 0
      | [] => 0
    let whole := digitCount (text.drop sign)
    let integer := sign + whole
    let fraction := integer + markedDigits '.' (text.drop integer)
    let full := fraction + numberTail (text.drop fraction)
    if whole = 0 then none
    else [full, fraction, integer].find? fun length => startsNoWord (text.drop length)

/-- The length of the inside of a string and of its closing quote if it has one. A backslash takes
the character behind it along, except a line feed, before which the string ends. -/
def stringTail : List Char → Nat
  | [] => 0
  | '"' :: _ => 1
  | ['\\'] => 0
  | '\\' :: c :: rest => if c = '\n' then 0 else 2 + stringTail rest
  | _ :: rest => 1 + stringTail rest

/-- The length of a string. -/
def stringLength? (_ : Option Char) : List Char → Option Nat
  | '"' :: rest => some (1 + stringTail rest)
  | _ => none

/-- A comment may start before this text: no line ends in it, except at its very end. -/
def endsLine (text : List Char) : Bool := (text.dropWhile (· ≠ '\n')).length ≤ 1

/-- The place of the first semicolon that has no backslash before it and nothing but its own line
behind it. -/
def commentStart? (before : Option Char) (offset : Nat) : List Char → Option Nat
  | [] => none
  | c :: rest =>
    if c = ';' ∧ before ≠ some '\\' ∧ endsLine rest then some offset
    else commentStart? (some c) (offset + 1) rest

/-- The place lies in the span. -/
def covers (place : Nat) (span : Span) : Bool := span.start ≤ place && place < span.stop

/-- The strings of a line. -/
def strings (line : List Char) : List Span := parts stringLength? line

/-- The comment of a line. The semicolon that could start it does not when it is in a string. -/
def comments (line : List Char) : List Span :=
  match commentStart? none 0 line with
  | none => []
  | some start => if (strings line).any (covers start) then [] else [⟨start, line.length⟩]

/-- The rules in order, each with its style and its parts of a line. -/
def rules (line : List Char) : List (String × List Span) :=
  [("bold blue", specials 0 line),
    ("magenta", parts keywordLength? line),
    ("cyan", parts numberLength? line),
    ("green", strings line),
    ("dim grey", comments line)]

/-- The style at a place: that of the last rule with a part there. -/
def styleAt (rules : List (String × List Span)) (place : Nat) : Option String :=
  rules.foldl (fun found (style, spans) => if spans.any (covers place) then some style else found)
    none

/-- The style of every character of a line. -/
def styles (line : List Char) : List (Option String) :=
  (List.range line.length).map (styleAt (rules line))

/-- The runs of characters of one style. -/
def runs (line : List Char) : List (List (Char × Option String)) :=
  (line.zip (styles line)).splitBy fun left right => left.2 == right.2

/-- Add a run to styled text. -/
def appendRun (styled : Styled) (run : List (Char × Option String)) : Styled :=
  styled.append (run.map (·.1)) ((run.head?.bind (·.2)).getD "")

/-- The highlighted line. -/
def line (text : List Char) : Styled := (runs text).foldl appendRun .empty

end EvalDesk.Highlight
