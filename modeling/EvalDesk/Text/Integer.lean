import EvalDesk.Text.Lines
import EvalDesk.Text.Quoted

/-!
# Integers in text

An integer is a run of decimal digits of any script, with an optional sign, single low lines
between digits and blanks around it. A run of more than 4300 digits is refused whatever follows
it, since reading it would take too long; an integer with more digits is not written either.
-/
namespace EvalDesk.Text

/-- The most digits an integer may have. -/
def maximalDigits : Nat := 4300

/-- Why a text is no integer, or an integer no text. -/
inductive IntegerFlaw where
  /-- It has more digits than may be read. -/
  | tooLong (digits : Nat)
  /-- It is not of the form of an integer. -/
  | malformed (literal : String)
  /-- An integer has more digits than may be written. -/
  | unwritable
  deriving DecidableEq, Repr

/-- The words for a flaw; a long literal is cut. -/
def IntegerFlaw.message : IntegerFlaw → String
  | .tooLong digits =>
    "Exceeds the limit (" ++ toString maximalDigits ++
      " digits) for integer string conversion: value has " ++ toString digits ++
      " digits; use sys.set_int_max_str_digits() to increase the limit"
  | .malformed literal =>
    "invalid literal for int() with base 10: " ++
      String.ofList ((quotedChars literal.toList).take 200)
  | .unwritable =>
    "Exceeds the limit (" ++ toString maximalDigits ++ " digits) for integer string conversion; " ++
      "use sys.set_int_max_str_digits() to increase the limit"

/-- Blanks that may stand around an integer: the ASCII ones that move the point of printing, and
all white space beyond ASCII. -/
def surroundsInteger (c : Char) : Bool :=
  if c.toNat < 0x7f then c = ' ' || ('\t' ≤ c && c ≤ '\r') else isSpace c

/-- The digits at the front, with single low lines between them left out, and the rest. Refused
when a low line is not between two digits. -/
def digitRun (afterDigit : Bool) : List Char → Option (List Nat × List Char)
  | [] => if afterDigit then some ([], []) else none
  | c :: rest =>
    match decimalValue? c with
    | some value => (digitRun true rest).map fun (values, rest) => (value :: values, rest)
    | none =>
      if !afterDigit then none
      else if c = '_' then digitRun false rest
      else some ([], c :: rest)

/-- The number a sequence of digit values writes in base ten. -/
def fromDigits (values : List Nat) : Nat := values.foldl (fun number value => number * 10 + value) 0

/-- The integer a text holds. -/
def readInteger (text : String) : Except IntegerFlaw Int :=
  let inner := trim surroundsInteger text.toList
  let (negative, unsigned) : Bool × List Char := match inner with
    | '-' :: rest => (true, rest)
    | '+' :: rest => (false, rest)
    | other => (false, other)
  match digitRun false unsigned with
  | none => .error (.malformed text)
  | some (values, rest) =>
    if maximalDigits < values.length then .error (.tooLong values.length)
    else if !rest.isEmpty then .error (.malformed text)
    else .ok (if negative then -(fromDigits values : Int) else fromDigits values)

/-- How many decimal digits an integer has. -/
def digitCount (number : Int) : Nat := (Nat.toDigits 10 number.natAbs).length

/-- An integer may be written as text. -/
def isWritable (number : Int) : Bool := digitCount number ≤ maximalDigits

end EvalDesk.Text
