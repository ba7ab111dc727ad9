import EvalDesk.Datum.Basic

/-!
# Reading data

Data is written as JSON text. Beyond the standard the reader takes the three numbers that are
infinite or undefined, and of entries with one key it keeps the place of the first and the datum
of the last. A control character inside a string and a mark of the byte order are refused, and an
integer with too many digits is refused as such when it is reached. Two things are left out: a limit
of recursion for data that is nested very deep, and strings with one half of a pair of units, which
are no texts here.
-/
namespace EvalDesk.Json

/-- Why a text holds no datum. -/
inductive Flaw where
  /-- The text does not have the form of a datum. -/
  | malformed
  /-- An integer in it is too long. -/
  | integer (flaw : Text.IntegerFlaw)
  deriving DecidableEq, Repr

/-- Blanks between the parts of a datum. -/
def isBlank (c : Char) : Bool := c = ' ' || c = '\t' || c = '\n' || c = '\r'

/-- The rest after blanks. -/
def skipBlanks (input : List Char) : List Char := input.dropWhile isBlank

/-- The four hexadecimal digits at the front, and the rest. -/
def codeUnit? (input : List Char) : Option (Nat × List Char) :=
  match input with
  | a :: b :: c :: d :: rest => (Text.hexNumber? [a, b, c, d]).map (·, rest)
  | _ => none

/-- The first of the two units that write a character beyond the first plane. -/
def isHighUnit (unit : Nat) : Bool := 0xd800 ≤ unit && unit < 0xdc00

/-- The second of the two units. -/
def isLowUnit (unit : Nat) : Bool := 0xdc00 ≤ unit && unit < 0xe000

/-- The character of a unit. One of a pair that stands alone is no character, and nothing is said
of texts in which it would be kept; the replacement character takes its place. -/
def unitChar (unit : Nat) : Char :=
  if isHighUnit unit || isLowUnit unit then '\uFFFD' else Char.ofNat unit

/-- The character a `u` escape writes, with the rest after it. -/
def escapedUnit? (input : List Char) : Option (Char × List Char) := do
  let (unit, rest) ← codeUnit? input
  if isHighUnit unit then
    match rest with
    | '\\' :: 'u' :: more =>
      match codeUnit? more with
      | some (second, tail) =>
        if isLowUnit second then
          return (Char.ofNat (0x10000 + (unit - 0xd800) * 0x400 + (second - 0xdc00)), tail)
        else return (unitChar unit, rest)
      | none => return (unitChar unit, rest)
    | _ => return (unitChar unit, rest)
  else return (unitChar unit, rest)

/-- The character of a one-letter escape. -/
def escapeChar? (c : Char) : Option Char :=
  match c with
  | '"' => some '"'
  | '\\' => some '\\'
  | '/' => some '/'
  | 'b' => some '\x08'
  | 'f' => some '\x0c'
  | 'n' => some '\n'
  | 'r' => some '\r'
  | 't' => some '\t'
  | _ => none

/-- The string up to the closing quote, after the reversed characters already read. -/
def stringFrom : Nat → List Char → List Char → Except Flaw (String × List Char)
  | 0, _, _ => .error .malformed
  | fuel + 1, reversed, input =>
    match input with
    | [] => .error .malformed
    | '"' :: rest => .ok (String.ofList reversed.reverse, rest)
    | '\\' :: 'u' :: rest =>
      match escapedUnit? rest with
      | some (c, rest) => stringFrom fuel (c :: reversed) rest
      | none => .error .malformed
    | '\\' :: c :: rest =>
      match escapeChar? c with
      | some c => stringFrom fuel (c :: reversed) rest
      | none => .error .malformed
    | '\\' :: [] => .error .malformed
    | c :: rest =>
      if c.toNat < 0x20 then .error .malformed else stringFrom fuel (c :: reversed) rest

/-- The ASCII digits at the front, and the rest. -/
def digits (input : List Char) : List Char × List Char := input.span Char.isDigit

/-- The number ASCII digits write. -/
def digitsValue (digits : List Char) : Nat :=
  digits.foldl (fun number c => number * 10 + (c.toNat - 48)) 0

/-- The digits behind a point, and the rest. -/
def fraction (input : List Char) : List Char × List Char :=
  match input with
  | '.' :: rest =>
    let (found, after) := digits rest
    if found.isEmpty then ([], input) else (found, after)
  | _ => ([], input)

/-- The exponent, if one is written, and the rest. -/
def exponent (input : List Char) : Option Int × List Char :=
  match input with
  | c :: rest =>
    if c = 'e' || c = 'E' then
      let (negative, unsigned) : Bool × List Char := match rest with
        | '-' :: tail => (true, tail)
        | '+' :: tail => (false, tail)
        | other => (false, other)
      let (found, after) := digits unsigned
      if found.isEmpty then (none, input)
      else (some (if negative then -(digitsValue found : Int) else digitsValue found), after)
    else (none, input)
  | [] => (none, input)

/-- The number at the front, whose sign has been read. -/
def number (negative : Bool) (input : List Char) : Except Flaw (Datum × List Char) :=
  let (whole, rest) : List Char × List Char := match input with
    | '0' :: rest => (['0'], rest)
    | other => digits other
  if whole.isEmpty then .error .malformed
  else
    let (decimals, rest) := fraction rest
    let (power, rest) := exponent rest
    if decimals.isEmpty && power.isNone then
      if Text.maximalDigits < whole.length then .error (.integer (.tooLong whole.length))
      else
        let value : Int := digitsValue whole
        .ok (.integer (if negative then -value else value), rest)
    else
      let value := Binary64.ofDecimal negative (digitsValue (whole ++ decimals))
        (power.getD 0 - decimals.length)
      .ok (.real value, rest)

/-- The constants and what they stand for. -/
def constants : List (String × Datum) :=
  [("null", .null), ("true", .bool true), ("false", .bool false), ("NaN", .real .undefined),
    ("Infinity", .real (.infinite false)), ("-Infinity", .real (.infinite true))]

/-- The constant at the front, and the rest. -/
def constant? (input : List Char) : Option (Datum × List Char) :=
  (constants.find? fun (name, _) => name.toList.isPrefixOf input).map fun (name, datum) =>
    (datum, input.drop name.length)

/-!
Every step below takes at least one character for two units of fuel, so twice the length of the
text is fuel enough for the text and for each string in it.
-/

mutual

/-- The datum at the front, and the rest. -/
def datum : Nat → List Char → Except Flaw (Datum × List Char)
  | 0, _ => .error .malformed
  | fuel + 1, input =>
    match input with
    | [] => .error .malformed
    | '"' :: rest => (stringFrom fuel [] rest).map fun (value, rest) => (.text value, rest)
    | '[' :: rest =>
      match skipBlanks rest with
      | ']' :: rest => .ok (.list [], rest)
      | other => items fuel [] other
    | '\x7b' :: rest =>
      match skipBlanks rest with
      | '\x7d' :: rest => .ok (.table [], rest)
      | other => entries fuel [] other
    | c :: rest =>
      match constant? input with
      | some found => .ok found
      | none => if c = '-' then number true rest else number false input

/-- The items of a list after the reversed ones already read, and the rest behind its end. -/
def items : Nat → List Datum → List Char → Except Flaw (Datum × List Char)
  | 0, _, _ => .error .malformed
  | fuel + 1, reversed, input => do
    let (item, rest) ← datum fuel input
    match skipBlanks rest with
    | ']' :: rest => .ok (.list (item :: reversed).reverse, rest)
    | ',' :: rest => items fuel (item :: reversed) (skipBlanks rest)
    | _ => .error .malformed

/-- The entries of a table after those already read, and the rest behind its end. -/
def entries : Nat → Table → List Char → Except Flaw (Datum × List Char)
  | 0, _, _ => .error .malformed
  | fuel + 1, known, input =>
    match input with
    | '"' :: rest => do
      let (key, rest) ← stringFrom fuel [] rest
      match skipBlanks rest with
      | ':' :: rest =>
        let (value, rest) ← datum fuel (skipBlanks rest)
        let known := known.put key value
        match skipBlanks rest with
        | '\x7d' :: rest => .ok (.table known, rest)
        | ',' :: rest => entries fuel known (skipBlanks rest)
        | _ => .error .malformed
      | _ => .error .malformed
    | _ => .error .malformed

end

/-- The datum a text holds, with nothing but blanks around it. -/
def read (text : String) : Except Flaw Datum := do
  let input := text.toList
  let (found, rest) ← datum (2 * input.length + 2) (skipBlanks input)
  if (skipBlanks rest).isEmpty then .ok found else .error .malformed

end EvalDesk.Json
