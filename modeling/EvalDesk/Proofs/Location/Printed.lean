import EvalDesk.Proofs.Location.Literal
import EvalDesk.Proofs.Text.Digits
import Mathlib.Data.List.TakeDrop

/-!
# Printed locations

What the server prints for a location: a vector of an address as a string literal, a line and a
column, with blanks around and between them. The parts are read back as they were printed, and a
path that is no address of a file or of an entry in an archive is told as it is.
-/
namespace EvalDesk.Location

open Text (IsRun isSpace isDecimal maximalDigits)

/-! ## Blanks and numbers -/

/-- Blanks at the front are passed over. -/
theorem skipSpace_append {blanks : List Char} (blank : ∀ c ∈ blanks, isSpace c = true)
    (rest : List Char) : skipSpace (blanks ++ rest) = skipSpace rest :=
  List.dropWhile_append_of_pos blank

/-- What does not start with a blank is left as it is. -/
theorem skipSpace_cons {c : Char} (filled : isSpace c = false) (rest : List Char) :
    skipSpace (c :: rest) = c :: rest :=
  List.dropWhile_cons_of_neg (by simp [filled])

/-- Blanks that must be there are passed over with all that follow them. -/
theorem spaced?_append {blanks : List Char} (run : IsRun isSpace blanks) (rest : List Char) :
    spaced? (blanks ++ rest) = some (skipSpace rest) := by
  obtain ⟨c, more, rfl⟩ := List.exists_cons_of_ne_nil run.filled
  rw [List.cons_append, spaced?, if_pos (run.inside c (.head _)),
    skipSpace_append fun other member => run.inside other (.tail _ member)]

/-- A line or a column as the server prints it. -/
def numeral : Option Nat → List Char
  | some value => Nat.toDigits 10 value
  | none => ['n', 'i', 'l']

/-- A numeral does not start with a blank. -/
theorem skipSpace_numeral (value : Option Nat) (rest : List Char) :
    skipSpace (numeral value ++ rest) = numeral value ++ rest := by
  cases value with
  | none => exact skipSpace_cons (by decide) _
  | some value =>
    have run := Text.isRun_toDigits value
    rw [numeral]
    obtain ⟨c, more, digits⟩ := List.exists_cons_of_ne_nil run.filled
    have digit : isDecimal c = true := run.inside c (by rw [digits]; exact .head _)
    rw [digits]
    exact skipSpace_cons (Text.isSpace_of_isDecimal digit) _

/-- The reader of a numeral takes the digits in front, or else the word. -/
theorem number?_eq (text : List Char) :
    number? text =
      if (text.takeWhile isDecimal).isEmpty then
        if "nil".toList.isPrefixOf text then some (none, text.drop 3) else none
      else some (some (text.takeWhile isDecimal), text.dropWhile isDecimal) := by
  rw [number?, List.span_eq_takeWhile_dropWhile]
  cases digits : text.takeWhile isDecimal with
  | cons c more => rfl
  | nil =>
    have whole : text.dropWhile isDecimal = text := by
      have parts := List.takeWhile_append_dropWhile (p := isDecimal) (l := text)
      rwa [digits, List.nil_append] at parts
    rw [whole, if_pos List.isEmpty_nil]
    by_cases word : "nil".toList.isPrefixOf text = true
    · rw [if_pos word]
      obtain ⟨rest, rfl⟩ := List.isPrefixOf_iff_prefix.mp word
      rfl
    · rw [if_neg word]
      split
      · rename_i rest same
        cases same
        exact absurd (List.isPrefixOf_iff_prefix.mpr (List.prefix_append ['n', 'i', 'l'] rest)) word
      · rfl
      · rename_i filled same
        exact absurd (Prod.mk.inj same).1.symm filled

/-- A numeral is read to its end. -/
theorem number?_numeral (value : Option Nat) {rest : List Char}
    (ends : ∀ c ∈ rest.head?, isDecimal c = false) :
    number? (numeral value ++ rest) = some (value.map (Nat.toDigits 10), rest) := by
  rw [number?_eq]
  cases value with
  | none => rfl
  | some value =>
    have run := Text.isRun_toDigits value
    have filled : ¬(Nat.toDigits 10 value).isEmpty = true := mt List.isEmpty_iff.mp run.filled
    have behind : rest.takeWhile isDecimal = [] ∧ rest.dropWhile isDecimal = rest := by
      cases rest with
      | nil => exact ⟨rfl, rfl⟩
      | cons c more =>
        have stops : ¬ isDecimal c = true := by simp [ends c rfl]
        exact ⟨List.takeWhile_cons_of_neg stops, List.dropWhile_cons_of_neg stops⟩
    rw [numeral, List.takeWhile_append_of_pos run.inside, List.dropWhile_append_of_pos run.inside,
      behind.1, behind.2, List.append_nil, if_neg filled]
    rfl

/-- A blank is no digit. -/
theorem head?_append_not_isDecimal {blanks : List Char} (run : IsRun isSpace blanks)
    (rest : List Char) : ∀ c ∈ (blanks ++ rest).head?, isDecimal c = false := by
  intro c front
  obtain ⟨blank, more, rfl⟩ := List.exists_cons_of_ne_nil run.filled
  cases (show some blank = some c from front)
  exact Text.isDecimal_of_isSpace (run.inside c (.head _))

/-- A number is short enough to be read. -/
def IsShort (value : Nat) : Prop := (Nat.toDigits 10 value).length ≤ maximalDigits

/-- Whether a number is short enough can be told. -/
instance (value : Nat) : Decidable (IsShort value) := Nat.decLe _ _

/-- A numeral is read as its number, unless it is too long. -/
theorem numberOf_toDigits (value : Nat) : numberOf (Nat.toDigits 10 value) =
    if IsShort value then .ok (value : Int)
    else .error (.integer (.tooLong (Nat.toDigits 10 value).length)) := by
  rw [numberOf, Text.readInteger_digits (Text.isRun_toDigits value), Text.number_toDigits]
  by_cases short : IsShort value
  · rw [if_neg (Nat.not_lt_of_le short), if_pos short]
    rfl
  · rw [if_pos (Nat.lt_of_not_le short), if_neg short]
    rfl

/-! ## Addresses -/

/-- The address says where something is. -/
def IsTelling (address : String) : Prop := address ≠ "" ∧ address ∉ absentSources

/-- Whether an address says something can be told. -/
instance (address : String) : Decidable (IsTelling address) := inferInstanceAs (Decidable (_ ∧ _))

/-- A path that is no address: it names a source, and starts like the address neither of an entry
in an archive nor of a file. -/
structure IsPlain (path : String) : Prop where
  /-- It says where something is. -/
  telling : IsTelling path
  /-- It is no address of an entry. -/
  entry : ¬ "jar:".toList <+: path.toList
  /-- It is no address of a file. -/
  file : ¬ "file:".toList <+: path.toList

/-- Nothing is cut off from a text that does not start with a part. -/
theorem without?_eq_none {start : String} {text : List Char} (apart : ¬ start.toList <+: text) :
    without? start text = none := by
  rw [without?, if_neg (mt List.isPrefixOf_iff_prefix.mp apart)]

/-- A path that is no address is taken as it is. -/
theorem ofAddress_plain {path : String} (plain : IsPlain path) :
    ofAddress path.toList = (path, none) := by
  rw [ofAddress, without?_eq_none plain.entry, without?_eq_none plain.file, String.ofList_toList]

/-! ## Vectors -/

/-- A location as the server prints it. -/
structure Printed where
  /-- The path, or the address of a file or of an entry in an archive. -/
  address : String
  /-- The line, if it is known. -/
  line : Option Nat
  /-- The column, if it is known. -/
  column : Option Nat
  /-- The blanks in front of the vector. -/
  front : List Char
  /-- The blanks behind the opening bracket. -/
  opening : List Char
  /-- The blanks in front of the line. -/
  first : List Char
  /-- The blanks in front of the column. -/
  second : List Char
  /-- The blanks in front of the closing bracket. -/
  closing : List Char
  /-- The blanks behind the vector. -/
  behind : List Char

namespace Printed

/-- What is printed. -/
def written (printed : Printed) : List Char :=
  printed.front ++ '[' :: (printed.opening ++ '"' :: (escape printed.address.toList ++ '"' ::
    (printed.first ++ (numeral printed.line ++ (printed.second ++ (numeral printed.column ++
      (printed.closing ++ ']' :: printed.behind)))))))

/-- What stands around the parts of a vector is white space, and the parts stand apart. -/
structure IsProper (printed : Printed) : Prop where
  /-- In front of the vector there may be white space. -/
  front : ∀ c ∈ printed.front, isSpace c = true
  /-- So there may be behind the opening bracket. -/
  opening : ∀ c ∈ printed.opening, isSpace c = true
  /-- The line stands apart from the address. -/
  first : IsRun isSpace printed.first
  /-- The column stands apart from the line. -/
  second : IsRun isSpace printed.second
  /-- In front of the closing bracket there may be white space. -/
  closing : ∀ c ∈ printed.closing, isSpace c = true
  /-- So there may be behind the vector. -/
  behind : ∀ c ∈ printed.behind, isSpace c = true

variable {printed : Printed}

/-- The parts of a vector are read as they were printed. -/
theorem parts?_written (proper : printed.IsProper) :
    parts? printed.written = some (escape printed.address.toList,
      printed.line.map (Nat.toDigits 10), printed.column.map (Nat.toDigits 10)) := by
  have closed : ∀ c ∈ (printed.closing ++ ']' :: printed.behind).head?, isDecimal c = false := by
    cases closing : printed.closing with
    | nil =>
      rintro c ⟨rfl⟩
      decide
    | cons first more =>
      rintro c ⟨rfl⟩
      exact Text.isDecimal_of_isSpace (proper.closing first (by rw [closing]; exact .head _))
  have nothing : skipSpace printed.behind = [] := by
    rw [← List.append_nil printed.behind, skipSpace_append proper.behind]
    rfl
  have line := number?_numeral printed.line (head?_append_not_isDecimal proper.second
    (numeral printed.column ++ (printed.closing ++ ']' :: printed.behind)))
  simp only [parts?, written, skipSpace_append proper.front, skipSpace_append proper.opening,
    skipSpace_append proper.closing, skipSpace_cons (show isSpace '[' = false by decide),
    skipSpace_cons (show isSpace '"' = false by decide),
    skipSpace_cons (show isSpace ']' = false by decide), after?, if_true, Option.bind_eq_bind,
    Option.bind_some, literalRest?_escape, spaced?_append proper.first,
    spaced?_append proper.second, skipSpace_numeral, line, number?_numeral printed.column closed,
    nothing]

/-- A vector with an address that says something is read exactly when its numbers are short: as
what the address tells, with the first line if none is known. -/
theorem ofText?_written_eq_ok_iff (proper : printed.IsProper) (telling : IsTelling printed.address)
    {location : Location} :
    ofText? (String.ofList printed.written) = .ok (some location) ↔
      (∀ value ∈ printed.line, IsShort value) ∧ (∀ value ∈ printed.column, IsShort value) ∧
        location = {
          path := (ofAddress printed.address.toList).1
          line := printed.line.elim 1 (↑)
          column := printed.column.map (↑)
          archive := (ofAddress printed.address.toList).2 } := by
  have filled : printed.address.toList ≠ [] := mt String.toList_eq_nil_iff.mp telling.1
  simp only [ofText?, String.toList_ofList, parts?_written proper, unescape_escape,
    String.ofList_toList, filled, telling.2, or_self, if_false]
  cases printed.line with
  | none =>
    cases printed.column with
    | none => simp [bind, Except.bind, pure, Except.pure, eq_comm]
    | some column =>
      by_cases short : IsShort column <;>
        simp [numberOf_toDigits, short, bind, Except.bind, pure, Except.pure, Except.map, eq_comm]
  | some line =>
    by_cases shortLine : IsShort line
    · cases printed.column with
      | none => simp [numberOf_toDigits, shortLine, bind, Except.bind, pure, Except.pure, eq_comm]
      | some column =>
        by_cases short : IsShort column <;>
          simp [numberOf_toDigits, shortLine, short, bind, Except.bind, pure, Except.pure,
            Except.map, eq_comm]
    · simp [numberOf_toDigits, shortLine, bind, Except.bind]

/-- A printed location with a plain path is read as what was printed, however the path is spelled
and whatever blanks stand between the parts. -/
theorem ofText?_written_of_isPlain (proper : printed.IsProper) (plain : IsPlain printed.address)
    (line : ∀ value ∈ printed.line, IsShort value)
    (column : ∀ value ∈ printed.column, IsShort value) :
    ofText? (String.ofList printed.written) = .ok (some {
      path := printed.address
      line := printed.line.elim 1 (↑)
      column := printed.column.map (↑)
      archive := none }) := by
  rw [ofText?_written_eq_ok_iff proper plain.telling, ofAddress_plain plain]
  exact ⟨line, column, rfl⟩

/-- Backslashes in front of a quote and at the end of the path come back as they were. -/
theorem ofText?_written_backslashes :
    ofText? (String.ofList (written ⟨"a\\\"b\\\\", some 12, none, [' '], [], ['\t'], [' ', '\n'],
      [' '], ['\n']⟩)) = .ok (some ⟨"a\\\"b\\\\", 12, none, none⟩) :=
  ofText?_written_of_isPlain
    ⟨List.all_eq_true.mp (by decide), nofun, by decide, by decide, List.all_eq_true.mp (by decide),
      List.all_eq_true.mp (by decide)⟩
    ⟨by decide, by decide, by decide⟩ (by decide) (by decide)

end Printed
end EvalDesk.Location
