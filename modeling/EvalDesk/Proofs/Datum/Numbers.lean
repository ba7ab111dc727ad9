import EvalDesk.Datum.Json
import Mathlib.Data.List.Basic
import Mathlib.Data.List.TakeDrop

/-!
# Numbers and constants in data

Numbers and constants are said here by what is written, without their readers. A number is read up
to where none of its parts goes on, and a constant whatever stands behind it. An integer with too
many digits is refused as such; everything else that was read is written as a number or constant.
-/
namespace EvalDesk.Json

/-! ## Numbers -/

/-- Decimal digits, at least one. -/
structure Digits (written : List Char) : Prop where
  /-- There is one. -/
  nonempty : written ≠ []
  /-- Each is a digit. -/
  decimal : ∀ c ∈ written, c.isDigit = true

/-- The whole part of a number: a zero alone, or digits that start with another. -/
def Whole (written : List Char) : Prop :=
  written = ['0'] ∨ Digits written ∧ written.head? ≠ some '0'

/-- The sign of an exponent, and whether it is negative. -/
def exponentSigns : List (List Char × Bool) := [([], false), (['+'], false), (['-'], true)]

/-- An exponent as it is written, and its value. -/
inductive Power : List Char → Int → Prop
  /-- A letter, a sign that may be left out, and digits. -/
  | intro {letter : Char} {sign written : List Char} {negative : Bool}
      (marked : letter = 'e' ∨ letter = 'E') (signed : (sign, negative) ∈ exponentSigns)
      (digits : Digits written) : Power (letter :: (sign ++ written))
        (if negative then -(digitsValue written : Int) else digitsValue written)

/-- A digit stands at the front. -/
def DigitAhead (input : List Char) : Prop := ∃ c rest, c.isDigit = true ∧ input = c :: rest

/-- A point with digits stands at the front. -/
def PointAhead (input : List Char) : Prop := ∃ written rest, Digits written ∧
  input = '.' :: (written ++ rest)

/-- An exponent stands at the front. -/
def PowerAhead (input : List Char) : Prop := ∃ written power rest, Power written power ∧
  input = written ++ rest

/-- No part of a number goes on at the front. -/
structure EndsNumber (input : List Char) : Prop where
  /-- No digit does. -/
  digit : ¬DigitAhead input
  /-- No point does. -/
  point : ¬PointAhead input
  /-- No exponent does. -/
  power : ¬PowerAhead input

/-- A number without its sign as it is written, and its datum. -/
inductive Unsigned (negative : Bool) : List Char → Datum → Prop
  /-- An integer that is not too long. -/
  | integer {whole : List Char} (isWhole : Whole whole)
      (short : whole.length ≤ Text.maximalDigits) : Unsigned negative whole
        (.integer (if negative then -(digitsValue whole : Int) else digitsValue whole))
  /-- A number with decimals only. -/
  | decimals {whole decimals : List Char} (isWhole : Whole whole) (digits : Digits decimals) :
      Unsigned negative (whole ++ '.' :: decimals)
        (.real (.ofDecimal negative (digitsValue (whole ++ decimals)) (-decimals.length)))
  /-- A number with an exponent only. -/
  | power {whole written : List Char} {power : Int} (isWhole : Whole whole)
      (exponent : Power written power) : Unsigned negative (whole ++ written)
        (.real (.ofDecimal negative (digitsValue whole) power))
  /-- A number with both. -/
  | both {whole decimals written : List Char} {power : Int} (isWhole : Whole whole)
      (digits : Digits decimals) (exponent : Power written power) :
      Unsigned negative (whole ++ '.' :: (decimals ++ written))
        (.real (.ofDecimal negative (digitsValue (whole ++ decimals)) (power - decimals.length)))

/-- Digits are read up to the first character that is none. -/
theorem digits_append {written rest : List Char} (decimal : ∀ c ∈ written, c.isDigit = true)
    (stops : ¬DigitAhead rest) : digits (written ++ rest) = (written, rest) := by
  rw [digits, List.span_eq_takeWhile_dropWhile, List.takeWhile_append_of_pos decimal,
    List.dropWhile_append_of_pos decimal]
  cases rest with
  | nil => simp
  | cons c rest =>
    have other : ¬c.isDigit = true := fun digit => stops ⟨c, rest, digit, rfl⟩
    simp [other]

/-- What the reader of digits finds. -/
theorem digits_cases (input : List Char) :
    ∃ written rest, (∀ c ∈ written, c.isDigit = true) ∧ ¬DigitAhead rest ∧
      input = written ++ rest ∧ digits input = (written, rest) := by
  refine ⟨input.takeWhile Char.isDigit, input.dropWhile Char.isDigit,
    fun _ => List.all_eq_true.mp List.all_takeWhile _, ?_,
    List.takeWhile_append_dropWhile.symm, by rw [digits, List.span_eq_takeWhile_dropWhile]⟩
  rintro ⟨c, rest, digit, same⟩
  have stops := List.head?_dropWhile_not Char.isDigit input
  rw [same] at stops
  simp [digit] at stops

/-- Where digits stand at the front there is a longest run of them. -/
theorem exists_run {front : List Char} (isDigits : Digits front) (more : List Char) :
    ∃ written rest, Digits written ∧ ¬DigitAhead rest ∧ front ++ more = written ++ rest := by
  obtain ⟨written, rest, decimal, stops, same, -⟩ := digits_cases (front ++ more)
  have nonempty : written ≠ [] := by
    rintro rfl
    obtain ⟨c, front, rfl⟩ := List.exists_cons_of_ne_nil isDigits.nonempty
    exact stops ⟨c, front ++ more, isDigits.decimal c (by simp), same.symm⟩
  exact ⟨written, rest, ⟨nonempty, decimal⟩, stops, same⟩

/-- Without a point there are no decimals. -/
theorem fraction_of_not_pointAhead {input : List Char} (none : ¬PointAhead input) :
    fraction input = ([], input) := by
  unfold fraction
  split
  · rename_i rest
    obtain ⟨written, behind, decimal, -, rfl, read⟩ := digits_cases rest
    simp only [read, List.isEmpty_iff]
    split
    · rfl
    · rename_i nonempty
      exact absurd ⟨written, behind, ⟨nonempty, decimal⟩, rfl⟩ none
  · rfl

/-- Decimals are read up to the first character that is no digit. -/
theorem fraction_point {written rest : List Char} (isDigits : Digits written)
    (stops : ¬DigitAhead rest) : fraction ('.' :: (written ++ rest)) = (written, rest) := by
  simp [fraction, digits_append isDigits.decimal stops, isDigits.nonempty]

/-- What the reader of decimals finds. -/
theorem fraction_cases (input : List Char) :
    (¬PointAhead input ∧ fraction input = ([], input)) ∨
      ∃ written rest, Digits written ∧ input = '.' :: (written ++ rest) ∧
        fraction input = (written, rest) := by
  by_cases point : PointAhead input
  · obtain ⟨front, more, isDigits, rfl⟩ := point
    obtain ⟨written, rest, run, stops, same⟩ := exists_run isDigits more
    exact .inr ⟨written, rest, run, by rw [same], by rw [same, fraction_point run stops]⟩
  · exact .inl ⟨point, fraction_of_not_pointAhead point⟩

/-- The sign of an exponent, and the rest behind it. -/
def exponentSign (input : List Char) : Bool × List Char :=
  match input with
  | '-' :: tail => (true, tail)
  | '+' :: tail => (false, tail)
  | other => (false, other)

/-- The sign is one of those an exponent may have. -/
theorem exponentSign_cases (input : List Char) :
    ∃ sign, (sign, (exponentSign input).1) ∈ exponentSigns ∧
      input = sign ++ (exponentSign input).2 := by
  unfold exponentSign
  split
  · exact ⟨['-'], by simp [exponentSigns], rfl⟩
  · exact ⟨['+'], by simp [exponentSigns], rfl⟩
  · exact ⟨[], by simp [exponentSigns], rfl⟩

/-- The sign is read in front of digits. -/
theorem exponentSign_append {sign written : List Char} {negative : Bool}
    (signed : (sign, negative) ∈ exponentSigns) (isDigits : Digits written) (rest : List Char) :
    exponentSign (sign ++ (written ++ rest)) = (negative, written ++ rest) := by
  obtain ⟨c, tail, rfl⟩ := List.exists_cons_of_ne_nil isDigits.nonempty
  have digit := isDigits.decimal c (by simp)
  simp only [exponentSigns, List.mem_cons, Prod.mk.injEq, List.not_mem_nil, or_false] at signed
  rcases signed with ⟨rfl, rfl⟩ | ⟨rfl, rfl⟩ | ⟨rfl, rfl⟩
  · unfold exponentSign
    split
    · rename_i same
      cases same
      contradiction
    · rename_i same
      cases same
      contradiction
    · rfl
  · rfl
  · rfl

/-- How an exponent is read: its letter, its sign and its digits. -/
theorem exponent_cons (letter : Char) (rest : List Char) :
    exponent (letter :: rest) =
      if letter = 'e' ∨ letter = 'E' then
        if (digits (exponentSign rest).2).1 = [] then (none, letter :: rest)
        else
          (some (if (exponentSign rest).1 then -(digitsValue (digits (exponentSign rest).2).1 : Int)
            else digitsValue (digits (exponentSign rest).2).1), (digits (exponentSign rest).2).2)
      else (none, letter :: rest) := by
  simp only [exponent, exponentSign, Bool.or_eq_true, decide_eq_true_eq, List.isEmpty_iff]
  rfl

/-- An exponent is read up to the first character that is no digit. -/
theorem exponent_append {written rest : List Char} {power : Int} (isPower : Power written power)
    (stops : ¬DigitAhead rest) : exponent (written ++ rest) = (some power, rest) := by
  obtain ⟨marked, signed, isDigits⟩ := isPower
  rw [List.cons_append, List.append_assoc, exponent_cons, if_pos marked,
    exponentSign_append signed isDigits, digits_append isDigits.decimal stops]
  simp [isDigits.nonempty]

/-- Without an exponent none is read. -/
theorem exponent_of_not_powerAhead {input : List Char} (none : ¬PowerAhead input) :
    exponent input = (.none, input) := by
  cases input with
  | nil => rfl
  | cons letter behind =>
    rw [exponent_cons]
    split
    · rename_i marked
      obtain ⟨sign, signed, split⟩ := exponentSign_cases behind
      obtain ⟨written, rest, decimal, -, same, read⟩ := digits_cases (exponentSign behind).2
      rw [read, if_pos]
      by_contra nonempty
      refine none ⟨_, _, rest, .intro marked signed ⟨nonempty, decimal⟩, ?_⟩
      rw [List.cons_append, List.append_assoc, ← same, ← split]
    · rfl

/-- What the reader of exponents finds. -/
theorem exponent_cases (input : List Char) :
    (¬PowerAhead input ∧ exponent input = (none, input)) ∨
      ∃ written power rest, Power written power ∧ input = written ++ rest ∧
        exponent input = (some power, rest) := by
  by_cases ahead : PowerAhead input
  · obtain ⟨_, _, more, ⟨marked, signed, isDigits⟩, rfl⟩ := ahead
    obtain ⟨written, rest, run, stops, same⟩ := exists_run isDigits more
    have longest := Power.intro marked signed run
    refine .inr ⟨_, _, rest, longest, ?_, ?_⟩
    · simp only [List.cons_append, List.append_assoc, same]
    · rw [← exponent_append longest stops]
      simp only [List.cons_append, List.append_assoc, same]
  · exact .inl ⟨ahead, exponent_of_not_powerAhead ahead⟩

/-- The whole part at the front, and the rest. -/
def wholePart (input : List Char) : List Char × List Char :=
  match input with
  | '0' :: rest => (['0'], rest)
  | other => digits other

/-- A whole part is read up to the first character that is no digit. -/
theorem wholePart_append {whole rest : List Char} (isWhole : Whole whole)
    (stops : ¬DigitAhead rest) : wholePart (whole ++ rest) = (whole, rest) := by
  rcases isWhole with rfl | ⟨isDigits, first⟩
  · rfl
  · unfold wholePart
    split
    · rename_i behind same
      obtain ⟨c, tail, rfl⟩ := List.exists_cons_of_ne_nil isDigits.nonempty
      cases same
      exact absurd rfl first
    · exact digits_append isDigits.decimal stops

/-- What the reader of whole parts finds; behind more than one digit there is no other. -/
theorem wholePart_cases (input : List Char) :
    (wholePart input).1 = [] ∨
      ∃ whole rest, Whole whole ∧ (1 < whole.length → ¬DigitAhead rest) ∧ input = whole ++ rest ∧
        wholePart input = (whole, rest) := by
  unfold wholePart
  split
  · rename_i rest
    exact .inr ⟨['0'], rest, .inl rfl, fun long => absurd long (by decide), rfl, rfl⟩
  · rename_i first
    obtain ⟨whole, rest, decimal, stops, rfl, read⟩ := digits_cases input
    rw [read]
    by_cases nonempty : whole = []
    · exact .inl nonempty
    · refine .inr ⟨whole, rest, .inr ⟨⟨nonempty, decimal⟩, ?_⟩, fun _ => stops, rfl, rfl⟩
      intro zero
      obtain ⟨tail, rfl⟩ := List.head?_eq_some_iff.mp zero
      exact first _ rfl

/-- A whole part starts with a digit. -/
theorem Whole.exists_digit {whole : List Char} (isWhole : Whole whole) :
    ∃ c tail, whole = c :: tail ∧ c.isDigit = true := by
  rcases isWhole with rfl | ⟨isDigits, -⟩
  · exact ⟨'0', [], rfl, rfl⟩
  · obtain ⟨c, tail, rfl⟩ := List.exists_cons_of_ne_nil isDigits.nonempty
    exact ⟨c, tail, rfl, isDigits.decimal c (by simp)⟩

/-- A whole part is not empty. -/
theorem Whole.ne_nil {whole : List Char} (isWhole : Whole whole) : whole ≠ [] := by
  obtain ⟨c, tail, rfl, -⟩ := isWhole.exists_digit
  exact List.cons_ne_nil c tail

/-- A number is read by its parts. -/
theorem number_of_parts {input whole behind decimals later rest : List Char} {power : Option Int}
    (negative : Bool) (nonempty : whole ≠ []) (first : wholePart input = (whole, behind))
    (second : fraction behind = (decimals, later)) (third : exponent later = (power, rest)) :
    number negative input =
      if decimals = [] ∧ power = none then
        if Text.maximalDigits < whole.length then .error (.integer (.tooLong whole.length))
        else
          .ok (.integer (if negative then -(digitsValue whole : Int) else digitsValue whole), rest)
      else .ok (.real (.ofDecimal negative (digitsValue (whole ++ decimals))
        (power.getD 0 - decimals.length)), rest) := by
  have unfolded : number negative input =
      let fractional := fraction (wholePart input).2
      let scaled := exponent fractional.2
      if (wholePart input).1.isEmpty then .error .malformed
      else if fractional.1.isEmpty && scaled.1.isNone then
        if Text.maximalDigits < (wholePart input).1.length then
          .error (.integer (.tooLong (wholePart input).1.length))
        else
          let value : Int := digitsValue (wholePart input).1
          .ok (.integer (if negative then -value else value), scaled.2)
      else
        .ok (.real (.ofDecimal negative (digitsValue ((wholePart input).1 ++ fractional.1))
          (scaled.1.getD 0 - fractional.1.length)), scaled.2) := rfl
  rw [unfolded, first]
  simp only [second, third, nonempty, List.isEmpty_iff, ↓reduceIte, Bool.and_eq_true,
    Option.isNone_iff_eq_none]

/-- An exponent starts with its letter. -/
theorem Power.head {written : List Char} {power : Int} (isPower : Power written power) :
    ∃ letter rest, written = letter :: rest ∧ (letter = 'e' ∨ letter = 'E') := by
  obtain ⟨marked, -, -⟩ := isPower
  exact ⟨_, _, rfl, marked⟩

/-- An exponent starts with no digit. -/
theorem Power.not_digitAhead {written : List Char} {power : Int} (isPower : Power written power)
    (rest : List Char) : ¬DigitAhead (written ++ rest) := by
  obtain ⟨letter, tail, rfl, marked⟩ := isPower.head
  rintro ⟨c, _, digit, same⟩
  rw [List.cons_append, List.cons.injEq] at same
  rw [← same.1] at digit
  rcases marked with rfl | rfl <;> contradiction

/-- An exponent starts with no point. -/
theorem Power.not_pointAhead {written : List Char} {power : Int} (isPower : Power written power)
    (rest : List Char) : ¬PointAhead (written ++ rest) := by
  obtain ⟨letter, tail, rfl, marked⟩ := isPower.head
  rintro ⟨_, _, -, same⟩
  rw [List.cons_append, List.cons.injEq] at same
  rw [same.1] at marked
  rcases marked with marked | marked <;> contradiction

/-- No digit stands where a point does. -/
theorem not_digitAhead_point (rest : List Char) : ¬DigitAhead ('.' :: rest) := by
  rintro ⟨c, _, digit, same⟩
  cases same
  contradiction

/-- A number is read up to where none of its parts goes on. -/
theorem number_of_unsigned {negative : Bool} {written rest : List Char} {value : Datum}
    (isNumber : Unsigned negative written value) (ends : EndsNumber rest) :
    number negative (written ++ rest) = .ok (value, rest) := by
  cases isNumber with
  | integer isWhole short =>
    rw [number_of_parts negative isWhole.ne_nil (wholePart_append isWhole ends.digit)
      (fraction_of_not_pointAhead ends.point) (exponent_of_not_powerAhead ends.power),
      if_pos ⟨rfl, rfl⟩, if_neg (by omega)]
  | decimals isWhole digits =>
    rw [List.append_assoc, List.cons_append,
      number_of_parts negative isWhole.ne_nil (wholePart_append isWhole (not_digitAhead_point _))
        (fraction_point digits ends.digit) (exponent_of_not_powerAhead ends.power),
      if_neg (by simp [digits.nonempty])]
    simp
  | power isWhole exponent =>
    rw [List.append_assoc, number_of_parts negative isWhole.ne_nil
      (wholePart_append isWhole (exponent.not_digitAhead _))
      (fraction_of_not_pointAhead (exponent.not_pointAhead _))
      (exponent_append exponent ends.digit), if_neg (by simp)]
    simp
  | both isWhole digits exponent =>
    rw [List.append_assoc, List.cons_append, List.append_assoc,
      number_of_parts negative isWhole.ne_nil (wholePart_append isWhole (not_digitAhead_point _))
        (fraction_point digits (exponent.not_digitAhead _)) (exponent_append exponent ends.digit),
      if_neg (by simp)]
    simp

/-- An integer that is too long is refused as such. -/
theorem number_of_long {negative : Bool} {whole rest : List Char} (isWhole : Whole whole)
    (long : Text.maximalDigits < whole.length) (ends : EndsNumber rest) :
    number negative (whole ++ rest) = .error (.integer (.tooLong whole.length)) := by
  rw [number_of_parts negative isWhole.ne_nil (wholePart_append isWhole ends.digit)
    (fraction_of_not_pointAhead ends.point) (exponent_of_not_powerAhead ends.power),
    if_pos ⟨rfl, rfl⟩, if_pos long]

/-- What the reader of numbers finds: a number, an integer that is too long, or neither. -/
theorem number_cases (negative : Bool) (input : List Char) :
    (∃ written value rest, Unsigned negative written value ∧ input = written ++ rest ∧
      number negative input = .ok (value, rest)) ∨
    (∃ whole rest, Whole whole ∧ Text.maximalDigits < whole.length ∧ EndsNumber rest ∧
      input = whole ++ rest ∧
      number negative input = .error (.integer (.tooLong whole.length))) ∨
    number negative input = .error .malformed := by
  rcases wholePart_cases input with empty | ⟨whole, behind, isWhole, stops, rfl, first⟩
  · exact .inr (.inr (if_pos (List.isEmpty_iff.mpr empty)))
  rcases fraction_cases behind with ⟨point, second⟩ | ⟨decimals, later, digits, rfl, second⟩
  · rcases exponent_cases behind with ⟨ahead, third⟩ | ⟨written, power, rest, exponent, rfl, third⟩
    · have read := number_of_parts negative isWhole.ne_nil first second third
      rw [if_pos ⟨rfl, rfl⟩] at read
      split at read
      · rename_i long
        have several : 1 < whole.length := by simp only [Text.maximalDigits] at long; omega
        exact .inr (.inl ⟨whole, behind, isWhole, long, ⟨stops several, point, ahead⟩, rfl, read⟩)
      · rename_i short
        exact .inl ⟨whole, _, behind, .integer isWhole (by omega), rfl, read⟩
    · have read := number_of_parts negative isWhole.ne_nil first second third
      rw [if_neg (by simp)] at read
      exact .inl ⟨_, _, rest, .power isWhole exponent, by simp, by simpa using read⟩
  · rcases exponent_cases later with ⟨-, third⟩ | ⟨written, power, rest, exponent, rfl, third⟩
    · have read := number_of_parts negative isWhole.ne_nil first second third
      rw [if_neg (by simp [digits.nonempty])] at read
      exact .inl ⟨_, _, later, .decimals isWhole digits, by simp, by simpa using read⟩
    · have read := number_of_parts negative isWhole.ne_nil first second third
      rw [if_neg (by simp)] at read
      exact .inl ⟨_, _, rest, .both isWhole digits exponent, by simp, by simpa using read⟩

/-! ## Constants -/

/-- A constant is read whatever stands behind it. -/
theorem constant?_append {name : String} {value : Datum} (listed : (name, value) ∈ constants)
    (rest : List Char) : constant? (name.toList ++ rest) = some (value, rest) := by
  simp only [constants, List.mem_cons, Prod.mk.injEq, List.not_mem_nil, or_false] at listed
  rcases listed with ⟨rfl, rfl⟩ | ⟨rfl, rfl⟩ | ⟨rfl, rfl⟩ | ⟨rfl, rfl⟩ | ⟨rfl, rfl⟩ | ⟨rfl, rfl⟩ <;>
    rfl

/-- A constant that was read stands at the front. -/
theorem exists_constant {input rest : List Char} {value : Datum}
    (read : constant? input = some (value, rest)) :
    ∃ name, (name, value) ∈ constants ∧ input = name.toList ++ rest := by
  obtain ⟨⟨name, meant⟩, found, same⟩ := Option.map_eq_some_iff.mp read
  cases same
  have front := List.find?_some found
  obtain ⟨rest, rfl⟩ := List.isPrefixOf_iff_prefix.mp front
  refine ⟨name, List.mem_of_find?_eq_some found, ?_⟩
  rw [← String.length_toList, List.drop_left]

/-- The sign of a number. -/
def minus (negative : Bool) : List Char := if negative then ['-'] else []

/-- No number is a constant. -/
theorem constant?_number {whole : List Char} (negative : Bool) (isWhole : Whole whole)
    (rest : List Char) : constant? (minus negative ++ (whole ++ rest)) = none := by
  obtain ⟨c, tail, rfl, digit⟩ := isWhole.exists_digit
  have other : c ∉ ['n', 't', 'f', 'N', 'I', '-'] := by
    rintro member
    have letters : ['n', 't', 'f', 'N', 'I', '-'].all (fun c => !c.isDigit) = true := by decide
    simpa [digit] using List.all_eq_true.mp letters c member
  simp only [List.mem_cons, List.not_mem_nil, or_false, not_or] at other
  cases negative <;> simp [constant?, constants, minus, other, Ne.symm]

end EvalDesk.Json
