import EvalDesk.Proofs.Datum.Numbers
import EvalDesk.Proofs.Number.Shortest
import Mathlib.Data.List.DropRight

/-!
# Floating-point numbers in data

A finite number is written as its shortest decimal, with an exponent or without. Either text is one
of a number with decimals or an exponent, and what it writes lies in the interval of the number, so
it is read back as the number.
-/
namespace EvalDesk

namespace Json

/-! ## Numbers of digits -/

/-- Digits write what they are as a numeral. -/
theorem digitsValue_eq (digits : List Char) :
    digitsValue digits = Nat.ofDigitChars 10 digits 0 := by
  simp only [digitsValue, Nat.ofDigitChars, Nat.mul_comm 10]
  rfl

/-- Digits in front of others count as many tens as there are others. -/
theorem digitsValue_append (first second : List Char) :
    digitsValue (first ++ second) =
      digitsValue first * 10 ^ second.length + digitsValue second := by
  rw [digitsValue_eq, digitsValue_eq, digitsValue_eq, Nat.ofDigitChars_append,
    Nat.ofDigitChars_eq_ofDigitChars_zero, Nat.mul_comm]

/-- Zeros write nothing. -/
theorem digitsValue_zeros (count : Nat) : digitsValue (List.replicate count '0') = 0 := by
  rw [digitsValue_eq, Nat.ofDigitChars_replicate_zero, Nat.mul_zero]

/-- Zeros in front of digits count nothing. -/
theorem digitsValue_zeros_append (count : Nat) (digits : List Char) :
    digitsValue (List.replicate count '0' ++ digits) = digitsValue digits := by
  rw [digitsValue_append, digitsValue_zeros, Nat.zero_mul, Nat.zero_add]

/-- A numeral is read as its number. -/
theorem digitsValue_toDigits (number : Nat) : digitsValue (Nat.toDigits 10 number) = number := by
  rw [digitsValue_eq, Nat.ofDigitChars_toDigits (by decide) (Nat.le_refl 10)]

/-- Digits write less than the power of ten with as many zeros. -/
theorem digitsValue_lt {digits : List Char} (decimal : ∀ c ∈ digits, c.isDigit = true) :
    digitsValue digits < 10 ^ digits.length := by
  induction digits with
  | nil => decide
  | cons c rest ih =>
    obtain ⟨digit, others⟩ := List.forall_mem_cons.mp decimal
    have bound := ih others
    have last : c.toNat ≤ '9'.toNat := of_decide_eq_true (Bool.and_eq_true_iff.mp digit).2
    have own : digitsValue [c] ≤ 9 := by
      have value : digitsValue [c] = 0 * 10 + (c.toNat - 48) := rfl
      have nine : '9'.toNat = 57 := rfl
      omega
    have split := digitsValue_append [c] rest
    rw [List.singleton_append] at split
    rw [split, List.length_cons, Nat.pow_succ]
    generalize 10 ^ rest.length = power at bound ⊢
    nlinarith

/-- A number has no more digits than it is written with. -/
theorem length_toDigits_digitsValue_le {digits : List Char} (isDigits : Digits digits) :
    (Nat.toDigits 10 (digitsValue digits)).length ≤ digits.length :=
  (Nat.length_toDigits_le_iff (by decide) (List.length_pos_of_ne_nil isDigits.nonempty)).mpr
    (digitsValue_lt isDigits.decimal)

/-- A zero consists of digits. -/
theorem digits_zero : Digits ['0'] := ⟨List.cons_ne_nil _ _, List.forall_mem_singleton.mpr rfl⟩

/-- A whole part consists of digits. -/
theorem Whole.digits {whole : List Char} (isWhole : Whole whole) : Digits whole := by
  rcases isWhole with rfl | ⟨isDigits, -⟩
  · exact digits_zero
  · exact isDigits

/-- A numeral consists of digits. -/
theorem digits_toDigits (number : Nat) : Digits (Nat.toDigits 10 number) :=
  ⟨Nat.toDigits_ne_nil, fun _ => Nat.isDigit_of_mem_toDigits (by decide) (by decide)⟩

/-- The numeral of a positive number starts with another digit than zero. -/
theorem head?_toDigits {number : Nat} (positive : 0 < number) :
    (Nat.toDigits 10 number).head? ≠ some '0' := by
  induction number using Nat.strong_induction_on with
  | h number ih =>
    rw [Nat.toDigits_eq_if (by decide)]
    split
    · rename_i small
      have all : ∀ value : Fin 10, 0 < value.val → [Nat.digitChar value].head? ≠ some '0' := by
        decide
      exact all ⟨number, small⟩ positive
    · rename_i large
      have front := ih (number / 10) (by omega) (by omega)
      obtain ⟨c, rest, parts⟩ := List.exists_cons_of_ne_nil (@Nat.toDigits_ne_nil (number / 10) 10)
      rw [parts] at front ⊢
      exact front

/-- Zeros are digits. -/
theorem isDigit_of_mem_zeros {count : Nat} {c : Char} (member : c ∈ List.replicate count '0') :
    c.isDigit = true := by
  rw [List.eq_of_mem_replicate member]
  rfl

/-- Digits with zeros in front are digits. -/
theorem Digits.zeros_append {digits : List Char} (isDigits : Digits digits) (count : Nat) :
    Digits (List.replicate count '0' ++ digits) :=
  ⟨List.append_ne_nil_of_right_ne_nil _ isDigits.nonempty,
    List.forall_mem_append.mpr ⟨fun _ => isDigit_of_mem_zeros, isDigits.decimal⟩⟩

/-- Digits with zeros behind are digits. -/
theorem Digits.append_zeros {digits : List Char} (isDigits : Digits digits) (count : Nat) :
    Digits (digits ++ List.replicate count '0') :=
  ⟨List.append_ne_nil_of_left_ne_nil isDigits.nonempty _,
    List.forall_mem_append.mpr ⟨isDigits.decimal, fun _ => isDigit_of_mem_zeros⟩⟩

/-- A numeral is a whole part. -/
theorem whole_toDigits (number : Nat) : Whole (Nat.toDigits 10 number) := by
  rcases Nat.eq_zero_or_pos number with rfl | positive
  · exact .inl rfl
  · exact .inr ⟨digits_toDigits number, head?_toDigits positive⟩

end Json

namespace Binary64

open Json

/-! ## Digits without zeros at the end -/

/-- A numeral is its significant digits and zeros. -/
theorem exists_zeros (number : Nat) :
    ∃ zeros, Nat.toDigits 10 number = significantDigits number ++ List.replicate zeros '0' := by
  have parts : significantDigits number ++
      (Nat.toDigits 10 number).rtakeWhile (· = '0') = Nat.toDigits 10 number :=
    List.rdropWhile_append_rtakeWhile
  refine ⟨((Nat.toDigits 10 number).rtakeWhile (· = '0')).length, ?_⟩
  rw [← List.eq_replicate_of_mem fun c member => by simpa using List.mem_rtakeWhile_imp member]
  exact parts.symm

/-- The number a decimal writes. -/
def Decimal.value (decimal : Decimal) : ℚ :=
  digitsValue decimal.digits * 10 ^ (decimal.point - decimal.digits.length)

/-- Digits that start with another one than zero. -/
structure Decimal.IsPlain (decimal : Decimal) : Prop where
  /-- There are digits. -/
  digits : Digits decimal.digits
  /-- The first is no zero. -/
  first : decimal.digits.head? ≠ some '0'

/-- The significant digits of a positive number start with another one than zero, and write it with
the point behind the digits of the number. -/
theorem significantDigits_spec {count : Nat} (positive : 0 < count) (grid : Int) :
    Decimal.IsPlain ⟨significantDigits count, grid + (Nat.toDigits 10 count).length⟩ ∧
      Decimal.value ⟨significantDigits count, grid + (Nat.toDigits 10 count).length⟩ =
        count * 10 ^ grid := by
  obtain ⟨zeros, parts⟩ := exists_zeros count
  have all := digits_toDigits count
  have front := head?_toDigits positive
  have whole := digitsValue_toDigits count
  rw [parts] at all front whole ⊢
  generalize significantDigits count = digits at all front whole
  have some_digit : digits ≠ [] := by
    rintro rfl
    rw [List.nil_append, digitsValue_zeros] at whole
    omega
  refine ⟨⟨⟨some_digit, fun c member => all.decimal c (List.mem_append_left _ member)⟩, ?_⟩, ?_⟩
  · rwa [List.head?_append_of_ne_nil _ some_digit] at front
  · rw [digitsValue_append, digitsValue_zeros, List.length_replicate, Nat.add_zero] at whole
    rw [Decimal.value, List.length_append, List.length_replicate, ← whole]
    have shift : grid + ((digits.length + zeros : Nat) : Int) - digits.length = zeros + grid := by
      push_cast
      omega
    rw [shift, zpow_add₀ (by norm_num), zpow_natCast]
    push_cast
    ring

/-- The shortest decimal of a number starts with another digit than zero and lies in the interval of
the number. -/
theorem shortest_isPlain {significand : Nat} {exponent : Int} (narrow : significand < 2 ^ 53)
    (some_bit : 0 < significand) :
    (shortest significand exponent).IsPlain ∧
      RoundsTo significand exponent (shortest significand exponent).value := by
  obtain ⟨count, grid, rounds, found⟩ := @shortest_spec significand exponent narrow some_bit
  have positive : 0 < count := by
    by_contra nothing
    have above := rounds.le some_bit
    rw [Nat.eq_zero_of_not_pos nothing, Nat.cast_zero, zero_mul] at above
    exact absurd (two_zpow_pos _) (not_lt.mpr above)
  obtain ⟨plain, value⟩ := significantDigits_spec positive grid
  rw [found]
  exact ⟨plain, value ▸ rounds⟩

/-! ## The texts of a decimal -/

/-- A text is that of a number with decimals or an exponent that has the value of a decimal. -/
def Decimal.IsWritten (decimal : Decimal) (negative : Bool) (written : List Char) : Prop :=
  ∃ (digits : Nat) (power : Int),
    Unsigned negative written (.real (ofDecimal negative digits power)) ∧
      (digits * 10 ^ power : ℚ) = decimal.value

/-- An exponent, with a sign and at least two digits. -/
def exponentText (power : Int) : List Char :=
  'e' :: ((if power < 0 then "-" else "+").toList ++
    ((if (toString power.natAbs).length < 2 then "0" else "").toList ++
      (toString power.natAbs).toList))

/-- It is written as an exponent. -/
theorem power_exponentText (power : Int) : Power (exponentText power) power := by
  have text : toString power.natAbs = String.ofList (Nat.toDigits 10 power.natAbs) := rfl
  obtain ⟨zeros, padding⟩ : ∃ zeros,
      (if (toString power.natAbs).length < 2 then "0" else "").toList =
        List.replicate zeros '0' := by
    split
    · exact ⟨1, rfl⟩
    · exact ⟨0, rfl⟩
  have digits := (digits_toDigits power.natAbs).zeros_append zeros
  have written := digitsValue_zeros_append zeros (Nat.toDigits 10 power.natAbs)
  rw [digitsValue_toDigits] at written
  rw [exponentText, padding, text, String.toList_ofList]
  split
  · rename_i negative
    have isPower := Power.intro (.inl rfl : 'e' = 'e' ∨ 'e' = 'E')
      (by decide : (['-'], true) ∈ exponentSigns) digits
    rw [written, if_pos rfl, show -(power.natAbs : Int) = power by omega] at isPower
    exact isPower
  · rename_i positive
    have isPower := Power.intro (.inl rfl : 'e' = 'e' ∨ 'e' = 'E')
      (by decide : (['+'], false) ∈ exponentSigns) digits
    rw [written, if_neg Bool.false_ne_true, show (power.natAbs : Int) = power by omega] at isPower
    exact isPower

section Texts

variable {decimal : Decimal} (negative : Bool)

/-- A decimal is written with decimals when they have its value. -/
theorem Decimal.isWritten_decimals {whole decimals : List Char} (isWhole : Whole whole)
    (isDigits : Digits decimals) (value : (digitsValue (whole ++ decimals) : ℚ) *
      10 ^ (-(decimals.length : Int)) = decimal.value) :
    decimal.IsWritten negative (whole ++ '.' :: decimals) :=
  ⟨_, _, .decimals isWhole isDigits, value⟩

variable (plain : decimal.IsPlain)

include plain

/-- A decimal whose point stands in front of its digits, with zeros between them. -/
theorem Decimal.isWritten_behind (behind : decimal.point ≤ 0) :
    decimal.IsWritten negative
      (['0'] ++ '.' :: (List.replicate (-decimal.point).toNat '0' ++ decimal.digits)) := by
  have zeros := digitsValue_zeros_append ((-decimal.point).toNat + 1) decimal.digits
  rw [List.replicate_succ, List.cons_append] at zeros
  apply isWritten_decimals negative (.inl rfl) (plain.digits.zeros_append _)
  rw [List.singleton_append, zeros, value, List.length_append, List.length_replicate]
  congr 2
  push_cast
  omega

/-- A decimal whose point stands behind its digits, with some zeros between them. -/
theorem Decimal.isWritten_ahead {zeros : Nat}
    (ahead : decimal.point = decimal.digits.length + zeros) :
    decimal.IsWritten negative
      ((decimal.digits ++ List.replicate zeros '0') ++ '.' :: ['0']) := by
  have head : (decimal.digits ++ List.replicate zeros '0').head? ≠ some '0' := by
    rw [List.head?_append_of_ne_nil _ plain.digits.nonempty]
    exact plain.first
  have tenth : (10 : ℚ) * 10 ^ (-(['0'].length : Int)) = 1 := by norm_num
  apply isWritten_decimals negative (.inr ⟨plain.digits.append_zeros zeros, head⟩) digits_zero
  rw [List.append_assoc, ← List.replicate_succ', digitsValue_append, digitsValue_zeros,
    List.length_replicate, value, Nat.add_zero,
    show decimal.point - decimal.digits.length = zeros by omega, zpow_natCast, pow_succ]
  push_cast
  rw [← mul_assoc, mul_assoc, tenth, mul_one]

/-- A decimal whose point stands between its digits. -/
theorem Decimal.isWritten_between {front : Nat} (some_digit : 0 < front)
    (between : front < decimal.digits.length) (place : decimal.point = front) :
    decimal.IsWritten negative
      (decimal.digits.take front ++ '.' :: decimal.digits.drop front) := by
  have whole : Digits (decimal.digits.take front) := by
    refine ⟨?_, fun c member => plain.digits.decimal c (List.mem_of_mem_take member)⟩
    rw [ne_eq, List.take_eq_nil_iff]
    exact not_or.mpr ⟨by omega, plain.digits.nonempty⟩
  have decimals : Digits (decimal.digits.drop front) := by
    refine ⟨?_, fun c member => plain.digits.decimal c (List.mem_of_mem_drop member)⟩
    rw [ne_eq, List.drop_eq_nil_iff]
    omega
  have head : (decimal.digits.take front).head? ≠ some '0' := by
    rw [List.head?_take, if_neg (by omega)]
    exact plain.first
  apply isWritten_decimals negative (.inr ⟨whole, head⟩) decimals
  rw [List.take_append_drop, value, List.length_drop]
  congr 2
  omega

/-- A decimal without an exponent. -/
theorem Decimal.isWritten_positional : decimal.IsWritten negative decimal.positional.toList := by
  unfold positional
  dsimp only
  split
  · rename_i behind
    have text : ("0." ++ String.ofList (List.replicate (-decimal.point).toNat '0' ++
        decimal.digits)).toList =
        ['0'] ++ '.' :: (List.replicate (-decimal.point).toNat '0' ++ decimal.digits) := by simp
    rw [text]
    exact isWritten_behind negative plain behind
  · rename_i ahead
    split
    · rename_i short
      generalize width : decimal.point.toNat - decimal.digits.length = zeros
      have text : (String.ofList (decimal.digits ++ List.replicate zeros '0') ++ ".0").toList =
          (decimal.digits ++ List.replicate zeros '0') ++ '.' :: ['0'] := by simp
      rw [text]
      exact isWritten_ahead negative plain (by omega)
    · rename_i long
      have text : (String.ofList (decimal.digits.take decimal.point.toNat) ++ "." ++
          String.ofList (decimal.digits.drop decimal.point.toNat)).toList =
          decimal.digits.take decimal.point.toNat ++
            '.' :: decimal.digits.drop decimal.point.toNat := by simp
      rw [text]
      exact isWritten_between negative plain (by omega) (by omega) (by omega)

omit plain in
/-- How a decimal is written with an exponent. -/
theorem Decimal.scientific_toList {c : Char} {rest : List Char}
    (digits : decimal.digits = c :: rest) :
    decimal.scientific.toList = c :: ((if rest = [] then [] else '.' :: rest) ++
      exponentText (decimal.point - 1)) := by
  unfold scientific exponentText
  dsimp only
  rw [digits]
  cases rest <;> simp [String.toList_singleton]

/-- A decimal with an exponent. -/
theorem Decimal.isWritten_scientific : decimal.IsWritten negative decimal.scientific.toList := by
  obtain ⟨isDigits, first⟩ := plain
  obtain ⟨c, rest, digits⟩ := List.exists_cons_of_ne_nil isDigits.nonempty
  rw [digits] at isDigits first
  have whole : Whole [c] :=
    .inr ⟨⟨List.cons_ne_nil _ _, fun _ member => isDigits.decimal _ (by simp_all)⟩, first⟩
  have isPower := power_exponentText (decimal.point - 1)
  rw [scientific_toList digits, IsWritten, value, digits]
  cases rest with
  | nil => exact ⟨_, _, .power whole isPower, rfl⟩
  | cons next more =>
    have others : Digits (next :: more) :=
      ⟨List.cons_ne_nil _ _, fun _ member => isDigits.decimal _ (.tail _ member)⟩
    refine ⟨_, _, .both whole others isPower, ?_⟩
    have width : (c :: next :: more).length = (next :: more).length + 1 := rfl
    rw [List.singleton_append, width]
    congr 2
    push_cast
    omega

end Texts

/-- A finite number is written as a number that is read back as it. -/
theorem unsigned_text (negative : Bool) {significand : Nat} {exponent : Int}
    (fits : Fits significand exponent) :
    ∃ written, (text (.finite negative significand exponent)).toList = minus negative ++ written ∧
      Unsigned negative written (.real (.finite negative significand exponent)) := by
  have sign : (if negative then "-" else "").toList = minus negative := by cases negative <;> rfl
  unfold text
  dsimp only
  by_cases zero : significand = 0
  · subst zero
    have least : exponent = leastExponent := fits.filled.resolve_left (by decide)
    subst least
    rw [if_pos rfl, String.toList_append, sign]
    exact ⟨['0'] ++ '.' :: ['0'], rfl, .decimals (.inl rfl) digits_zero⟩
  · have some_bit := Nat.pos_of_ne_zero zero
    obtain ⟨plain, rounds⟩ := @shortest_isPlain significand exponent fits.narrow some_bit
    have written : ∀ {chars : List Char}, (shortest significand exponent).IsWritten negative chars →
        Unsigned negative chars (.real (.finite negative significand exponent)) := by
      rintro chars ⟨digits, power, isNumber, value⟩
      rw [← value] at rounds
      rw [ofDecimal_of_roundsTo fits some_bit negative rounds] at isNumber
      exact isNumber
    rw [if_neg zero, String.toList_append, sign]
    split
    · exact ⟨_, rfl, written (Decimal.isWritten_positional negative plain)⟩
    · exact ⟨_, rfl, written (Decimal.isWritten_scientific negative plain)⟩

end Binary64

end EvalDesk
