import EvalDesk.Text.Integer
import Mathlib.Data.Nat.Digits.Defs

/-!
# Numbers written as digits

A run of decimal digits, of any script, is read as the number that it writes in base ten. Neither a
sign nor a blank nor a low line belongs to such a run, so all that can be wrong with it is its
length. The number is zero only when each of the digits is. A numeral is such a run, and the number
it writes is the one it was made from.
-/
namespace EvalDesk.Text

/-- A run of characters with a property, of which there is at least one. -/
structure IsRun (inside : Char → Bool) (run : List Char) : Prop where
  /-- It is not empty. -/
  filled : run ≠ []
  /-- All its characters have the property. -/
  inside : ∀ c ∈ run, inside c = true

/-- A run of characters with a property can be told. -/
instance (inside : Char → Bool) (run : List Char) : Decidable (IsRun inside run) :=
  decidable_of_iff (run.isEmpty = false ∧ run.all inside = true)
    ⟨fun ⟨filled, all⟩ => ⟨List.isEmpty_eq_false_iff.mp filled, List.all_eq_true.mp all⟩,
      fun ⟨filled, all⟩ => ⟨List.isEmpty_eq_false_iff.mpr filled, List.all_eq_true.mpr all⟩⟩

/-- The number that digits write in base ten. -/
def number (digits : List Char) : Nat := Nat.ofDigits 10 (digits.filterMap decimalValue?).reverse

/-- White space is no decimal digit. -/
theorem isDecimal_of_isSpace {c : Char} (space : isSpace c = true) : isDecimal c = false := by
  obtain ⟨range, member, low, high⟩ := exists_range_of_inRanges space
  have apart : ∀ range ∈ blankRanges, ∀ code ∈ List.range' range.1 (range.2 + 1 - range.1),
      decimalZeros.find? (fun nought => nought ≤ code && code < nought + 10) = none := by
    decide +kernel
  have none_found := apart range member c.toNat (List.mem_range'_1.mpr (by omega))
  rw [isDecimal, decimalValue?, none_found]
  rfl

/-- A decimal digit is no white space. -/
theorem isSpace_of_isDecimal {c : Char} (digit : isDecimal c = true) : isSpace c = false := by
  by_contra space
  rw [isDecimal_of_isSpace (Bool.eq_true_of_not_eq_false space)] at digit
  contradiction

/-- White space is not alphanumeric. -/
theorem isAlphanumeric_of_isSpace {c : Char} (space : isSpace c = true) :
    isAlphanumeric c = false := by
  obtain ⟨range, member, low, high⟩ := exists_range_of_inRanges space
  have apart : ∀ range ∈ blankRanges, ∀ code ∈ List.range' range.1 (range.2 + 1 - range.1),
      inRanges alphanumericRanges code = false := by decide +kernel
  exact apart range member c.toNat (List.mem_range'_1.mpr (by omega))

/-- The blanks that may stand around an integer are white space. -/
theorem isSpace_of_surroundsInteger {c : Char} (blank : surroundsInteger c = true) :
    isSpace c = true := by
  unfold surroundsInteger at blank
  split at blank
  · have spaces : ∀ code ∈ 32 :: List.range' 9 5, inRanges blankRanges code = true := by decide
    apply spaces
    rcases Bool.or_eq_true_iff.mp blank with space | moved
    · rw [of_decide_eq_true space]
      decide
    · obtain ⟨low, high⟩ := Bool.and_eq_true_iff.mp moved
      have first : '\t'.toNat ≤ c.toNat := of_decide_eq_true low
      have last : c.toNat ≤ '\r'.toNat := of_decide_eq_true high
      exact .tail _ (List.mem_range'_1.mpr ⟨first, Nat.lt_succ_of_le last⟩)
  · exact blank

/-- A decimal digit does not surround an integer. -/
theorem surroundsInteger_of_isDecimal {c : Char} (digit : isDecimal c = true) :
    surroundsInteger c = false := by
  have filled := isSpace_of_isDecimal digit
  exact Bool.eq_false_iff.mpr fun blank =>
    Bool.eq_false_iff.mp filled (isSpace_of_surroundsInteger blank)

/-- Digits behind a digit, or at least one of them, are read to their end. -/
theorem digitRun_digits {digits : List Char} (inside : ∀ c ∈ digits, isDecimal c = true)
    {afterDigit : Bool} (some_digit : afterDigit = true ∨ digits ≠ []) :
    digitRun afterDigit digits = some (digits.filterMap decimalValue?, []) := by
  induction digits generalizing afterDigit with
  | nil => simp [digitRun, some_digit.resolve_right (· rfl)]
  | cons c rest ih =>
    obtain ⟨value, found⟩ := Option.isSome_iff_exists.mp (inside c (.head _))
    have behind := ih (fun other member => inside other (.tail _ member)) (.inl rfl)
    simp only [digitRun, found, List.filterMap_cons, behind, Option.map_some]

/-- Each digit has a value. -/
theorem length_values {digits : List Char} (inside : ∀ c ∈ digits, isDecimal c = true) :
    (digits.filterMap decimalValue?).length = digits.length := by
  induction digits with
  | nil => rfl
  | cons c rest ih =>
    obtain ⟨value, found⟩ := Option.isSome_iff_exists.mp (inside c (.head _))
    rw [List.filterMap_cons_some found, List.length_cons, List.length_cons,
      ih fun other member => inside other (.tail _ member)]

/-- The number of the values of digits is the one that the digits write. -/
theorem fromDigits_values (digits : List Char) :
    fromDigits (digits.filterMap decimalValue?) = number digits := by
  rw [fromDigits, number, Nat.ofDigits_eq_foldr, List.foldl_eq_foldr_reverse]
  congr 1
  funext value rest
  simp only [Nat.cast_id]
  omega

section Run

variable {digits : List Char} (run : IsRun isDecimal digits)

include run

/-- There is nothing to cut off from either end of a run of digits. -/
theorem trim_digits : trim surroundsInteger digits = digits := by
  have kept : ∀ items : List Char, (∀ c ∈ items, c ∈ digits) →
      items.dropWhile surroundsInteger = items := by
    intro items members
    cases items with
    | nil => rfl
    | cons c rest =>
      exact List.dropWhile_cons_of_neg (by
        simp [surroundsInteger_of_isDecimal (run.inside c (members c (.head _)))])
  rw [trim, kept digits (fun _ member => member),
    kept digits.reverse (fun _ member => List.mem_reverse.mp member), List.reverse_reverse]

/-- A run of digits is read as the number it writes, unless it is too long. -/
theorem readInteger_digits : readInteger (String.ofList digits) =
    if maximalDigits < digits.length then .error (.tooLong digits.length)
    else .ok (number digits) := by
  cases digits with
  | nil => exact absurd rfl run.filled
  | cons c rest =>
    have digit := run.inside c (.head _)
    have minus : c ≠ '-' := by
      rintro rfl
      exact absurd digit (by decide)
    have plus : c ≠ '+' := by
      rintro rfl
      exact absurd digit (by decide)
    have values := digitRun_digits run.inside (.inr run.filled : false = true ∨ c :: rest ≠ [])
    simp [readInteger, trim_digits run, minus, plus, values, length_values run.inside,
      fromDigits_values]

/-- A run of digits writes zero exactly when each digit of it is a zero. -/
theorem number_eq_zero_iff : number digits = 0 ↔ ∀ c ∈ digits, decimalValue? c = some 0 := by
  constructor
  · intro nought c member
    obtain ⟨value, found⟩ := Option.isSome_iff_exists.mp (run.inside c member)
    have listed : value ∈ (digits.filterMap decimalValue?).reverse :=
      List.mem_reverse.mpr (List.mem_filterMap.mpr ⟨c, member, found⟩)
    rw [found, Nat.digits_zero_of_eq_zero (by decide) nought value listed]
  · intro noughts
    have values : ∀ value ∈ (digits.filterMap decimalValue?).reverse, value = 0 := by
      intro value listed
      obtain ⟨c, member, found⟩ := List.mem_filterMap.mp (List.mem_reverse.mp listed)
      exact Option.some.inj (found.symm.trans (noughts c member))
    rw [number, List.eq_replicate_of_mem values, Nat.ofDigits_replicate_zero]

end Run

/-! ## Numerals -/

/-- An ASCII digit has its value. -/
theorem decimalValue?_of_isDigit {c : Char} (digit : c.isDigit = true) :
    decimalValue? c = some (c.toNat - '0'.toNat) := by
  obtain ⟨low, high⟩ := Bool.and_eq_true_iff.mp digit
  have first : '0'.toNat ≤ c.toNat := of_decide_eq_true low
  have last : c.toNat ≤ '9'.toNat := of_decide_eq_true high
  have zeros : decimalZeros.head? = some '0'.toNat := by decide
  obtain ⟨others, listed⟩ := List.head?_eq_some_iff.mp zeros
  have inside : (decide ('0'.toNat ≤ c.toNat) && decide (c.toNat < '0'.toNat + 10)) = true := by
    rw [Bool.and_eq_true, decide_eq_true_eq, decide_eq_true_eq]
    exact ⟨first, Nat.lt_succ_of_le last⟩
  simp only [decimalValue?, listed, List.find?_cons, inside, Option.map_some]

/-- A numeral is a run of digits. -/
theorem isRun_toDigits (value : Nat) : IsRun isDecimal (Nat.toDigits 10 value) := by
  refine ⟨Nat.toDigits_ne_nil, fun c member => ?_⟩
  rw [isDecimal, decimalValue?_of_isDigit (Nat.isDigit_of_mem_toDigits (by decide) (by decide)
    member)]
  rfl

/-- The values of ASCII digits write what the digits write, behind any others. -/
theorem foldl_values {digits : List Char} (ascii : ∀ c ∈ digits, c.isDigit = true) (before : Nat) :
    (digits.filterMap decimalValue?).foldl (fun number value => number * 10 + value) before =
      Nat.ofDigitChars 10 digits before := by
  induction digits generalizing before with
  | nil => rfl
  | cons c rest ih =>
    rw [List.filterMap_cons_some (decimalValue?_of_isDigit (ascii c (.head _))), List.foldl_cons,
      ih fun other member => ascii other (.tail _ member), Nat.ofDigitChars_cons, Nat.mul_comm]

/-- A numeral writes its number. -/
theorem number_toDigits (value : Nat) : number (Nat.toDigits 10 value) = value := by
  have ascii : ∀ c ∈ Nat.toDigits 10 value, c.isDigit = true :=
    fun _ member => Nat.isDigit_of_mem_toDigits (by decide) (by decide) member
  rw [← fromDigits_values, fromDigits, foldl_values ascii,
    Nat.ofDigitChars_toDigits (by decide) (Nat.le_refl 10)]

end EvalDesk.Text
