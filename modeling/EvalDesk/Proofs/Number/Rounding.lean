import EvalDesk.Number.Binary64
import Mathlib.Algebra.Order.Field.Power
import Mathlib.Data.Rat.Cast.Order
import Mathlib.Tactic.FieldSimp
import Mathlib.Tactic.Linarith
import Mathlib.Tactic.NormNum
import Mathlib.Tactic.Positivity
import Mathlib.Tactic.Ring

/-!
# Rounding to floating-point numbers

Around each positive floating-point number lies the interval of the rationals that are rounded to
it: half a unit of its last place wide on either side, but only a quarter below a power of two,
where the numbers underneath are closer. The ends belong to it when its significand is even.
Rounding a fraction, or a decimal of any length, gives the number in whose interval it lies.
-/
namespace EvalDesk.Binary64

/-! ## Proper numbers -/

/-- A significand and an exponent as they are kept in 64 bits: the significand has 53 bits, or fewer
at the least exponent. -/
structure Fits (significand : Nat) (exponent : Int) : Prop where
  /-- There are no more bits. -/
  narrow : significand < 2 ^ 53
  /-- The exponent is not below the least. -/
  least : leastExponent ≤ exponent
  /-- The exponent is not above the greatest. -/
  greatest : exponent ≤ greatestExponent
  /-- There are fewer bits only at the least exponent. -/
  filled : 2 ^ 52 ≤ significand ∨ exponent = leastExponent

/-- A number that can be kept in 64 bits, written in the one way. -/
def IsProper : Binary64 → Prop
  | .finite _ significand exponent => Fits significand exponent
  | .infinite _ | .undefined => True

/-- A zero is proper. -/
theorem isProper_signedZero (negative : Bool) : (signedZero negative).IsProper :=
  ⟨by decide, Int.le_refl _, by decide, .inr rfl⟩

/-- How far the interval of a number reaches below it, in quarters of a unit. -/
def below (significand : Nat) (exponent : Int) : Nat :=
  if significand = 2 ^ 52 ∧ leastExponent < exponent then 1 else 2

/-- A rational lies in the interval of the number `significand * 2 ^ exponent`. -/
def RoundsTo (significand : Nat) (exponent : Int) (number : ℚ) : Prop :=
  let low : ℚ := (4 * significand - below significand exponent) * 2 ^ (exponent - 2)
  let high : ℚ := (4 * significand + 2) * 2 ^ (exponent - 2)
  if significand % 2 = 0 then low ≤ number ∧ number ≤ high else low < number ∧ number < high

/-! ## Powers with integer exponents -/

/-- A power is that of the positive part of its exponent over that of the negative one. -/
theorem zpow_mul_pow_toNat {base : ℚ} (nonzero : base ≠ 0) (exponent : Int) :
    base ^ exponent * base ^ (-exponent).toNat = base ^ exponent.toNat := by
  rw [← zpow_natCast, ← zpow_natCast, ← zpow_add₀ nonzero]
  congr 1
  omega

/-- Powers of two are ordered as their exponents. -/
theorem two_zpow_le_iff {first second : Int} :
    (2 : ℚ) ^ first ≤ 2 ^ second ↔ first ≤ second := zpow_le_zpow_iff_right₀ (by norm_num)

/-- Powers of two are ordered strictly as their exponents. -/
theorem two_zpow_lt_iff {first second : Int} :
    (2 : ℚ) ^ first < 2 ^ second ↔ first < second := zpow_lt_zpow_iff_right₀ (by norm_num)

/-- A positive power of two. -/
theorem two_zpow_pos (exponent : Int) : (0 : ℚ) < 2 ^ exponent := by positivity

/-- Powers of two are multiplied by adding their exponents. -/
theorem two_zpow_add (first second : Int) : (2 : ℚ) ^ (first + second) = 2 ^ first * 2 ^ second :=
  zpow_add₀ (by norm_num) first second

/-- A power of two is counted in units of a lower one. -/
theorem two_zpow_eq_mul {exponent unit : Int} (count : Nat) (apart : exponent = count + unit) :
    (2 : ℚ) ^ exponent = 2 ^ count * 2 ^ unit := by
  rw [apart, two_zpow_add, zpow_natCast]

/-! ## Rounding an integer quotient -/

/-- The nearest integer to a quotient is the one that is at most a half away, and even when it is
as much as a half. -/
theorem roundEven_eq {numerator denominator nearest : Nat} (positive : 0 < denominator)
    (low : 2 * nearest * denominator ≤ 2 * numerator + denominator)
    (high : 2 * numerator ≤ (2 * nearest + 1) * denominator)
    (tie : 2 * nearest * denominator = 2 * numerator + denominator ∨
      2 * numerator = (2 * nearest + 1) * denominator → nearest % 2 = 0) :
    roundEven numerator denominator = nearest := by
  have split := Nat.div_add_mod numerator denominator
  have small := Nat.mod_lt numerator positive
  simp only [roundEven]
  generalize numerator / denominator = quotient at split ⊢
  generalize numerator % denominator = rest at split small ⊢
  subst split
  have above : nearest ≤ quotient + 1 := by
    by_contra far
    have wide := Nat.mul_le_mul_right denominator (show quotient + 2 ≤ nearest by omega)
    nlinarith
  have under : quotient ≤ nearest := by
    by_contra far
    have wide := Nat.mul_le_mul_right denominator (show nearest + 1 ≤ quotient by omega)
    nlinarith
  have either : nearest = quotient ∨ nearest = quotient + 1 := by omega
  -- What is left is linear in the product of the quotient and the denominator.
  simp only [Nat.mul_assoc, Nat.add_mul, Nat.one_mul, Nat.mul_comm denominator quotient]
    at low high tie
  rcases either with rfl | rfl
  · generalize nearest * denominator = product at low high tie
    split
    · rfl
    · split <;> omega
  · rw [Nat.add_mul] at low high tie
    generalize quotient * denominator = product at low high tie
    split
    · omega
    · split <;> omega

/-- The nearest integer to a quotient is its integer part or the next one. -/
theorem roundEven_bounds (numerator denominator : Nat) :
    numerator / denominator ≤ roundEven numerator denominator ∧
      roundEven numerator denominator ≤ numerator / denominator + 1 := by
  unfold roundEven
  dsimp only
  split
  · omega
  · split <;> omega

/-! ## The exponent of a fraction -/

/-- A fraction over a power of two. -/
theorem scaleDown_eq (numerator denominator : Nat) (exponent : Int) :
    scaleDown numerator denominator exponent =
      (numerator * 2 ^ (-exponent).toNat, denominator * 2 ^ exponent.toNat) := by
  unfold scaleDown
  split
  · rw [show (-exponent).toNat = 0 by omega, pow_zero, mul_one]
    rfl
  · rw [show exponent.toNat = 0 by omega, pow_zero, mul_one]
    rfl

/-- Its value. -/
theorem scaleDown_div (numerator denominator : Nat) (exponent : Int) :
    ((numerator * 2 ^ (-exponent).toNat : Nat) : ℚ) / (denominator * 2 ^ exponent.toNat : Nat) =
      numerator / denominator / 2 ^ exponent := by
  have power := zpow_mul_pow_toNat (by norm_num : (2 : ℚ) ≠ 0) exponent
  push_cast
  rw [← power]
  field_simp

/-- An integer quotient is below a bound exactly when the fraction is. -/
theorem div_lt_iff {numerator denominator bound : Nat} (positive : 0 < denominator) :
    numerator / denominator < bound ↔ (numerator : ℚ) / denominator < bound := by
  rw [Nat.div_lt_iff_lt_mul positive, div_lt_iff₀ (by exact_mod_cast positive)]
  exact_mod_cast Iff.rfl

/-- The integer part of a fraction over a power of two has few bits when the fraction is small. -/
theorem scaled_lt_iff (numerator : Nat) {denominator : Nat} (positive : 0 < denominator)
    (exponent : Int) (bits : Nat) :
    (numerator * 2 ^ (-exponent).toNat) / (denominator * 2 ^ exponent.toNat) < 2 ^ bits ↔
      (numerator : ℚ) / denominator < 2 ^ (exponent + bits) := by
  have wide : 0 < denominator * 2 ^ exponent.toNat := by positivity
  rw [div_lt_iff wide, scaleDown_div, div_lt_iff₀ (two_zpow_pos exponent), two_zpow_add, mul_comm,
    zpow_natCast]
  norm_num

/-- A fraction lies between two powers of two around its guessed exponent. -/
theorem guess_bounds {numerator denominator : Nat} (some_part : 0 < numerator)
    (positive : 0 < denominator) :
    let guess : Int := (Nat.log2 numerator : Int) - Nat.log2 denominator - 52
    (2 : ℚ) ^ (guess + 51) ≤ numerator / denominator ∧
      (numerator : ℚ) / denominator < 2 ^ (guess + 53) := by
  intro guess
  have under : (2 : ℚ) ^ (Nat.log2 numerator : Int) ≤ numerator := by
    exact_mod_cast Nat.log2_self_le some_part.ne'
  have above : (numerator : ℚ) < 2 ^ ((Nat.log2 numerator : Int) + 1) := by
    exact_mod_cast @Nat.lt_log2_self numerator
  have wide : (2 : ℚ) ^ (Nat.log2 denominator : Int) ≤ denominator := by
    exact_mod_cast Nat.log2_self_le positive.ne'
  have narrow : (denominator : ℚ) < 2 ^ ((Nat.log2 denominator : Int) + 1) := by
    exact_mod_cast @Nat.lt_log2_self denominator
  have some_width : (0 : ℚ) < denominator := by exact_mod_cast positive
  constructor
  · rw [le_div_iff₀ some_width]
    calc (2 : ℚ) ^ (guess + 51) * denominator
        ≤ 2 ^ (guess + 51) * 2 ^ ((Nat.log2 denominator : Int) + 1) := by gcongr
      _ = 2 ^ (Nat.log2 numerator : Int) := by
        rw [← two_zpow_add]
        congr 1
        omega
      _ ≤ numerator := under
  · rw [div_lt_iff₀ some_width]
    calc (numerator : ℚ) < 2 ^ ((Nat.log2 numerator : Int) + 1) := above
      _ = 2 ^ (guess + 53) * 2 ^ (Nat.log2 denominator : Int) := by
        rw [← two_zpow_add]
        congr 1
        omega
      _ ≤ 2 ^ (guess + 53) * denominator := by gcongr

/-- At its exponent a fraction is below the significands of 54 bits, and it has 53 bits unless the
exponent is the least. -/
theorem exponentOf_spec {numerator denominator : Nat} (some_part : 0 < numerator)
    (positive : 0 < denominator) :
    leastExponent ≤ exponentOf numerator denominator ∧
      (numerator : ℚ) / denominator < 2 ^ (exponentOf numerator denominator + 53) ∧
      ((2 : ℚ) ^ (exponentOf numerator denominator + 52) ≤ numerator / denominator ∨
        exponentOf numerator denominator = leastExponent) := by
  obtain ⟨under, above⟩ := guess_bounds some_part positive
  unfold exponentOf
  generalize (Nat.log2 numerator : Int) - Nat.log2 denominator - 52 = guess at under above ⊢
  simp only [scaleDown_eq, Nat.pow_eq, scaled_lt_iff numerator positive guess 52]
  -- The exponent that fits, before it is raised to the least one.
  have fits : ∀ own : Int, (2 : ℚ) ^ (own + 52) ≤ numerator / denominator →
      (numerator : ℚ) / denominator < 2 ^ (own + 53) →
      leastExponent ≤ max leastExponent own ∧
        (numerator : ℚ) / denominator < 2 ^ (max leastExponent own + 53) ∧
        ((2 : ℚ) ^ (max leastExponent own + 52) ≤ numerator / denominator ∨
          max leastExponent own = leastExponent) := by
    intro own first last
    refine ⟨by omega, lt_of_lt_of_le last (two_zpow_le_iff.mpr (by omega)), ?_⟩
    by_cases low : own ≤ leastExponent
    · exact .inr (by omega)
    · rw [show max leastExponent own = own by omega]
      exact .inl first
  split
  · rename_i short
    apply fits
    · rw [show guess - 1 + 52 = guess + 51 by omega]
      exact under
    · rw [show guess - 1 + 53 = guess + 52 by omega]
      exact short
  · rename_i long
    exact fits guess (not_lt.mp long) above

/-- No other exponent fits. -/
theorem exponentOf_eq {numerator denominator : Nat} {exponent : Int} (some_part : 0 < numerator)
    (positive : 0 < denominator) (least : leastExponent ≤ exponent)
    (last : (numerator : ℚ) / denominator < 2 ^ (exponent + 53))
    (first : (2 : ℚ) ^ (exponent + 52) ≤ numerator / denominator ∨ exponent = leastExponent) :
    exponentOf numerator denominator = exponent := by
  obtain ⟨ownLeast, ownLast, ownFirst⟩ := exponentOf_spec some_part positive
  have le : exponent ≤ exponentOf numerator denominator := by
    rcases first with first | same
    · have order := two_zpow_lt_iff.mp (lt_of_le_of_lt first ownLast)
      omega
    · omega
  have ge : exponentOf numerator denominator ≤ exponent := by
    rcases ownFirst with ownFirst | same
    · have order := two_zpow_lt_iff.mp (lt_of_le_of_lt ownFirst last)
      omega
    · omega
  omega

/-! ## Rounding a fraction -/

/-- How a positive fraction is rounded: its nearest significand at its exponent, which moves to the
next exponent when it has a bit too many. -/
theorem ofFraction_eq (negative : Bool) {numerator denominator : Nat} (some_part : numerator ≠ 0) :
    ofFraction negative numerator denominator =
      let exponent := exponentOf numerator denominator
      let rounded :=
        roundEven (numerator * 2 ^ (-exponent).toNat) (denominator * 2 ^ exponent.toNat)
      if rounded = 2 ^ 53 then
        if greatestExponent < exponent + 1 then .infinite negative
        else .finite negative (2 ^ 52) (exponent + 1)
      else if greatestExponent < exponent then .infinite negative
      else .finite negative rounded exponent := by
  simp only [ofFraction, if_neg some_part, scaleDown_eq, Nat.pow_eq]
  split <;> rfl

/-- A fraction is rounded to a proper number. -/
theorem isProper_ofFraction (negative : Bool) (numerator : Nat) {denominator : Nat}
    (positive : 0 < denominator) : (ofFraction negative numerator denominator).IsProper := by
  by_cases nothing : numerator = 0
  · rw [ofFraction, if_pos nothing]
    exact isProper_signedZero negative
  obtain ⟨least, last, first⟩ := exponentOf_spec (Nat.pos_of_ne_zero nothing) positive
  rw [ofFraction_eq negative nothing]
  generalize exponentOf numerator denominator = exponent at least last first ⊢
  have narrow := (scaled_lt_iff numerator positive exponent 53).mpr last
  obtain ⟨low, high⟩ := roundEven_bounds (numerator * 2 ^ (-exponent).toNat)
    (denominator * 2 ^ exponent.toNat)
  dsimp only
  split
  · split
    · trivial
    · exact ⟨by decide, by omega, by omega, .inl (Nat.le_refl _)⟩
  · rename_i other
    split
    · trivial
    · refine ⟨by omega, least, by omega, ?_⟩
      rcases first with first | same
      · have filled := mt (scaled_lt_iff numerator positive exponent 52).mp (not_lt.mpr first)
        exact .inl (by omega)
      · exact .inr same

/-- The nearest integer to a quotient, by the value of the quotient. -/
theorem roundEven_of_near {numerator denominator nearest : Nat} (positive : 0 < denominator)
    (low : (2 * nearest - 1 : ℚ) ≤ 2 * numerator / denominator)
    (high : (2 * numerator : ℚ) / denominator ≤ 2 * nearest + 1)
    (tie : (2 * nearest - 1 : ℚ) = 2 * numerator / denominator ∨
      (2 * numerator : ℚ) / denominator = 2 * nearest + 1 → nearest % 2 = 0) :
    roundEven numerator denominator = nearest := by
  have width : (0 : ℚ) < denominator := by exact_mod_cast positive
  rw [le_div_iff₀ width] at low
  rw [div_le_iff₀ width] at high
  rw [eq_div_iff width.ne', div_eq_iff width.ne'] at tie
  apply roundEven_eq positive
  · have cast : (2 * nearest * denominator : ℚ) ≤ 2 * numerator + denominator := by linarith
    exact_mod_cast cast
  · exact_mod_cast high
  · intro ends
    apply tie
    rcases ends with ends | ends
    · have cast : (2 * nearest * denominator : ℚ) = 2 * numerator + denominator := by
        exact_mod_cast ends
      exact .inl (by linarith)
    · exact .inr (by exact_mod_cast ends)

/-- A fraction is rounded to a significand at an exponent when it is at most half a unit away, and
the significand is even when it is as much. -/
theorem roundEven_scaled {numerator denominator nearest : Nat} {exponent : Int}
    (positive : 0 < denominator)
    (low : (4 * nearest - 2 : ℚ) * 2 ^ (exponent - 2) ≤ numerator / denominator)
    (high : (numerator : ℚ) / denominator ≤ (4 * nearest + 2) * 2 ^ (exponent - 2))
    (tie : (4 * nearest - 2 : ℚ) * 2 ^ (exponent - 2) = numerator / denominator ∨
      (numerator : ℚ) / denominator = (4 * nearest + 2) * 2 ^ (exponent - 2) → nearest % 2 = 0) :
    roundEven (numerator * 2 ^ (-exponent).toNat) (denominator * 2 ^ exponent.toNat) = nearest := by
  have wide : 0 < denominator * 2 ^ exponent.toNat := by positivity
  have quotient := scaleDown_div numerator denominator exponent
  have quarters : (2 : ℚ) ^ exponent = 2 ^ 2 * 2 ^ (exponent - 2) := two_zpow_eq_mul 2 (by omega)
  have unit := two_zpow_pos (exponent - 2)
  rw [quarters] at quotient
  generalize (2 : ℚ) ^ (exponent - 2) = quarter at low high tie quotient unit
  generalize (numerator : ℚ) / denominator = number at low high tie quotient
  have half : 0 < quarter * 2 := by linarith
  -- Twice the quotient is the number in halves of a unit.
  have halves : (2 * (numerator * 2 ^ (-exponent).toNat : Nat) : ℚ) /
      (denominator * 2 ^ exponent.toNat : Nat) = number / (quarter * 2) := by
    rw [mul_div_assoc, quotient]
    field_simp
  apply roundEven_of_near wide
  · rw [halves, le_div_iff₀ half]
    linarith
  · rw [halves, div_le_iff₀ half]
    linarith
  · rw [halves, eq_div_iff half.ne', div_eq_iff half.ne']
    intro ends
    apply tie
    rcases ends with ends | ends
    · exact .inl (by linarith)
    · exact .inr (by linarith)

/-- What lies in the interval of a number is at most half a unit away from it. -/
theorem RoundsTo.bounds {significand : Nat} {exponent : Int} {number : ℚ}
    (rounds : RoundsTo significand exponent number) :
    (4 * significand - below significand exponent : ℚ) * 2 ^ (exponent - 2) ≤ number ∧
      number ≤ (4 * significand + 2) * 2 ^ (exponent - 2) := by
  unfold RoundsTo at rounds
  dsimp only at rounds
  split at rounds
  · exact rounds
  · exact ⟨rounds.1.le, rounds.2.le⟩

/-- What lies between the ends of the interval of a number belongs to it. -/
theorem roundsTo_of_between {significand : Nat} {exponent : Int} {number : ℚ}
    (first : (4 * significand - below significand exponent : ℚ) * 2 ^ (exponent - 2) < number)
    (last : number < (4 * significand + 2) * 2 ^ (exponent - 2)) :
    RoundsTo significand exponent number := by
  unfold RoundsTo
  dsimp only
  split
  · exact ⟨first.le, last.le⟩
  · exact ⟨first, last⟩

/-- The ends of the interval of a number belong to it only when its significand is even. -/
theorem RoundsTo.even {significand : Nat} {exponent : Int} {number : ℚ}
    (rounds : RoundsTo significand exponent number)
    (ends : number ≤ (4 * significand - below significand exponent : ℚ) * 2 ^ (exponent - 2) ∨
      (4 * significand + 2 : ℚ) * 2 ^ (exponent - 2) ≤ number) : significand % 2 = 0 := by
  by_contra odd
  unfold RoundsTo at rounds
  rw [if_neg odd] at rounds
  rcases ends with low | high
  · exact absurd rounds.1 (not_lt.mpr low)
  · exact absurd rounds.2 (not_lt.mpr high)

/-- The interval of a number reaches a quarter or half of a unit below it. -/
theorem below_cases (significand : Nat) (exponent : Int) :
    (significand = 2 ^ 52 ∧ leastExponent < exponent) ∧ below significand exponent = 1 ∨
      ¬(significand = 2 ^ 52 ∧ leastExponent < exponent) ∧ below significand exponent = 2 := by
  unfold below
  split
  · rename_i narrow
    exact .inl ⟨narrow, rfl⟩
  · rename_i wide
    exact .inr ⟨wide, rfl⟩

/-- It reaches no more than half a unit below it. -/
theorem below_le (significand : Nat) (exponent : Int) : (below significand exponent : ℚ) ≤ 2 := by
  rcases below_cases significand exponent with ⟨-, same⟩ | ⟨-, same⟩ <;> rw [same] <;> norm_num

/-- The interval of a positive number lies above half of the least one. -/
theorem RoundsTo.le {significand : Nat} {exponent : Int} {number : ℚ}
    (some_bit : 0 < significand) (rounds : RoundsTo significand exponent number) :
    2 ^ (exponent - 1) ≤ number := by
  have unit := two_zpow_pos (exponent - 2)
  have reach := below_le significand exponent
  have least : (1 : ℚ) ≤ significand := by exact_mod_cast some_bit
  calc (2 : ℚ) ^ (exponent - 1) = 2 ^ 1 * 2 ^ (exponent - 2) := two_zpow_eq_mul 1 (by omega)
    _ ≤ (4 * significand - below significand exponent) * 2 ^ (exponent - 2) := by
        gcongr
        linarith
    _ ≤ number := rounds.bounds.1

/-- The interval of a number lies below the next exponent. -/
theorem RoundsTo.lt {significand : Nat} {exponent : Int} {number : ℚ}
    (fits : Fits significand exponent) (rounds : RoundsTo significand exponent number) :
    number < 2 ^ (exponent + 53) := by
  have unit := two_zpow_pos (exponent - 2)
  have narrow : (significand : ℚ) + 1 ≤ 2 ^ 53 := by exact_mod_cast fits.narrow
  calc number ≤ (4 * significand + 2) * 2 ^ (exponent - 2) := rounds.bounds.2
    _ < 2 ^ 55 * 2 ^ (exponent - 2) := by
        gcongr
        linarith
    _ = 2 ^ (exponent + 53) := (two_zpow_eq_mul 55 (by omega)).symm

/-- A fraction that has the exponent of a number is rounded to it when it lies in its interval. -/
theorem roundEven_of_roundsTo {significand numerator denominator : Nat} {exponent : Int}
    (positive : 0 < denominator)
    (rounds : RoundsTo significand exponent (numerator / denominator)) :
    roundEven (numerator * 2 ^ (-exponent).toNat) (denominator * 2 ^ exponent.toNat) =
      significand := by
  obtain ⟨low, high⟩ := rounds.bounds
  have unit := two_zpow_pos (exponent - 2)
  have reach : (4 * significand - 2 : ℚ) * 2 ^ (exponent - 2) ≤
      (4 * significand - below significand exponent) * 2 ^ (exponent - 2) := by
    gcongr
    exact below_le significand exponent
  apply roundEven_scaled positive (reach.trans low) high
  intro ends
  apply rounds.even
  rcases ends with first | last
  · exact .inl (first.symm.le.trans reach)
  · exact .inr last.symm.le

/-- A fraction in the interval of a number lies at the exponent of the number or closely under a
power of two. -/
theorem RoundsTo.exponent_cases {significand : Nat} {exponent : Int} {number : ℚ}
    (fits : Fits significand exponent) (rounds : RoundsTo significand exponent number) :
    ((2 : ℚ) ^ (exponent + 52) ≤ number ∨ exponent = leastExponent) ∨
      significand = 2 ^ 52 ∧ leastExponent < exponent ∧ number < 2 ^ (exponent + 52) ∧
        (2 ^ 54 - 1) * 2 ^ (exponent - 2) ≤ number := by
  by_cases first : (2 : ℚ) ^ (exponent + 52) ≤ number ∨ exponent = leastExponent
  · exact .inl first
  obtain ⟨under, other⟩ := not_or.mp first
  have least := fits.least
  have filled := fits.filled.resolve_right other
  have unit := two_zpow_pos (exponent - 2)
  have low := rounds.bounds.1
  have reach := below_le significand exponent
  have edge : (2 : ℚ) ^ (exponent + 52) = 2 ^ 54 * 2 ^ (exponent - 2) :=
    two_zpow_eq_mul 54 (by omega)
  have quarters : (4 * significand - below significand exponent : ℚ) < 2 ^ 54 := by
    have bound := lt_of_le_of_lt low (not_le.mp under)
    rw [edge] at bound
    exact lt_of_mul_lt_mul_right bound unit.le
  have few : (4 * significand : ℚ) < 2 ^ 54 + 2 := by linarith
  have bits : 4 * significand < 2 ^ 54 + 2 := by exact_mod_cast few
  have power : significand = 2 ^ 52 := by omega
  have narrow : below significand exponent = 1 := if_pos ⟨power, by omega⟩
  rw [narrow, power] at low
  refine .inr ⟨power, by omega, not_le.mp under, ?_⟩
  calc (2 ^ 54 - 1 : ℚ) * 2 ^ (exponent - 2)
      = (4 * (2 ^ 52 : Nat) - (1 : Nat)) * 2 ^ (exponent - 2) := by norm_num
    _ ≤ number := low

/-- Closely under a power of two a fraction has the exponent before, and rounding it there gives one
bit too many. -/
theorem roundEven_under_power {numerator denominator : Nat} {exponent : Int}
    (some_part : 0 < numerator) (positive : 0 < denominator) (least : leastExponent < exponent)
    (under : (numerator / denominator : ℚ) < 2 ^ (exponent + 52))
    (low : ((2 ^ 54 - 1) * 2 ^ (exponent - 2) : ℚ) ≤ numerator / denominator) :
    exponentOf numerator denominator = exponent - 1 ∧
      roundEven (numerator * 2 ^ (-(exponent - 1)).toNat)
        (denominator * 2 ^ (exponent - 1).toNat) = 2 ^ 53 := by
  have inside : (2 : ℚ) ^ (exponent - 1 + 52) ≤ numerator / denominator := by
    refine le_trans ?_ low
    rw [@two_zpow_eq_mul _ (exponent - 2) 53 (by omega)]
    gcongr
    norm_num
  have half : (2 : ℚ) ^ (exponent - 2) = 2 ^ 1 * 2 ^ (exponent - 1 - 2) :=
    two_zpow_eq_mul 1 (by omega)
  have edge : (2 : ℚ) ^ (exponent + 52) = 2 ^ 55 * 2 ^ (exponent - 1 - 2) :=
    two_zpow_eq_mul 55 (by omega)
  have unit := two_zpow_pos (exponent - 1 - 2)
  constructor
  · have above : (numerator / denominator : ℚ) < 2 ^ (exponent - 1 + 53) := by
      rwa [show exponent - 1 + 53 = exponent + 52 by omega]
    exact exponentOf_eq some_part positive (by omega) above (.inl inside)
  · rw [half] at low
    rw [edge] at under
    apply roundEven_scaled positive
    · push_cast
      linarith
    · push_cast
      linarith
    · exact fun _ => by decide

/-- A fraction is rounded to the number in whose interval it lies. -/
theorem ofFraction_of_roundsTo (negative : Bool) {significand numerator denominator : Nat}
    {exponent : Int} (fits : Fits significand exponent) (some_bit : 0 < significand)
    (positive : 0 < denominator)
    (rounds : RoundsTo significand exponent (numerator / denominator)) :
    ofFraction negative numerator denominator = .finite negative significand exponent := by
  have some_part : numerator ≠ 0 := by
    rintro rfl
    have above := rounds.le some_bit
    rw [Nat.cast_zero, zero_div] at above
    exact absurd (two_zpow_pos _) (not_lt.mpr above)
  have greatest := fits.greatest
  have notLarge : ¬greatestExponent < exponent := by omega
  rw [ofFraction_eq negative some_part]
  rcases rounds.exponent_cases fits with first | ⟨rfl, least, under, low⟩
  · have own := exponentOf_eq (Nat.pos_of_ne_zero some_part) positive fits.least (rounds.lt fits)
      first
    rw [own]
    dsimp only
    rw [roundEven_of_roundsTo positive rounds, if_neg (Nat.ne_of_lt fits.narrow), if_neg notLarge]
  · obtain ⟨own, nearest⟩ := roundEven_under_power (Nat.pos_of_ne_zero some_part) positive least
      under low
    rw [own]
    dsimp only
    rw [nearest, if_pos rfl, Int.sub_add_cancel, if_neg notLarge]

/-! ## Rounding a decimal -/

/-- A number is below the power of ten with as many zeros as it has digits. -/
theorem lt_pow_length_toDigits (number : Nat) : number < 10 ^ (Nat.toDigits 10 number).length :=
  (Nat.length_toDigits_le_iff (by decide) Nat.length_toDigits_pos).mp (Nat.le_refl _)

/-- A positive number is at least the power of ten with one zero less than it has digits, and below
the next one. -/
theorem length_toDigits_bounds {number : Nat} (positive : 0 < number) :
    (10 : ℚ) ^ (((Nat.toDigits 10 number).length : Int) - 1) ≤ number ∧
      (number : ℚ) < 10 ^ ((Nat.toDigits 10 number).length : Int) := by
  have some_digit : 0 < (Nat.toDigits 10 number).length := Nat.length_toDigits_pos
  have above := lt_pow_length_toDigits number
  have shorter : ∀ count, 0 < count → number < 10 ^ count →
      (Nat.toDigits 10 number).length ≤ count :=
    fun _ more => (Nat.length_toDigits_le_iff (by decide) more).mpr
  generalize (Nat.toDigits 10 number).length = length at some_digit above shorter ⊢
  constructor
  · have power : 10 ^ (length - 1) ≤ number := by
      by_cases single : length = 1
      · subst single
        exact positive
      · by_contra small
        have fewer := shorter (length - 1) (by omega) (Nat.lt_of_not_le small)
        omega
    rw [← Nat.cast_one, ← Nat.cast_sub some_digit, zpow_natCast]
    exact_mod_cast power
  · rw [zpow_natCast]
    exact_mod_cast above

/-- A decimal is rounded to a proper number. -/
theorem isProper_ofDecimal (negative : Bool) (digits : Nat) (exponent : Int) :
    (ofDecimal negative digits exponent).IsProper := by
  unfold ofDecimal
  split
  · exact isProper_signedZero negative
  · dsimp only
    split
    · trivial
    · split
      · exact isProper_signedZero negative
      · split
        · exact isProper_ofFraction negative _ Nat.one_pos
        · exact isProper_ofFraction negative _ (Nat.pow_pos (by decide))

/-- The numbers below the greatest one have at most 309 digits in front of their point. -/
theorem point_le {point : Int} {number : ℚ} (first : (10 : ℚ) ^ (point - 1) ≤ number)
    (under : number < 2 ^ (1024 : Int)) : point ≤ 309 := by
  have few : (10 : ℚ) ^ (point - 1) < 10 ^ (309 : Int) := by
    calc (10 : ℚ) ^ (point - 1) ≤ number := first
      _ < 2 ^ (1024 : Int) := under
      _ ≤ 10 ^ (309 : Int) := by
        have large : 2 ^ 1024 ≤ 10 ^ 309 := by decide +kernel
        exact_mod_cast large
  have order := (zpow_lt_zpow_iff_right₀ (by norm_num : (1 : ℚ) < 10)).mp few
  omega

/-- The numbers above half of the least one have at most 323 zeros behind their point. -/
theorem le_point {point : Int} {number : ℚ} (above : (2 : ℚ) ^ (-1075 : Int) ≤ number)
    (last : number < 10 ^ point) : -323 ≤ point := by
  have many : (10 : ℚ) ^ (-324 : Int) < 10 ^ point := by
    calc (10 : ℚ) ^ (-324 : Int) ≤ 2 ^ (-1075 : Int) := by
          have large : 2 ^ 1075 ≤ 10 ^ 324 := by decide +kernel
          have cast : (2 : ℚ) ^ 1075 ≤ 10 ^ 324 := by exact_mod_cast large
          rw [zpow_neg, zpow_neg]
          exact inv_anti₀ (by positivity) cast
      _ ≤ number := above
      _ < 10 ^ point := last
  have order := (zpow_lt_zpow_iff_right₀ (by norm_num : (1 : ℚ) < 10)).mp many
  omega

/-- A decimal in the interval of a number has its point where it is not rounded to zero or to an
infinite number at once. -/
theorem RoundsTo.point_bounds {significand : Nat} {exponent : Int}
    (fits : Fits significand exponent) (some_bit : 0 < significand) {digits : Nat} {power : Int}
    (some_digit : 0 < digits) (rounds : RoundsTo significand exponent (digits * 10 ^ power)) :
    -323 ≤ (Nat.toDigits 10 digits).length + power ∧
      (Nat.toDigits 10 digits).length + power ≤ 309 := by
  have least := fits.least
  have greatest := fits.greatest
  obtain ⟨first, last⟩ := length_toDigits_bounds some_digit
  generalize ((Nat.toDigits 10 digits).length : Int) = length at first last ⊢
  have unit : (0 : ℚ) < 10 ^ power := by positivity
  constructor
  · have above : (2 : ℚ) ^ (-1075 : Int) ≤ digits * 10 ^ power :=
      (two_zpow_le_iff.mpr (Int.sub_le_sub_right least 1)).trans (rounds.le some_bit)
    have behind : (digits * 10 ^ power : ℚ) < 10 ^ (length + power) := by
      rw [zpow_add₀ (by norm_num)]
      gcongr
    exact le_point above behind
  · have under : (digits * 10 ^ power : ℚ) < 2 ^ (1024 : Int) :=
      (rounds.lt fits).trans_le (two_zpow_le_iff.mpr (Int.add_le_add_right greatest 53))
    have ahead : (10 : ℚ) ^ (length + power - 1) ≤ digits * 10 ^ power := by
      rw [show length + power - 1 = length - 1 + power by omega, zpow_add₀ (by norm_num)]
      gcongr
    exact point_le ahead under

/-- A decimal is rounded to the number in whose interval it lies. -/
theorem ofDecimal_of_roundsTo {significand : Nat} {exponent : Int}
    (fits : Fits significand exponent) (some_bit : 0 < significand) (negative : Bool)
    {digits : Nat} {power : Int} (rounds : RoundsTo significand exponent (digits * 10 ^ power)) :
    ofDecimal negative digits power = .finite negative significand exponent := by
  have some_digit : digits ≠ 0 := by
    rintro rfl
    have above := rounds.le some_bit
    rw [Nat.cast_zero, zero_mul] at above
    exact absurd (two_zpow_pos _) (not_lt.mpr above)
  have bounds := rounds.point_bounds fits some_bit (Nat.pos_of_ne_zero some_digit)
  rw [ofDecimal, if_neg some_digit]
  dsimp only
  rw [if_neg (by omega), if_neg (by omega)]
  have parts := zpow_mul_pow_toNat (by norm_num : (10 : ℚ) ≠ 0) power
  split
  · rename_i whole
    apply ofFraction_of_roundsTo negative fits some_bit Nat.one_pos
    rw [show (-power).toNat = 0 by omega, pow_zero, mul_one] at parts
    rw [parts] at rounds
    simpa using rounds
  · rename_i broken
    apply ofFraction_of_roundsTo negative fits some_bit (Nat.pow_pos (by decide))
    rw [show power.toNat = 0 by omega, pow_zero] at parts
    rw [eq_div_of_mul_eq (by positivity) parts, mul_one_div] at rounds
    simpa using rounds

end EvalDesk.Binary64
