import EvalDesk.Number.Decimal
import EvalDesk.Proofs.Datum.Numbers
import EvalDesk.Proofs.Number.Rounding

/-!
# The shortest decimal is read back

The decimals of a number of digits lie on a grid. A search on finer and finer grids ends at one with
a point in the interval of the floating-point number: with 17 digits the grid is finer than the
interval is wide. So the decimal that is found, and every text of it, is rounded to the number.
-/
namespace EvalDesk.Binary64

/-! ## Points of a grid in the interval of a number -/

/-- Quarters of a unit, scaled to a common integer measure with a grid. -/
def quarters (exponent grid : Int) (count : Nat) : Nat :=
  count * Nat.pow 2 (exponent - 2).toNat * Nat.pow 10 (-grid).toNat

/-- A point of a grid in this measure. -/
def gridPoint (exponent grid : Int) (count : Nat) : Nat :=
  count * Nat.pow 10 grid.toNat * Nat.pow 2 (-(exponent - 2)).toNat

/-- How much the measure enlarges. -/
def enlargement (exponent grid : Int) : ℚ := 10 ^ (-grid).toNat * 2 ^ (-(exponent - 2)).toNat

/-- The measure enlarges. -/
theorem enlargement_pos (exponent grid : Int) : 0 < enlargement exponent grid := by
  unfold enlargement
  positivity

/-- Quarters in this measure. -/
theorem quarters_value (exponent grid : Int) (count : Nat) :
    (quarters exponent grid count : ℚ) =
      count * 2 ^ (exponent - 2) * enlargement exponent grid := by
  have power := zpow_mul_pow_toNat (by norm_num : (2 : ℚ) ≠ 0) (exponent - 2)
  simp only [quarters, enlargement, Nat.pow_eq]
  push_cast
  rw [← power]
  ring

/-- Points of a grid in this measure. -/
theorem gridPoint_value (exponent grid : Int) (count : Nat) :
    (gridPoint exponent grid count : ℚ) = count * 10 ^ grid * enlargement exponent grid := by
  have power := zpow_mul_pow_toNat (by norm_num : (10 : ℚ) ≠ 0) grid
  simp only [gridPoint, enlargement, Nat.pow_eq]
  push_cast
  rw [← power]
  ring

/-- A point of a grid lies in the interval of a number, by the measure. -/
def IsInside (significand : Nat) (exponent grid : Int) (count : Nat) : Prop :=
  let low := quarters exponent grid (4 * significand - below significand exponent)
  let high := quarters exponent grid (4 * significand + 2)
  if significand % 2 = 0 then
    low ≤ gridPoint exponent grid count ∧ gridPoint exponent grid count ≤ high
  else low < gridPoint exponent grid count ∧ gridPoint exponent grid count < high

/-- The measure tells whether a point lies in the interval. -/
theorem isInside_iff {significand : Nat} (some_bit : 0 < significand) (exponent grid : Int)
    (count : Nat) :
    IsInside significand exponent grid count ↔
      RoundsTo significand exponent (count * 10 ^ grid) := by
  have enlarged := enlargement_pos exponent grid
  have reach : below significand exponent ≤ 4 * significand := by
    rcases below_cases significand exponent with ⟨-, same⟩ | ⟨-, same⟩ <;> omega
  have le (first second : Nat) (left right : ℚ)
      (own : (first : ℚ) = left * enlargement exponent grid)
      (other : (second : ℚ) = right * enlargement exponent grid) :
      (first ≤ second ↔ left ≤ right) ∧ (first < second ↔ left < right) := by
    rw [← mul_le_mul_iff_of_pos_right enlarged, ← mul_lt_mul_iff_of_pos_right enlarged, ← own,
      ← other]
    exact ⟨Nat.cast_le.symm, Nat.cast_lt.symm⟩
  have low := quarters_value exponent grid (4 * significand - below significand exponent)
  have high := quarters_value exponent grid (4 * significand + 2)
  have point := gridPoint_value exponent grid count
  rw [Nat.cast_sub reach] at low
  push_cast at low high
  simp only [IsInside, RoundsTo, le _ _ _ _ low point, le _ _ _ _ point high]

/-- What a choice between two neighbours gives. -/
theorem choice_cases (near far : Prop) {closer : Prop} {_ : Decidable (near ∧ closer)}
    {_ : Decidable far} {lower : Nat} {found : Option Nat}
    (chosen : (if near ∧ closer then some lower else if far then some (lower + 1) else none) =
      found) :
    found = some lower ∧ near ∨ found = some (lower + 1) ∧ far ∨
      found = none ∧ ¬(near ∧ closer) ∧ ¬far := by
  subst chosen
  split
  · rename_i both
    exact .inl ⟨rfl, both.1⟩
  · split
    · rename_i upper
      exact .inr (.inl ⟨rfl, upper⟩)
    · rename_i first second
      exact .inr (.inr ⟨rfl, first, second⟩)

/-- A search on a grid finds a neighbour of the number that lies in its interval; when it finds
none, neither neighbour does. -/
theorem onGrid?_cases (significand : Nat) (exponent grid : Int) :
    let lower := quarters exponent grid (4 * significand) / gridPoint exponent grid 1
    (∃ count, onGrid? significand exponent grid = some count ∧
      IsInside significand exponent grid count) ∨
    onGrid? significand exponent grid = none ∧ ¬IsInside significand exponent grid lower ∧
      ¬IsInside significand exponent grid (lower + 1) := by
  intro lower
  have chosen : onGrid? significand exponent grid = onGrid? significand exponent grid := rfl
  rcases choice_cases (IsInside significand exponent grid lower)
    (IsInside significand exponent grid (lower + 1)) chosen with
    ⟨found, near⟩ | ⟨found, far⟩ | ⟨found, near, far⟩
  · exact .inl ⟨_, found, near⟩
  · exact .inl ⟨_, found, far⟩
  · exact .inr ⟨found, fun inside => near ⟨inside, .inl far⟩, far⟩

/-- A point that is found on a grid lies in the interval of the number. -/
theorem roundsTo_of_onGrid? {significand count : Nat} {exponent grid : Int}
    (some_bit : 0 < significand) (found : onGrid? significand exponent grid = some count) :
    RoundsTo significand exponent (count * 10 ^ grid) := by
  rcases onGrid?_cases significand exponent grid with ⟨own, same, inside⟩ | ⟨nothing, -⟩
  · cases found.symm.trans same
    exact (isInside_iff some_bit exponent grid count).mp inside
  · rw [nothing] at found
    contradiction

/-- The neighbours of a number on a grid lie around it. -/
theorem neighbour_bounds (significand : Nat) (exponent grid : Int) :
    let lower := quarters exponent grid (4 * significand) / gridPoint exponent grid 1
    (lower * 10 ^ grid : ℚ) ≤ 4 * significand * 2 ^ (exponent - 2) ∧
      (4 * significand * 2 ^ (exponent - 2) : ℚ) < (lower + 1) * 10 ^ grid := by
  intro lower
  have enlarged := enlargement_pos exponent grid
  have value := quarters_value exponent grid (4 * significand)
  have point := gridPoint_value exponent grid 1
  have step : 0 < gridPoint exponent grid 1 :=
    Nat.mul_pos (Nat.mul_pos Nat.one_pos (Nat.pow_pos (by decide))) (Nat.pow_pos (by decide))
  have under : lower * gridPoint exponent grid 1 ≤ quarters exponent grid (4 * significand) :=
    Nat.div_mul_le_self _ _
  have above : quarters exponent grid (4 * significand) < (lower + 1) * gridPoint exponent grid 1 :=
    Nat.lt_mul_of_div_lt (Nat.lt_succ_self _) step
  have low : (lower * gridPoint exponent grid 1 : ℚ) ≤
      quarters exponent grid (4 * significand) := by exact_mod_cast under
  have high : (quarters exponent grid (4 * significand) : ℚ) <
      (lower + 1) * gridPoint exponent grid 1 := by exact_mod_cast above
  rw [value, point] at low high
  push_cast at low high
  constructor
  · rw [← mul_le_mul_iff_of_pos_right enlarged]
    linarith
  · rw [← mul_lt_mul_iff_of_pos_right enlarged]
    linarith

/-- Where no point of a grid is found, both neighbours of the number lie outside its interval, so
the grid is at least as coarse as the interval is wide. -/
theorem coarse_of_onGrid? {significand : Nat} {exponent grid : Int} (some_bit : 0 < significand)
    (nothing : onGrid? significand exponent grid = none) :
    (2 + below significand exponent : ℚ) * 2 ^ (exponent - 2) ≤ 10 ^ grid := by
  rcases onGrid?_cases significand exponent grid with ⟨count, found, -⟩ | ⟨-, lower, upper⟩
  · rw [nothing] at found
    contradiction
  rw [isInside_iff some_bit] at lower upper
  obtain ⟨under, above⟩ := neighbour_bounds significand exponent grid
  generalize quarters exponent grid (4 * significand) / gridPoint exponent grid 1 = count
    at lower upper under above
  have unit := two_zpow_pos (exponent - 2)
  have reach : (0 : ℚ) < below significand exponent := by
    rcases below_cases significand exponent with ⟨-, same⟩ | ⟨-, same⟩ <;> rw [same] <;> norm_num
  push_cast at upper
  have first : (count * 10 ^ grid : ℚ) ≤
      (4 * significand - below significand exponent) * 2 ^ (exponent - 2) := by
    by_contra inside
    exact lower (roundsTo_of_between (not_le.mp inside) (by linarith))
  have second : (4 * significand + 2 : ℚ) * 2 ^ (exponent - 2) ≤ (count + 1) * 10 ^ grid := by
    by_contra inside
    have behind : (4 * significand - below significand exponent : ℚ) * 2 ^ (exponent - 2) <
        (count + 1) * 10 ^ grid := by
      refine lt_trans ?_ above
      gcongr
      linarith
    exact upper (roundsTo_of_between behind (not_le.mp inside))
  linarith

/-- On a grid with at least 17 digits a point is found. -/
theorem onGrid?_ne_none {significand : Nat} {exponent grid : Int} (narrow : significand < 2 ^ 53)
    (some_bit : 0 < significand) (fine : (10 : ℚ) ^ (grid + 16) ≤ significand * 2 ^ exponent) :
    onGrid? significand exponent grid ≠ none := by
  intro nothing
  have coarse := coarse_of_onGrid? some_bit nothing
  have unit := two_zpow_pos (exponent - 2)
  have sixteen : (10 : ℚ) ^ (grid + 16) = 10 ^ 16 * 10 ^ grid := by
    rw [zpow_add₀ (by norm_num), mul_comm]
    norm_num
  have quarter : (2 : ℚ) ^ exponent = 2 ^ 2 * 2 ^ (exponent - 2) := two_zpow_eq_mul 2 (by omega)
  rw [sixteen, quarter] at fine
  have wide : (10 ^ 16 * (2 + below significand exponent) : ℚ) ≤ 4 * significand := by
    refine le_of_mul_le_mul_right ?_ unit
    linarith
  have many : 10 ^ 16 * (2 + below significand exponent) ≤ 4 * significand := by exact_mod_cast wide
  rcases below_cases significand exponent with ⟨⟨rfl, -⟩, same⟩ | ⟨-, same⟩
  · rw [same] at many
    exact absurd many (by decide)
  · omega

/-! ## The decimal that is found -/

/-- A power of ten that a positive fraction is not below. -/
theorem pointOf_le {numerator denominator : Nat} (some_part : 0 < numerator)
    (positive : 0 < denominator) :
    (10 : ℚ) ^ (pointOf numerator denominator - 1) ≤ numerator / denominator := by
  have width : (0 : ℚ) < denominator := by exact_mod_cast positive
  have height : (0 : ℚ) < numerator := by exact_mod_cast some_part
  unfold pointOf
  split
  · rename_i large
    obtain ⟨first, -⟩ := length_toDigits_bounds (Nat.div_pos large positive)
    refine first.trans ?_
    rw [le_div_iff₀ width]
    exact_mod_cast Nat.div_mul_le_self numerator denominator
  · rename_i small
    have last := lt_pow_length_toDigits (denominator / numerator)
    generalize (Nat.toDigits 10 (denominator / numerator)).length = length at last ⊢
    have part : denominator < 10 ^ length * numerator := Nat.lt_mul_of_div_lt last some_part
    have cast : (denominator : ℚ) ≤ 10 ^ length * numerator := by exact_mod_cast part.le
    rw [show (1 - length - 1 : Int) = -length by omega, zpow_neg, zpow_natCast, le_div_iff₀ width,
      inv_mul_le_iff₀ (by positivity)]
    exact cast

/-- A search that still may try 17 digits finds a decimal in the interval of the number. -/
theorem shortestFrom_spec {significand : Nat} {exponent point : Int}
    (narrow : significand < 2 ^ 53) (some_bit : 0 < significand)
    (large : (10 : ℚ) ^ (point - 1) ≤ significand * 2 ^ exponent) {digits more : Nat}
    (enough : digits + more = 18) (some_try : 0 < more) :
    ∃ (count : Nat) (grid : Int), RoundsTo significand exponent (count * 10 ^ grid) ∧
      shortestFrom significand exponent point digits more =
        ⟨significantDigits count, grid + (Nat.toDigits 10 count).length⟩ := by
  induction more generalizing digits with
  | zero => contradiction
  | succ more ih =>
    rw [shortestFrom]
    cases found : onGrid? significand exponent (point - digits) with
    | some count =>
      refine ⟨count, point - digits, roundsTo_of_onGrid? some_bit found, ?_⟩
      dsimp only
      congr 1
      omega
    | none =>
      have few : 0 < more := by
        by_contra last
        have full : digits = 17 := by omega
        subst full
        refine onGrid?_ne_none narrow some_bit ?_ found
        rwa [show point - (17 : Nat) + 16 = point - 1 by omega]
      exact ih (by omega) few

/-- The shortest decimal of a number lies in its interval. -/
theorem shortest_spec {significand : Nat} {exponent : Int} (narrow : significand < 2 ^ 53)
    (some_bit : 0 < significand) :
    ∃ (count : Nat) (grid : Int), RoundsTo significand exponent (count * 10 ^ grid) ∧
      shortest significand exponent =
        ⟨significantDigits count, grid + (Nat.toDigits 10 count).length⟩ := by
  apply shortestFrom_spec narrow some_bit _ (by decide) (by decide)
  have power := zpow_mul_pow_toNat (by norm_num : (2 : ℚ) ≠ 0) exponent
  split
  · rename_i whole
    have power_pos : 0 < 2 ^ exponent.toNat := Nat.pow_pos (by decide)
    have bound := pointOf_le (Nat.mul_pos some_bit power_pos) Nat.one_pos
    refine bound.trans (le_of_eq ?_)
    rw [show (-exponent).toNat = 0 by omega, pow_zero, mul_one] at power
    rw [power]
    push_cast
    rw [div_one]
  · rename_i broken
    have bound := pointOf_le some_bit (Nat.pow_pos (by decide) : 0 < 2 ^ (-exponent).toNat)
    refine bound.trans (le_of_eq ?_)
    rw [show exponent.toNat = 0 by omega, pow_zero] at power
    rw [eq_div_of_mul_eq (by positivity) power, mul_one_div]
    push_cast
    rfl

end EvalDesk.Binary64
