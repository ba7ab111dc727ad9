import EvalDesk.Number.Binary64

/-!
# The shortest decimal of a floating-point number

A finite number is written with the fewest digits that are read back as it, and of those with the
digits nearest to it. Numbers from 0.0001 up to below ten to the sixteenth are written without an
exponent and always with a point; an exponent has a sign and at least two digits.
-/
namespace EvalDesk.Binary64

/-- A decimal number `0.d₁d₂… * 10 ^ point`. -/
structure Decimal where
  /-- The digits, without zeros at the end. -/
  digits : List Char
  /-- How many digits stand before the point. -/
  point : Int
  deriving DecidableEq, Repr

/-- The digits of a number without the zeros at its end. -/
def significantDigits (number : Nat) : List Char :=
  ((Nat.toDigits 10 number).reverse.dropWhile (· = '0')).reverse

/-- The place of the point of a positive fraction: a power of ten with this exponent lies above
it, and the one below does not. -/
def pointOf (numerator denominator : Nat) : Int :=
  if denominator ≤ numerator then (Nat.toDigits 10 (numerator / denominator)).length
  else 1 - (Nat.toDigits 10 (denominator / numerator)).length

/-- The neighbour on the grid of multiples of `10 ^ grid` that is nearest to the number among
those that are read back as it. The number is `4 * significand` quarters of a unit, and the
numbers read back as it lie between `below` quarters under it and two quarters above it. -/
def onGrid? (significand : Nat) (exponent grid : Int) : Option Nat :=
  let quarter := exponent - 2
  let quarters (count : Nat) := count * Nat.pow 2 quarter.toNat * Nat.pow 10 (-grid).toNat
  let point (count : Nat) := count * Nat.pow 10 grid.toNat * Nat.pow 2 (-quarter).toNat
  let below := if significand = Nat.pow 2 52 ∧ leastExponent < exponent then 1 else 2
  let ends := significand % 2 = 0
  let low := quarters (4 * significand - below)
  let high := quarters (4 * significand + 2)
  let value := quarters (4 * significand)
  let inside (count : Nat) :=
    if ends then low ≤ point count ∧ point count ≤ high
    else low < point count ∧ point count < high
  let lower := value / point 1
  let lowerError := value - point lower
  let upperError := point (lower + 1) - value
  if inside lower ∧ (¬inside (lower + 1) ∨ lowerError < upperError ∨
      lowerError = upperError ∧ lower % 2 = 0) then some lower
  else if inside (lower + 1) then some (lower + 1)
  else none

/-- The shortest decimal among those of at least the given number of digits, at most 17. -/
def shortestFrom (significand : Nat) (exponent point : Int) (digits : Nat) : Nat → Decimal
  | 0 => ⟨[], point⟩
  | more + 1 =>
    match onGrid? significand exponent (point - digits) with
    | some count =>
      let extra : Int := (Nat.toDigits 10 count).length - digits
      ⟨significantDigits count, point + extra⟩
    | none => shortestFrom significand exponent point (digits + 1) more

/-- The shortest decimal of a positive number. -/
def shortest (significand : Nat) (exponent : Int) : Decimal :=
  let point :=
    if 0 ≤ exponent then pointOf (significand * Nat.pow 2 exponent.toNat) 1
    else pointOf significand (Nat.pow 2 (-exponent).toNat)
  shortestFrom significand exponent point 1 17

/-- A decimal with an exponent. -/
def Decimal.scientific (decimal : Decimal) : String :=
  let power := decimal.point - 1
  let digits := toString power.natAbs
  let mantissa := match decimal.digits with
    | [] => "0"
    | [first] => first.toString
    | first :: rest => first.toString ++ "." ++ String.ofList rest
  mantissa ++ "e" ++ (if power < 0 then "-" else "+") ++
    (if digits.length < 2 then "0" else "") ++ digits

/-- A decimal without an exponent. -/
def Decimal.positional (decimal : Decimal) : String :=
  let digits := decimal.digits
  let whole := decimal.point.toNat
  if decimal.point ≤ 0 then
    "0." ++ String.ofList (List.replicate (-decimal.point).toNat '0' ++ digits)
  else if digits.length ≤ whole then
    String.ofList (digits ++ List.replicate (whole - digits.length) '0') ++ ".0"
  else String.ofList (digits.take whole) ++ "." ++ String.ofList (digits.drop whole)

/-- The text of a number. -/
def text : Binary64 → String
  | .finite negative significand exponent =>
    let sign := if negative then "-" else ""
    if significand = 0 then sign ++ "0.0"
    else
      let decimal := shortest significand exponent
      sign ++ if -4 < decimal.point ∧ decimal.point ≤ 16 then decimal.positional
        else decimal.scientific
  | .infinite negative => if negative then "-inf" else "inf"
  | .undefined => "nan"

end EvalDesk.Binary64
