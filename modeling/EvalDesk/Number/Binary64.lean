/-!
# Binary floating point in exact arithmetic

A number of 64 bits is a signed multiple of a power of two, an infinity, or no number. All
operations compute the exact result in integers and round it once, to the nearest number and in a
tie to the even significand, so they can be reasoned about without a machine.
-/
namespace EvalDesk

/-- A floating-point number of 64 bits. -/
inductive Binary64 where
  /-- The number `significand * 2 ^ exponent`, negated when `negative`; zero has both signs. -/
  | finite (negative : Bool) (significand : Nat) (exponent : Int)
  /-- An infinity. -/
  | infinite (negative : Bool)
  /-- The result that is no number. -/
  | undefined
  deriving DecidableEq, Repr, Inhabited

namespace Binary64

/-- The exponent of the smallest numbers. -/
def leastExponent : Int := -1074

/-- The exponent of the largest numbers. -/
def greatestExponent : Int := 971

/-- A zero. -/
def signedZero (negative : Bool) : Binary64 := .finite negative 0 leastExponent

/-- A quotient rounded to the nearest integer, a tie to the even one. -/
def roundEven (numerator denominator : Nat) : Nat :=
  let quotient := numerator / denominator
  let twice := 2 * (numerator % denominator)
  if twice < denominator then quotient
  else if denominator < twice then quotient + 1
  else quotient + quotient % 2

/-- A fraction divided by a power of two, as a fraction. -/
def scaleDown (numerator denominator : Nat) (exponent : Int) : Nat × Nat :=
  if 0 ≤ exponent then (numerator, denominator * Nat.pow 2 exponent.toNat)
  else (numerator * Nat.pow 2 (-exponent).toNat, denominator)

/-- The exponent at which a positive fraction has a significand of 53 bits, or the least one. -/
def exponentOf (numerator denominator : Nat) : Int :=
  let guess : Int := (Nat.log2 numerator : Int) - Nat.log2 denominator - 52
  let (scaled, divisor) := scaleDown numerator denominator guess
  max leastExponent (if scaled / divisor < Nat.pow 2 52 then guess - 1 else guess)

/-- The number nearest to a fraction with a positive denominator. -/
def ofFraction (negative : Bool) (numerator denominator : Nat) : Binary64 :=
  if numerator = 0 then signedZero negative
  else
    let exponent := exponentOf numerator denominator
    let (scaled, divisor) := scaleDown numerator denominator exponent
    let rounded := roundEven scaled divisor
    let (significand, exponent) :=
      if rounded = Nat.pow 2 53 then (Nat.pow 2 52, exponent + 1) else (rounded, exponent)
    if greatestExponent < exponent then .infinite negative
    else .finite negative significand exponent

/-- The number nearest to a multiple of a power of two. -/
def ofScaled (negative : Bool) (multiple : Nat) (exponent : Int) : Binary64 :=
  if 0 ≤ exponent then ofFraction negative (multiple * Nat.pow 2 exponent.toNat) 1
  else ofFraction negative multiple (Nat.pow 2 (-exponent).toNat)

/-- The number nearest to a multiple of a power of ten. Beyond the powers that any number can be
near to, the result is an infinity or a zero at once. -/
def ofDecimal (negative : Bool) (digits : Nat) (exponent : Int) : Binary64 :=
  if digits = 0 then signedZero negative
  else
    let magnitude : Int := (Nat.toDigits 10 digits).length + exponent
    if 310 < magnitude then .infinite negative
    else if magnitude < -330 then signedZero negative
    else if 0 ≤ exponent then ofFraction negative (digits * Nat.pow 10 exponent.toNat) 1
    else ofFraction negative digits (Nat.pow 10 (-exponent).toNat)

/-- The number nearest to an integer. -/
def ofInt (value : Int) : Binary64 := ofFraction (decide (value < 0)) value.natAbs 1

/-- A finite number as a signed integer multiple of the power of two with the given exponent,
which is not above its own. -/
def aligned (negative : Bool) (significand : Nat) (own exponent : Int) : Int :=
  let magnitude : Int := (significand * Nat.pow 2 (own - exponent).toNat : Nat)
  if negative then -magnitude else magnitude

/-- The opposite number. -/
def neg : Binary64 → Binary64
  | .finite negative significand exponent => .finite (!negative) significand exponent
  | .infinite negative => .infinite (!negative)
  | .undefined => .undefined

/-- The rounded sum. -/
def add : Binary64 → Binary64 → Binary64
  | .finite leftNegative left leftExponent, .finite rightNegative right rightExponent =>
    let exponent := min leftExponent rightExponent
    let sum := aligned leftNegative left leftExponent exponent +
      aligned rightNegative right rightExponent exponent
    if sum = 0 then signedZero (leftNegative && rightNegative)
    else ofScaled (decide (sum < 0)) sum.natAbs exponent
  | .infinite left, .infinite right => if left = right then .infinite left else .undefined
  | .infinite left, .finite .. => .infinite left
  | .finite .., .infinite right => .infinite right
  | _, _ => .undefined

/-- The rounded difference. -/
def sub (left right : Binary64) : Binary64 := add left right.neg

/-- Whether one number is at most another; never so when either is no number. -/
def le : Binary64 → Binary64 → Bool
  | .finite leftNegative left leftExponent, .finite rightNegative right rightExponent =>
    let exponent := min leftExponent rightExponent
    aligned leftNegative left leftExponent exponent ≤
      aligned rightNegative right rightExponent exponent
  | .infinite left, .infinite right => left || !right
  | .infinite left, .finite .. => left
  | .finite .., .infinite right => !right
  | _, _ => false

/-- Whether an integer is at most a number, compared exactly; never so when it is no number. -/
def leOfInt (value : Int) : Binary64 → Bool
  | .finite negative significand exponent =>
    let common := min 0 exponent
    value * (Nat.pow 2 (-common).toNat : Nat) ≤ aligned negative significand exponent common
  | .infinite negative => !negative
  | .undefined => false

/-- Whether a number is at most an integer, compared exactly; never so when it is no number. -/
def leInt (number : Binary64) (value : Int) : Bool :=
  match number with
  | .undefined => false
  | other => leOfInt (-value) other.neg

/-- Whether one number is below another. -/
def lt (left right : Binary64) : Bool := le left right && !le right left

/-- Whether the number is a zero. -/
def isZero : Binary64 → Bool
  | .finite _ significand _ => significand = 0
  | _ => false

/-- The integer part of a finite number. -/
def truncate? : Binary64 → Option Int
  | .finite negative significand exponent =>
    let magnitude : Nat :=
      if 0 ≤ exponent then significand * Nat.pow 2 exponent.toNat
      else significand / Nat.pow 2 (-exponent).toNat
    some (if negative then -(magnitude : Int) else magnitude)
  | _ => none

end Binary64
end EvalDesk
