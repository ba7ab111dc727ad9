import EvalDesk.Fault
import EvalDesk.Number.Binary64

/-!
# Quantities

A quantity is an integer or a floating-point number. Integers are added, subtracted and compared
exactly. Together with a floating-point number an integer is compared exactly too, but in a sum it
counts as the nearest floating-point number, and one that is beyond all of them is a fault.
-/
namespace EvalDesk

/-- A number of either kind. -/
inductive Quantity where
  /-- An integer. -/
  | whole (value : Int)
  /-- A floating-point number. -/
  | real (value : Binary64)
  deriving DecidableEq, Repr

namespace Quantity

/-- The floating-point number a quantity counts as. -/
def rounded : Quantity → Except Fault Binary64
  | .real value => .ok value
  | .whole value =>
    match Binary64.ofInt value with
    | .finite negative significand exponent => .ok (.finite negative significand exponent)
    | _ => .error .beyondReals

/-- The sum. -/
def add : Quantity → Quantity → Except Fault Quantity
  | .whole left, .whole right => .ok (.whole (left + right))
  | left, right => do return .real ((← left.rounded).add (← right.rounded))

/-- The difference. -/
def sub : Quantity → Quantity → Except Fault Quantity
  | .whole left, .whole right => .ok (.whole (left - right))
  | left, right => do return .real ((← left.rounded).sub (← right.rounded))

/-- Whether one quantity is at most another; never so when either is no number. -/
def le : Quantity → Quantity → Bool
  | .whole left, .whole right => left ≤ right
  | .whole left, .real right => Binary64.leOfInt left right
  | .real left, .whole right => left.leInt right
  | .real left, .real right => left.le right

/-- The difference of integers is exact, however large they are. -/
theorem sub_whole (left right : Int) :
    (whole left).sub (whole right) = .ok (whole (left - right)) := rfl

/-- Integers are compared exactly. -/
theorem le_whole (left right : Int) : (whole left).le (whole right) = decide (left ≤ right) := rfl

end Quantity
end EvalDesk
