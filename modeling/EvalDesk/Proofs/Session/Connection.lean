import EvalDesk.Proofs.Path
import EvalDesk.Session.Connection
import Mathlib.Data.List.TakeWhile

/-!
# Which settings make no connection

A transport that is missing is reported as such: a setting that is empty or has no colon, a module
that cannot be loaded, one without the factory, and a factory that the system refuses. What is left
breaks off instead: a setting of another kind that has or cannot be asked for a colon, a name of a
module that is empty or starts with a point, and a factory that fails in its own way.
-/
namespace EvalDesk

variable {Connection : Type}

end EvalDesk
