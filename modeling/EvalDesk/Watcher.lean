import EvalDesk.Datum.Basic
import EvalDesk.Discovery
import EvalDesk.Number.Quantity

/-!
# Watching for saves

Programs save a file in several ways: they change it, make it anew, or move another file over it.
Each of these is a save, unless another one was told too short a time before. The time between two
saves is measured from the last one that was told.
-/
namespace EvalDesk

/-- How a file has changed. -/
inductive FileEvent.Change where
  /-- Its content is different. -/
  | modified
  /-- It is new. -/
  | created
  /-- It has another path now. -/
  | moved (target : Datum)
  /-- It is gone. -/
  | deleted

/-- A change in a directory. -/
structure FileEvent where
  /-- The path of the file before the change. -/
  path : Datum
  /-- What has changed. -/
  change : FileEvent.Change
  /-- It is a directory and no file. -/
  isDirectory : Bool

/-- The path at which a file has new content after a change, if any. -/
def FileEvent.written (event : FileEvent) : Option Datum :=
  if event.isDirectory then none
  else
    match event.change with
    | .modified | .created => some event.path
    | .moved target => some target
    | .deleted => none

/-- What is watched, and when it was last told. -/
structure SaveWatch where
  /-- The resolved path of the file. -/
  target : String
  /-- The time that must have passed since the last save that was told. -/
  quiet : Quantity
  /-- When a save was last told. -/
  last : Option Quantity
  deriving DecidableEq, Repr

namespace SaveWatch

/-- The time that passes in quiet, if nothing else is said. -/
def usualQuiet : Quantity := .real (.finite false (Nat.pow 2 52) (-53))

/-- A new watch of a file. -/
def start (disk : Disk) (target : String) (quiet : Quantity) : Except Fault SaveWatch :=
  (Discovery.resolve disk target).map fun path => ⟨path.text, quiet, none⟩

/-- The text of a path that may be given as bytes. -/
def pathText : Datum → Except Fault String
  | .text path => .ok path
  | .bytes path => (Text.Utf8.decode path).mapError .undecodable
  | other => .error (.misuse (.notPath other.kind))

/-- Whether a path is that of the watched file; no path is none. -/
def isTarget (watch : SaveWatch) (disk : Disk) (path : Datum) : Except Fault Bool := do
  if !path.isPresent then return false
  return (← Discovery.resolve disk (← pathText path)).text = watch.target

/-- Whether a save at a time is too early to be told. -/
def isEarly (watch : SaveWatch) (now : Quantity) : Except Fault Bool :=
  match watch.last with
  | none => .ok false
  | some last => (now.sub last).map (·.le watch.quiet)

/-- Take an event at a time; the result says whether a save is told. -/
def take (watch : SaveWatch) (disk : Disk) (event : FileEvent) (now : Quantity) :
    Except Fault (SaveWatch × Bool) := do
  let some path := event.written | return (watch, false)
  if !(← watch.isTarget disk path) then return (watch, false)
  if ← watch.isEarly now then return (watch, false)
  return ({ watch with last := some now }, true)

end SaveWatch
end EvalDesk
