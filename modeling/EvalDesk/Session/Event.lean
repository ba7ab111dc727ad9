import EvalDesk.Datum.Basic

/-!
# Events of an answer

An answer of the server is a table that may say several things at once. Each of them is an event,
in the order in which they happen: the value, the output, the error output, and last the end of
the request when the statuses say that it is done.
-/
namespace EvalDesk

/-- Something an answer says. -/
inductive Event where
  /-- The code has a value, and the namespace is the given one from now on, if it is present. -/
  | value (value ns id : Datum)
  /-- The code wrote output. -/
  | output (text id : Datum)
  /-- The code wrote error output. -/
  | errorOutput (text id : Datum)
  /-- The request has ended with these statuses. -/
  | completed (statuses : List String) (id : Datum)
  deriving Inhabited

namespace Event

/-- The status of a request that has ended. -/
def doneStatus : String := "done"

/-- The statuses of a request that has failed. -/
def failureStatuses : List String :=
  ["eval-error", "namespace-not-found", "unknown-op", "error"]

/-- One of the statuses is that of a failure. -/
def failed (statuses : List String) : Bool := statuses.any (failureStatuses.contains ·)

/-- One status of several: bytes are read as text, all else is shown. -/
def statusText : Datum → Except Fault String
  | .bytes encoded => (Text.Utf8.decode encoded).mapError .undecodable
  | other => other.shown

/-- The statuses of an answer. A single text stands for itself, a table for its keys. -/
def statuses (answer : Table) : Except Fault (List String) :=
  let status := answer.get "status"
  if !status.isPresent then .ok []
  else
    match status with
    | .text single => .ok [single]
    | .bytes encoded => (statusText (.bytes encoded)).map ([·])
    | .list items => items.mapM statusText
    | .table entries => (Table.keys entries).mapM fun key => statusText key.datum
    | other => .error (.misuse (.notIterable other.kind))

/-- The events of an answer whose statuses are known. -/
def ofAnswer (answer : Table) (statuses : List String) : List Event :=
  let id := answer.get "id"
  let found := (answer.get? "value").map fun result => Event.value result (answer.get "ns") id
  let written := (answer.get? "out").map fun text => Event.output text id
  let complaint := (answer.get? "err").map fun text => Event.errorOutput text id
  let ending := if statuses.contains doneStatus then some (Event.completed statuses id) else none
  [found, written, complaint, ending].filterMap fun event => event

end Event
end EvalDesk
