import EvalDesk.Session.Basic

/-!
# A session with a recorder

A listener that writes down what a session tells it: the events of the requests it listens to, and
the identities. A listener may fail at every event, which ends the answer it is taking.
-/
namespace EvalDesk

/-- What listens to a request. -/
inductive Listener where
  /-- Nothing. -/
  | nobody
  /-- The recorder, which then fails if a fault is given. -/
  | recorder (fault : Option Fault)

/-- A session and what was written down about it. -/
structure Recorder where
  /-- The session. -/
  session : Session Listener
  /-- The events in order. -/
  events : List Event
  /-- The identities in order, each with the place of the talk that brought it. -/
  identities : List (Nat × Datum)
  /-- The messages in order. -/
  sent : List Message

namespace Recorder

/-- A recorder of a new session. -/
def start (ns identity : Datum) : Recorder := ⟨.start ns identity, [], [], []⟩

/-- Write down one notice of a talk. -/
def note (index : Nat) (recorder : Recorder) : Notice Listener → Recorder × Option Fault
  | .ready identity =>
    ({ recorder with identities := recorder.identities ++ [(index, identity)] }, none)
  | .event .nobody _ => (recorder, none)
  | .event (.recorder fault) event =>
    ({ recorder with events := recorder.events ++ [event] }, fault)

/-- Write down notices until the listener fails. -/
def noteAll (index : Nat) : Recorder → List (Notice Listener) → Recorder × Option Fault
  | recorder, [] => (recorder, none)
  | recorder, notice :: rest =>
    match recorder.note index notice with
    | (recorder, some fault) => (recorder, some fault)
    | (recorder, none) => noteAll index recorder rest

/-- Take an answer to a talk. -/
def hear (index : Nat) (recorder : Recorder) (answer : Table) : Recorder × Option Fault :=
  match recorder.session.receive index answer with
  | .error fault => (recorder, some fault)
  | .ok (session, notices) => noteAll index { recorder with session } notices

/-- Send a message over a transport; the result is the identity of the request. -/
def send (recorder : Recorder) (transport : Transport) (message : Message)
    (topic : Topic Listener) : Recorder × Except Fault String :=
  let id := recorder.session.nextId
  let index := recorder.session.talks.length
  let recorded := { recorder with
    session := recorder.session.record message topic
    sent := recorder.sent ++ [message] }
  match hearExchange (hear index) recorded (transport message) with
  | (recorder, some fault) => (recorder, .error fault)
  | (recorder, none) => (recorder, .ok id)

/-- Ask for a new identity. -/
def clone (recorder : Recorder) (transport : Transport) (told : Bool) :
    Recorder × Except Fault String :=
  recorder.send transport recorder.session.identityMessage (.identity told)

/-- Send a request. -/
def request (recorder : Recorder) (transport : Transport) (op : String) (fields : Table)
    (listener : Listener) : Recorder × Except Fault String :=
  recorder.send transport (recorder.session.message op fields) (.work listener)

/-- Take answers to a request that was sent before; none when no such request was. -/
def deliver (recorder : Recorder) (id : Datum) (answers : List Table) :
    Recorder × Option (Option Fault) :=
  match recorder.session.talkOf? id with
  | none => (recorder, none)
  | some index =>
    match hearAll (hear index) recorder answers with
    | (recorder, fault) => (recorder, some fault)

/-- The events and messages so far are forgotten. -/
def forget (recorder : Recorder) : Recorder := { recorder with events := [], sent := [] }

/-- The identities a talk has brought. -/
def identitiesOf (recorder : Recorder) (index : Nat) : List Datum :=
  (recorder.identities.filter (·.1 = index)).map (·.2)

end Recorder
end EvalDesk
