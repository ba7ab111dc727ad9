import EvalDesk.Session.Event

/-!
# The session

A session numbers the requests, knows the namespace code is evaluated in and the identity the
server has given it, and keeps a talk for every request that was sent. A talk says what the request
was for and which statuses its answers have brought so far. Sending gives a message, and an answer
to a talk gives notices: a new identity, or events under the purpose of the request.

What the far end does while a message is sent is an exchange: it refuses the message, or it answers
some of it at once and may then break off.
-/
namespace EvalDesk

/-- A message to the server. -/
abbrev Message := Table

/-- What a request was for. -/
inductive Topic (Purpose : Type) where
  /-- A new identity, told when it arrives if that is wanted. -/
  | identity (told : Bool)
  /-- Something whose events go to the purpose. -/
  | work (purpose : Purpose)

/-- A request that was sent. -/
structure Talk (Purpose : Type) where
  /-- The identity of the request as it was sent. -/
  id : Datum
  /-- What it was for. -/
  topic : Topic Purpose
  /-- The statuses of its answers so far, each once, in order of appearance. -/
  statuses : List String

/-- The state of the session. -/
structure Session (Purpose : Type) where
  /-- The namespace code is evaluated in. -/
  ns : Datum
  /-- The identity given by the server. -/
  identity : Datum
  /-- How many requests have been numbered. -/
  count : Nat
  /-- The requests that were sent, in order. -/
  talks : List (Talk Purpose)

/-- What an answer tells. -/
inductive Notice (Purpose : Type) where
  /-- The session has a new identity. -/
  | ready (identity : Datum)
  /-- An event of a request. -/
  | event (purpose : Purpose) (event : Event)

namespace Session

variable {Purpose : Type}

/-- A session that has sent nothing. -/
def start (ns identity : Datum) : Session Purpose := ⟨ns, identity, 0, []⟩

/-- The identity of the next request. -/
def nextId (session : Session Purpose) : String := toString (session.count + 1)

/-- Number a message and remember what it is for. -/
def record (session : Session Purpose) (message : Message) (topic : Topic Purpose) :
    Session Purpose :=
  { session with
    count := session.count + 1
    talks := session.talks ++ [⟨message.get "id", topic, []⟩] }

/-- The message that asks for a new identity. -/
def identityMessage (session : Session Purpose) : Message :=
  [("op", .text "clone"), ("id", .text session.nextId)]

/-- What a request is stamped with: its operation and number, the identity of the session if there
is one, and for an evaluation the namespace unless the fields give one. -/
def stamps (session : Session Purpose) (op : String) (fields : Table) : Message :=
  let named : Message := [("op", .text op), ("id", .text session.nextId)]
  let identified : Message :=
    if session.identity.isPresent then [("session", session.identity)] else []
  let placed : Message := if op = "eval" ∧ !fields.has "ns" then [("ns", session.ns)] else []
  named ++ identified ++ placed

/-- The message of a request: its fields behind its stamps. Absent fields are left out. -/
def message (session : Session Purpose) (op : String) (fields : Table) : Message :=
  (session.stamps op fields).merge
    (fields.filter fun (_, value) => match value with | .null => false | _ => true)

/-- The fields of an evaluation. -/
def evalFields (code file line column : Datum) : Table :=
  [("code", code), ("file", file), ("line", line), ("column", column)]

/-- The part of a path behind its last slash. -/
def fileName (path : String) : String :=
  String.ofList (path.toList.reverse.takeWhile (· ≠ '/')).reverse

/-- The fields of a request that loads a file. -/
def loadFields (text path : String) : Table :=
  [("file", .text text), ("file-path", .text path), ("file-name", .text (fileName path))]

/-- The fields of a request that stops another. -/
def interruptFields (id : Datum) : Table := [("interrupt-id", id)]

/-- Statuses with those of another answer behind them, each once and without the one that says the
request is done. -/
def gather (known : List String) (statuses : List String) : List String :=
  statuses.foldl (fun known status =>
    if status = Event.doneStatus ∨ status ∈ known then known else known ++ [status]) known

/-- Gathering keeps every status once. -/
theorem nodup_gather {known : List String} (once : known.Nodup) (statuses : List String) :
    (gather known statuses).Nodup := by
  induction statuses generalizing known with
  | nil => exact once
  | cons status rest ih =>
    simp only [gather, List.foldl_cons]
    split
    · exact ih once
    · rename_i fresh
      refine ih (List.nodup_append.mpr ⟨once, by simp, ?_⟩)
      intro earlier member later single same
      simp only [List.mem_singleton] at single
      exact fresh (.inr (single ▸ same ▸ member))

/-- Statuses of two answers may be gathered together. -/
theorem gather_append (known first second : List String) :
    gather known (first ++ second) = gather (gather known first) second :=
  List.foldl_append

/-- An event as it is told: the end of a request has all statuses of its talk. -/
def told (statuses : List String) : Event → Event
  | .completed _ id => .completed (statuses ++ [Event.doneStatus]) id
  | other => other

/-- The namespace after an event. -/
def nsAfter (ns : Datum) : Event → Datum
  | .value _ next _ => if next.isPresent then next else ns
  | _ => ns

/-- Take an answer to the talk at an index. -/
def receive (session : Session Purpose) (index : Nat) (answer : Table) :
    Except Fault (Session Purpose × List (Notice Purpose)) :=
  match session.talks[index]? with
  | none => .ok (session, [])
  | some talk =>
    match talk.topic with
    | .identity wanted =>
      let identity := answer.get "new-session"
      if identity.isPresent then
        .ok ({ session with identity }, if wanted then [.ready identity] else [])
      else .ok (session, [])
    | .work purpose => do
      let statuses ← Event.statuses answer
      let gathered := gather talk.statuses statuses
      let events := (Event.ofAnswer answer statuses).map (told gathered)
      let talks := session.talks.set index { talk with statuses := gathered }
      return ({ session with talks, ns := events.foldl nsAfter session.ns },
        events.map (.event purpose))

/-- The talk about the last request that was sent with an identity. -/
def talkOf? (session : Session Purpose) (id : Datum) : Option Nat :=
  ((List.range session.talks.length).filter fun index =>
    (session.talks[index]?).any fun talk => talk.id.literal = id.literal).getLast?

end Session

/-- What the far end does while a message is sent. -/
structure Exchange where
  /-- The reason it does not take the message. -/
  refusal : Option Fault
  /-- Its answers, if it takes the message. -/
  answers : List Table
  /-- The reason it breaks off after the answers. -/
  breakage : Option Fault

/-- How the far end treats each message. -/
abbrev Transport := Message → Exchange

/-- A fault while sending is told as a lost connection, unless the transport told its own. -/
def Fault.asLost : Fault → Fault
  | .transport problem => .transport problem
  | other => .transport (.lost other.message)

/-- Take answers one after another until one of them fails. -/
def hearAll {State : Type} (hear : State → Table → State × Option Fault) :
    State → List Table → State × Option Fault
  | state, [] => (state, none)
  | state, answer :: rest =>
    match hear state answer with
    | (state, some fault) => (state, some fault)
    | (state, none) => hearAll hear state rest

/-- Answers that come in two parts are taken one part after the other, unless the first fails. -/
theorem hearAll_append {State : Type} (hear : State → Table → State × Option Fault)
    (state : State) (first second : List Table) :
    hearAll hear state (first ++ second) =
      match hearAll hear state first with
      | (state, some fault) => (state, some fault)
      | (state, none) => hearAll hear state second := by
  induction first generalizing state with
  | nil => rfl
  | cons answer rest ih =>
    simp only [List.cons_append, hearAll]
    split
    · rfl
    · exact ih _

/-- Take what happens while a message is sent. -/
def hearExchange {State : Type} (hear : State → Table → State × Option Fault) (state : State)
    (exchange : Exchange) : State × Option Fault :=
  match exchange.refusal with
  | some fault => (state, some fault.asLost)
  | none =>
    match hearAll hear state exchange.answers with
    | (state, some fault) => (state, some fault.asLost)
    | (state, none) => (state, exchange.breakage.map Fault.asLost)

end EvalDesk
