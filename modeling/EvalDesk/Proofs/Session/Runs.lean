import EvalDesk.Proofs.Session.Messages
import EvalDesk.Session.Recorder

/-!
# Runs of a session

A session is called, and answers reach the requests that were sent, at once or at any later time.
The moments of a run list both in order: a call with the message it gives to the transport, which
may refuse it or break off, and an answer with the events that reach the listener of its request. A
listener that fails ends the answer it is taking, and those behind it that come together with it.

Between two moments nothing happens to the session, so a run is a course: one step of the session
for each moment. What depends on the whole of a run is found by going along its course.
-/
namespace EvalDesk

namespace Recorder

/-- What a session is called for. -/
inductive Call where
  /-- A new identity, told when it arrives if that is wanted. -/
  | identity (told : Bool)
  /-- Code is evaluated, which stands in a file at a line and a column if these are given. -/
  | evaluate (code file line column : Datum) (listener : Listener)
  /-- A text is loaded as the file of a path. -/
  | load (text path : String) (listener : Listener)
  /-- The server describes itself. -/
  | describe (listener : Listener)
  /-- The request with an identity is stopped. -/
  | interrupt (id : Datum) (listener : Listener)
  /-- Anything else, by an operation and its fields. -/
  | request (op : String) (fields : Table) (listener : Listener)

namespace Call

/-- The operation of the request and its fields, if it is not one for an identity. -/
def work? : Call → Option (String × Table × Listener)
  | .identity _ => none
  | .evaluate code file line column listener =>
    some ("eval", Session.evalFields code file line column, listener)
  | .load text path listener => some ("load-file", Session.loadFields text path, listener)
  | .describe listener => some ("describe", [], listener)
  | .interrupt id listener => some ("interrupt", Session.interruptFields id, listener)
  | .request op fields listener => some (op, fields, listener)

/-- The message of a call. -/
def message (call : Call) (session : Session Listener) : Message :=
  match call.work? with
  | none => session.identityMessage
  | some (op, fields, _) => session.message op fields

/-- What its request is for. -/
def topic : Call → Topic Listener
  | .identity told => .identity told
  | .evaluate _ _ _ _ listener | .load _ _ listener | .describe listener | .interrupt _ listener
  | .request _ _ listener => .work listener

/-- Make the call over a transport; the result is the identity of the request. -/
def make (call : Call) (transport : Transport) (recorder : Recorder) :
    Recorder × Except Fault String :=
  match call with
  | .identity told => recorder.clone transport told
  | .evaluate code file line column listener =>
    recorder.request transport "eval" (Session.evalFields code file line column) listener
  | .load text path listener =>
    recorder.request transport "load-file" (Session.loadFields text path) listener
  | .describe listener => recorder.request transport "describe" [] listener
  | .interrupt id listener =>
    recorder.request transport "interrupt" (Session.interruptFields id) listener
  | .request op fields listener => recorder.request transport op fields listener

/-- A call sends its message. -/
theorem make_eq (call : Call) (transport : Transport) (recorder : Recorder) :
    call.make transport recorder =
      recorder.send transport (call.message recorder.session) call.topic := by
  cases call <;> rfl

end Call

/-- A call that was made. -/
structure Asking where
  /-- The call. -/
  call : Call
  /-- The message that was given to the transport. -/
  message : Message
  /-- What came of it. -/
  result : Except Fault String

/-- An answer that has reached a request. -/
structure Delivery where
  /-- The place of the request among the requests. -/
  request : Nat
  /-- What the request was for. -/
  topic : Topic Listener
  /-- The answer. -/
  answer : Table
  /-- The events that reached the listener. -/
  handed : List Event

/-- Something that happens in a run of a session. -/
inductive Moment where
  /-- A call is made. -/
  | asked (asking : Asking)
  /-- An answer reaches a request. -/
  | delivered (delivery : Delivery)

/-- The call that is made, if one is. -/
def Moment.asking? : Moment → Option Asking
  | .asked asking => some asking
  | .delivered _ => none

/-- The answer that reaches a request, if one does. -/
def Moment.delivery? : Moment → Option Delivery
  | .asked _ => none
  | .delivered delivery => some delivery

/-- The message that is sent, if a call is made. -/
def Moment.message? (moment : Moment) : Option Message := moment.asking?.map (·.message)

/-- The calls among some moments. -/
def calls (moments : List Moment) : List Call := moments.filterMap (·.asking?.map (·.call))

/-- The events among notices that reach their listener; none does behind one at which it fails. -/
def handed : List (Notice Listener) → List Event
  | [] => []
  | .ready _ :: rest => handed rest
  | .event (.recorder (some _)) event :: _ => [event]
  | .event _ event :: rest => event :: handed rest

/-- Answers that reach a request, up to the first at which something fails. -/
def deliveries (index : Nat) : Recorder → List Table → List Moment
  | _, [] => []
  | recorder, answer :: rest =>
    match recorder.session.talks[index]?, recorder.session.receive index answer with
    | some talk, .ok (_, notices) =>
      .delivered ⟨index, talk.topic, answer, handed notices⟩ ::
        match recorder.hear index answer with
        | (_, some _) => []
        | (after, none) => deliveries index after rest
    | _, _ => []

/-- The recorder when a message was given to the transport and nothing has come back. -/
def asked (recorder : Recorder) (message : Message) (topic : Topic Listener) : Recorder :=
  { recorder with
    session := recorder.session.record message topic
    sent := recorder.sent ++ [message] }

/-- The moments of a call: it is made, and answers may come back meanwhile. -/
def Call.moments (call : Call) (transport : Transport) (recorder : Recorder) : List Moment :=
  let message := call.message recorder.session
  .asked ⟨call, message, (call.make transport recorder).2⟩ ::
    match (transport message).refusal with
    | some _ => []
    | none =>
      deliveries recorder.session.talks.length (recorder.asked message call.topic)
        (transport message).answers

/-- The moments of answers to a request that was sent before. -/
def lateMoments (recorder : Recorder) (id : Datum) (answers : List Table) : List Moment :=
  match recorder.session.talkOf? id with
  | none => []
  | some index => deliveries index recorder answers

/-- A new session with a namespace and an identity comes to a state by calls and answers, and these
are the moments on the way. -/
inductive Run (ns identity : Datum) : Recorder → List Moment → Prop where
  /-- Nothing has happened. -/
  | start : Run ns identity (.start ns identity) []
  /-- A call is made. -/
  | called {recorder : Recorder} {moments : List Moment} (transport : Transport) (call : Call) :
    Run ns identity recorder moments →
      Run ns identity (call.make transport recorder).1 (moments ++ call.moments transport recorder)
  /-- Answers come back to a request that was sent before. -/
  | answered {recorder : Recorder} {moments : List Moment} (id : Datum) (answers : List Table) :
    Run ns identity recorder moments →
      Run ns identity (recorder.deliver id answers).1 (moments ++ recorder.lateMoments id answers)

/-- A connection that is closed. -/
def closed : Fault := .transport (.lost "closed")

/-- A transport that takes no message. -/
def refusing : Transport := fun _ => ⟨some closed, [], none⟩

/-- A transport that answers every message in one way. -/
def answering (answers : List Table) : Transport := fun _ => ⟨none, answers, none⟩

/-- Something that is done with a session. -/
inductive Turn where
  /-- It is called over a transport. -/
  | call (transport : Transport) (call : Call)
  /-- Answers come back to a request that was sent before. -/
  | answers (id : Datum) (answers : List Table)

/-- What the turns lead to, and the moments on the way. -/
def play (start : Recorder × List Moment) (turns : List Turn) : Recorder × List Moment :=
  turns.foldl (fun (recorder, moments) turn =>
    match turn with
    | .call transport call =>
      ((call.make transport recorder).1, moments ++ call.moments transport recorder)
    | .answers id answers =>
      ((recorder.deliver id answers).1, moments ++ recorder.lateMoments id answers)) start

/-- The turns of a new session are a run. -/
theorem run_play (ns identity : Datum) (turns : List Turn) :
    Run ns identity (play (.start ns identity, []) turns).1
      (play (.start ns identity, []) turns).2 := by
  suffices ∀ recorder moments, Run ns identity recorder moments →
      Run ns identity (play (recorder, moments) turns).1 (play (recorder, moments) turns).2 from
    this _ _ .start
  induction turns with
  | nil => exact fun _ _ run => run
  | cons turn rest ih =>
    intro recorder moments run
    cases turn with
    | call transport call => exact ih _ _ (run.called transport call)
    | answers id answers => exact ih _ _ (run.answered id answers)

/-! ## Courses -/

/-- What a moment does to the session. -/
inductive Step : Session Listener → Moment → Session Listener → Prop where
  /-- A call is numbered. Its result, if there is one, is the number. -/
  | asked {session : Session Listener} {call : Call} {result : Except Fault String} :
    (∀ id, result = .ok id → id = session.nextId) →
    Step session (.asked ⟨call, call.message session, result⟩)
      (session.record (call.message session) call.topic)
  /-- An answer is taken. What reaches the listener is told. -/
  | delivered {session after : Session Listener} {index : Nat} {talk : Talk Listener}
    {answer : Table} {notices : List (Notice Listener)} :
    session.talks[index]? = some talk → session.receive index answer = .ok (after, notices) →
    Step session (.delivered ⟨index, talk.topic, answer, Recorder.handed notices⟩) after

/-- A session goes through some moments one after another. -/
inductive Course : Session Listener → List Moment → Session Listener → Prop where
  /-- There is none. -/
  | nil {session : Session Listener} : Course session [] session
  /-- The first one comes before the others. -/
  | cons {session middle after : Session Listener} {moment : Moment} {rest : List Moment} :
    Step session moment middle → Course middle rest after → Course session (moment :: rest) after

namespace Course

variable {session middle after : Session Listener} {earlier later : List Moment}

/-- Two parts make a course. -/
theorem trans (first : Course session earlier middle) (second : Course middle later after) :
    Course session (earlier ++ later) after := by
  induction first with
  | nil => exact second
  | cons step _ ih => exact .cons step (ih second)

/-- A course in two parts has a session between them. -/
theorem exists_middle (course : Course session (earlier ++ later) after) :
    ∃ middle, Course session earlier middle ∧ Course middle later after := by
  induction earlier generalizing session with
  | nil => exact ⟨session, .nil, course⟩
  | cons moment rest ih =>
    cases course with
    | cons step course =>
      obtain ⟨middle, first, second⟩ := ih course
      exact ⟨middle, .cons step first, second⟩

/-- What every moment keeps true of the session and the moments so far is true at the end. -/
theorem induction_on {property : List Moment → Session Listener → Prop}
    (course : Course session later after)
    (each : ∀ {before moment session after}, Step session moment after → property before session →
      property (before ++ [moment]) after)
    (start : property earlier session) : property (earlier ++ later) after := by
  induction course generalizing earlier with
  | nil => rwa [List.append_nil]
  | cons step _ ih => exact List.append_cons .. ▸ ih (each step start)

end Course

/-- The requests of a session are the calls that were made. -/
structure Numbered (moments : List Moment) (session : Session Listener) : Prop where
  /-- Every call is numbered. -/
  count : session.count = (calls moments).length
  /-- Every call is remembered with what it is for. -/
  topics : session.talks.map (·.topic) = (calls moments).map Call.topic

/-- A moment keeps the requests numbered. -/
theorem Step.numbered {before : List Moment} {moment : Moment} {session after : Session Listener}
    (step : Step session moment after) (numbered : Numbered before session) :
    Numbered (before ++ [moment]) after := by
  obtain ⟨count, topics⟩ := numbered
  cases step with
  | asked _ =>
    rw [calls] at count topics
    constructor
    · simp [calls, Moment.asking?, Session.record, count]
    · simp [calls, Moment.asking?, Session.record, topics]
  | @delivered _ index talk answer notices found taken =>
    have same : calls (before ++ [.delivered ⟨index, talk.topic, answer, handed notices⟩]) =
        calls before := by simp [calls, Moment.asking?]
    have kept : after.count = session.count ∧
        after.talks.map (·.topic) = session.talks.map (·.topic) := by
      rcases Session.receive_taken found taken with
        ⟨_, _, rfl, _⟩ | ⟨_, _, _, _, rfl, _⟩
      · exact ⟨rfl, rfl⟩
      · exact ⟨rfl, Session.topics_set found _⟩
    rw [← same] at count topics
    exact ⟨kept.1.trans count, kept.2.trans topics⟩

/-- The course of a new session keeps the requests numbered. -/
theorem Course.numbered {ns identity : Datum} {moments : List Moment} {session : Session Listener}
    (course : Course (.start ns identity) moments session) : Numbered moments session :=
  @Course.induction_on _ _ [] _ _ course Step.numbered ⟨rfl, rfl⟩

/-! ## Runs are courses -/

/-- What is written down of notices are the events that reach a listener that writes. -/
def written : Topic Listener → List Event → List Event
  | .work (.recorder _), events => events
  | _, _ => []

/-- The events of a moment that are written down. -/
def Moment.written : Moment → List Event
  | .asked _ => []
  | .delivered delivery => Recorder.written delivery.topic delivery.handed

/-- Writing notices down leaves the session and what was sent alone. -/
theorem noteAll_keeps (index : Nat) (notices : List (Notice Listener)) (recorder : Recorder) :
    (noteAll index recorder notices).1.session = recorder.session ∧
      (noteAll index recorder notices).1.sent = recorder.sent := by
  induction notices generalizing recorder with
  | nil => exact ⟨rfl, rfl⟩
  | cons notice rest ih =>
    rw [noteAll]
    rcases notice with identity | ⟨_ | _ | fault, event⟩
    · exact ih _
    · exact ih _
    · exact ih _
    · exact ⟨rfl, rfl⟩

/-- The events of a request that reach its listener are written down if it writes. -/
theorem noteAll_events (index : Nat) (listener : Listener) (events : List Event)
    (recorder : Recorder) :
    (noteAll index recorder (events.map (Notice.event listener))).1.events =
      recorder.events ++
        written (.work listener) (handed (events.map (Notice.event listener))) := by
  induction events generalizing recorder with
  | nil => cases listener <;> exact (List.append_nil _).symm
  | cons event rest ih =>
    rw [List.map_cons, noteAll]
    rcases listener with _ | _ | fault
    · exact ih recorder
    · exact (ih _).trans (List.append_assoc ..)
    · rfl

/-- Nothing reaches a listener without events. -/
theorem handed_silent {notices : List (Notice Listener)}
    (silent : ∀ listener event, .event listener event ∉ notices) : handed notices = [] := by
  induction notices with
  | nil => rfl
  | cons notice rest ih =>
    cases notice with
    | event listener event => exact absurd (.head _) (silent listener event)
    | ready identity => exact ih fun listener event member => silent _ _ (.tail _ member)

/-- Notices without events write no events down. -/
theorem noteAll_silent {notices : List (Notice Listener)}
    (silent : ∀ listener event, .event listener event ∉ notices) (index : Nat)
    (recorder : Recorder) :
    (noteAll index recorder notices).1.events = recorder.events := by
  induction notices generalizing recorder with
  | nil => rfl
  | cons notice rest ih =>
    cases notice with
    | event listener event => exact absurd (.head _) (silent listener event)
    | ready identity => exact ih (fun listener event member => silent _ _ (.tail _ member)) _

/-- An answer that is taken leads to the session after it, and writes down the events that reach a
listener that writes. -/
theorem hear_taken {recorder : Recorder} {index : Nat} {talk : Talk Listener} {answer : Table}
    {after : Session Listener} {notices : List (Notice Listener)}
    (found : recorder.session.talks[index]? = some talk)
    (taken : recorder.session.receive index answer = .ok (after, notices)) :
    (recorder.hear index answer).1.session = after ∧
      (recorder.hear index answer).1.sent = recorder.sent ∧
      (recorder.hear index answer).1.events =
        recorder.events ++ written talk.topic (handed notices) := by
  have heard : recorder.hear index answer =
      noteAll index { recorder with session := after } notices := by
    rw [hear, taken]
  obtain ⟨session, sent⟩ := noteAll_keeps index notices { recorder with session := after }
  rw [heard]
  refine ⟨session, sent, ?_⟩
  rcases Session.receive_taken found taken with
    ⟨wanted, topic, _, silent⟩ | ⟨listener, read, topic, _, _, rfl⟩
  · rw [topic]
    exact (noteAll_silent silent index _).trans (List.append_nil _).symm
  · rw [topic]
    exact noteAll_events index listener _ _

/-- Answers to a request are a course, send nothing, and write down the events that reach a listener
that writes. -/
theorem course_hearAll (index : Nat) (answers : List Table) (recorder : Recorder) :
    Course recorder.session (deliveries index recorder answers)
        (hearAll (hear index) recorder answers).1.session ∧
      (hearAll (hear index) recorder answers).1.sent = recorder.sent ∧
      (hearAll (hear index) recorder answers).1.events =
        recorder.events ++ (deliveries index recorder answers).flatMap Moment.written := by
  induction answers generalizing recorder with
  | nil => exact ⟨.nil, rfl, (List.append_nil _).symm⟩
  | cons answer rest ih =>
    rw [deliveries, hearAll]
    cases found : recorder.session.talks[index]? with
    | none =>
      -- An index without a request takes every answer and does nothing with it.
      have nothing : ∀ answers,
          hearAll (hear index) recorder answers = (recorder, none) := by
        intro answers
        induction answers with
        | nil => rfl
        | cons answer rest ih => simp only [hearAll, hear, Session.receive, found, noteAll, ih]
      have same := nothing (answer :: rest)
      rw [hearAll] at same
      rw [same]
      exact ⟨.nil, rfl, (List.append_nil _).symm⟩
    | some talk =>
      cases taken : recorder.session.receive index answer with
      | error fault =>
        rw [show recorder.hear index answer = (recorder, some fault) by rw [hear, taken]]
        exact ⟨.nil, rfl, (List.append_nil _).symm⟩
      | ok result =>
        obtain ⟨session, notices⟩ := result
        obtain ⟨after, sent, events⟩ := hear_taken found taken
        have step := Step.delivered found taken
        cases heard : recorder.hear index answer with
        | mk now fault =>
          rw [heard] at after sent events
          rw [← after] at step
          cases fault with
          | some fault =>
            exact ⟨.cons step .nil, sent, events.trans (by simp [Moment.written])⟩
          | none =>
            obtain ⟨course, kept, later⟩ := ih now
            refine ⟨.cons step course, kept.trans sent, later.trans ?_⟩
            rw [events, List.append_assoc, List.flatMap_cons]
            rfl

/-- Sending gives the message to the transport, and takes what comes back meanwhile. The result, if
there is one, is the number of the request. -/
theorem send_cases (recorder : Recorder) (transport : Transport) (message : Message)
    (topic : Topic Listener) :
    (recorder.send transport message topic).1 =
        (match (transport message).refusal with
        | some _ => recorder.asked message topic
        | none =>
          (hearAll (hear recorder.session.talks.length) (recorder.asked message topic)
            (transport message).answers).1) ∧
      ∀ id, (recorder.send transport message topic).2 = .ok id → id = recorder.session.nextId := by
  rw [send, hearExchange]
  cases (transport message).refusal with
  | some fault => exact ⟨rfl, fun _ made => nomatch made⟩
  | none =>
    simp only [asked]
    cases hearAll (hear recorder.session.talks.length) { recorder with
        session := recorder.session.record message topic, sent := recorder.sent ++ [message] }
        (transport message).answers with
    | mk after fault =>
      cases fault with
      | some fault => exact ⟨rfl, fun _ made => nomatch made⟩
      | none =>
        cases (transport message).breakage with
        | some fault => exact ⟨rfl, fun _ made => nomatch made⟩
        | none => exact ⟨rfl, fun _ made => (Except.ok.inj made).symm⟩

/-- Answers send nothing. -/
theorem filterMap_message?_deliveries (index : Nat) (answers : List Table) (recorder : Recorder) :
    (deliveries index recorder answers).filterMap Moment.message? = [] := by
  induction answers generalizing recorder with
  | nil => rfl
  | cons answer rest ih =>
    rw [deliveries]
    split
    · rw [List.filterMap_cons]
      show (match recorder.hear index answer with
        | (_, some _) => []
        | (after, none) => deliveries index after rest).filterMap Moment.message? = []
      split
      · rfl
      · exact ih _
    · rfl

/-- What some moments do to a recorder: the session follows their course, their messages are sent
and their events are written down. -/
structure Follows (before : Recorder) (moments : List Moment) (after : Recorder) : Prop where
  /-- The session follows their course. -/
  course : Course before.session moments after.session
  /-- Their messages are sent. -/
  sent : after.sent = before.sent ++ moments.filterMap Moment.message?
  /-- Their events are written down. -/
  events : after.events = before.events ++ moments.flatMap Moment.written

/-- One part of a run after another. -/
theorem Follows.trans {before middle after : Recorder} {earlier later : List Moment}
    (first : Follows before earlier middle) (second : Follows middle later after) :
    Follows before (earlier ++ later) after := by
  refine ⟨first.course.trans second.course, ?_, ?_⟩
  · rw [second.sent, first.sent, List.filterMap_append, List.append_assoc]
  · rw [second.events, first.events, List.flatMap_append, List.append_assoc]

/-- Answers follow their moments. -/
theorem follows_hearAll (index : Nat) (answers : List Table) (recorder : Recorder) :
    Follows recorder (deliveries index recorder answers)
      (hearAll (hear index) recorder answers).1 := by
  obtain ⟨course, sent, events⟩ := course_hearAll index answers recorder
  refine ⟨course, ?_, events⟩
  rw [sent, filterMap_message?_deliveries, List.append_nil]

/-- A call follows its moments. -/
theorem follows_make (call : Call) (transport : Transport) (recorder : Recorder) :
    Follows recorder (call.moments transport recorder) (call.make transport recorder).1 := by
  obtain ⟨after, numbered⟩ :=
    recorder.send_cases transport (call.message recorder.session) call.topic
  rw [← call.make_eq transport recorder] at after numbered
  have asks : Follows recorder
      [.asked ⟨call, call.message recorder.session, (call.make transport recorder).2⟩]
      (recorder.asked (call.message recorder.session) call.topic) :=
    ⟨.cons (.asked numbered) .nil, rfl, (List.append_nil _).symm⟩
  rw [after, Call.moments]
  refine asks.trans ?_
  cases (transport (call.message recorder.session)).refusal with
  | some fault => exact ⟨.nil, (List.append_nil _).symm, (List.append_nil _).symm⟩
  | none => exact follows_hearAll _ _ _

/-- A run follows its moments. -/
theorem Run.follows {ns identity : Datum} {recorder : Recorder} {moments : List Moment}
    (run : Run ns identity recorder moments) : Follows (.start ns identity) moments recorder := by
  induction run with
  | start => exact ⟨.nil, rfl, rfl⟩
  | called transport call _ ih => exact ih.trans (follows_make call transport _)
  | @answered recorder moments id answers _ ih =>
    refine ih.trans ?_
    rw [deliver, lateMoments]
    cases recorder.session.talkOf? id with
    | none => exact ⟨.nil, (List.append_nil _).symm, (List.append_nil _).symm⟩
    | some index => exact follows_hearAll index answers recorder

end Recorder
end EvalDesk
