import EvalDesk.Proofs.Engine.Frame
import EvalDesk.Proofs.Session.Messages

/-!
# What answers change

An answer changes what is known in many ways, but which evaluation runs is changed only by the end
of a request: the request is no longer pending, and while a request is being sent the end is
remembered. The session keeps all its requests.
-/
namespace EvalDesk

/-- The event is the end of a request. -/
def Event.isEnd : Event → Bool
  | .completed .. => true
  | _ => false

/-- The events of an answer other than the end of the request. -/
def Event.goingOn (answer : Table) : List Event :=
  let id := answer.get "id"
  ((answer.get? "value").map fun result => Event.value result (answer.get "ns") id).toList ++
    ((answer.get? "out").map fun text => Event.output text id).toList ++
    ((answer.get? "err").map fun text => Event.errorOutput text id).toList

/-- None of them is the end of the request. -/
theorem Event.isEnd_of_mem_goingOn {answer : Table} :
    ∀ event ∈ goingOn answer, event.isEnd = false := by
  intro event member
  simp only [goingOn, List.mem_append, Option.mem_toList, Option.map_eq_some_iff] at member
  rcases member with (⟨_, _, rfl⟩ | ⟨_, _, rfl⟩) | ⟨_, _, rfl⟩ <;> rfl

/-- Events of requests for this are heard. -/
def Topic.isHeard : Topic Purpose → Bool
  | .identity _ | .work .unheard => false
  | .work _ => true

/-- The requests that were sent, by their identities and what they were for. -/
def Session.requests (session : Session Purpose) : List (Datum × Topic Purpose) :=
  session.talks.map fun talk => (talk.id, talk.topic)

/-- A request has a talk. -/
theorem Session.exists_talk {session : Session Purpose} {index : Nat} {topic : Topic Purpose}
    (request : (session.requests[index]?).map (·.2) = some topic) :
    ∃ talk, session.talks[index]? = some talk ∧ talk.topic = topic := by
  simp only [requests, List.getElem?_map, Option.map_map, Option.map_eq_some_iff] at request
  exact request

/-- The status of an answer says that the request is done. -/
def Event.saysDone (answer : Table) : Bool :=
  match answer.get "status" with
  | .text word => word = doneStatus
  | .list items => items.any fun item => item.text? = some doneStatus
  | _ => false

/-- An answer to the request of an identity: it carries the identity, and its status, if it has
one, is a text or a list of texts. -/
structure Event.IsAnswerTo (id : Datum) (answer : Table) : Prop where
  /-- The identity is that of the request. -/
  own : answer.get "id" = id
  /-- The status is made of texts. -/
  words : answer.get "status" = .null ∨ (∃ word, answer.get "status" = .text word) ∨
    ∃ words : List String, answer.get "status" = .list (words.map .text)

/-- The statuses of an answer can be read, and they tell whether it says that the request is
done. -/
theorem Event.IsAnswerTo.statuses {id : Datum} {answer : Table} (answers : IsAnswerTo id answer) :
    ∃ words, Event.statuses answer = .ok words ∧ words.contains doneStatus = saysDone answer := by
  rcases answers.words with absent | ⟨word, single⟩ | ⟨words, several⟩
  · refine ⟨[], ?_, ?_⟩
    · rw [Event.statuses, absent]
      rfl
    · rw [saysDone, absent]
      rfl
  · by_cases empty : word = ""
    · subst empty
      refine ⟨[], ?_, ?_⟩
      · rw [Event.statuses, single]
        rfl
      · rw [saysDone, single]
        rfl
    · refine ⟨[word], ?_, ?_⟩
      · simp [Event.statuses, single, Datum.isPresent, empty]
      · rw [saysDone, single]
        simp [eq_comm]
  · refine ⟨words, ?_, ?_⟩
    · rw [Event.statuses, several]
      cases words with
      | nil => rfl
      | cons word rest => exact mapM_statusText (word :: rest)
    · rw [saysDone, several, Bool.eq_iff_iff]
      simp [Datum.text?]

namespace Engine

section Keeps

variable {β : Type} {view : Engine → β}

/-- More documentation keeps what does not show it. -/
theorem keeps_addDocumentation
    (written : ∀ (engine : Engine) documentation,
      view (engine.withState fun state => { state with documentation }) = view engine)
    (text : Datum) : Keeps view (addDocumentation text) := by
  unfold addDocumentation
  split
  · exact keeps_modify fun engine => written engine _
  · exact keeps_throw _

/-- A diagnostic keeps what shows neither it, nor the open sources, nor what is drawn. -/
theorem keeps_addDiagnostic
    (noted : ∀ (engine : Engine) diagnostic,
      view (engine.withState (·.addDiagnostic diagnostic)) = view engine)
    (unseen : ∀ (engine : Engine) opened, view { engine with opened } = view engine)
    (drawn : ∀ engine placement, view (decorate engine placement) = view engine)
    (disk : Disk) (diagnostic : Diagnostic) (origin : Origin) :
    Keeps view (addDiagnostic disk diagnostic origin) := by
  refine keeps_bind (keeps_modify fun engine => noted engine diagnostic) fun _ => ?_
  refine keeps_bind keeps_get fun engine => ?_
  refine keeps_bind (keeps_lift _) fun found => ?_
  obtain ⟨placement, opened⟩ := found
  refine keeps_bind (keeps_modify fun engine => unseen engine _) fun _ => ?_
  split
  · exact keeps_pure _
  · exact keeps_modify fun engine => drawn engine _

/-- Error output keeps what shows no diagnostic of it. -/
theorem keeps_showDiagnostic
    (noted : ∀ (engine : Engine) diagnostic,
      view (engine.withState (·.addDiagnostic diagnostic)) = view engine)
    (unseen : ∀ (engine : Engine) opened, view { engine with opened } = view engine)
    (drawn : ∀ engine placement, view (decorate engine placement) = view engine)
    (disk : Disk) (text : Datum) (origin : Origin) :
    Keeps view (showDiagnostic disk text origin) := by
  refine keeps_bind (keeps_lift _) fun lines => ?_
  split
  · exact keeps_pure _
  · exact keeps_addDiagnostic noted unseen drawn disk _ origin

/-- A value keeps what shows neither it, nor the namespace, nor the transcript. -/
theorem keeps_value
    (valued : ∀ (engine : Engine) lastValue,
      view (engine.withState fun state => { state with lastValue }) = view engine)
    (added : ∀ kind text, Keeps view (append kind text))
    (moved : ∀ (engine : Engine) ns,
      view (engine.withState fun state => { state with ns }) = view engine)
    (disk : Disk) (origin : Origin) (result ns id : Datum) :
    Keeps view (evaluationEvent disk origin (.value result ns id)) := by
  refine keeps_bind (keeps_modify fun engine => valued engine result) fun _ => ?_
  refine keeps_bind (added _ _) fun _ => ?_
  split
  · exact keeps_modify fun engine => moved engine ns
  · exact keeps_pure _

end Keeps

/-- Only the end of a request is one for what runs. -/
theorem purposeEvent_keeps (disk : Disk) (purpose : Purpose) {event : Event}
    (goes_on : event.isEnd = false) : Keeps tracking (purposeEvent disk purpose event) := by
  cases purpose with
  | evaluation origin =>
    cases event with
    | value result ns id =>
      exact keeps_value (fun _ _ => rfl) append_keeps (fun _ _ => rfl) disk origin result ns id
    | output text id => exact append_keeps _ _
    | errorOutput text id =>
      exact keeps_bind (append_keeps _ _) fun _ =>
        keeps_showDiagnostic (fun _ _ => rfl) (fun _ _ => rfl) (fun _ _ => rfl) disk text origin
    | completed statuses id => contradiction
  | documentation symbol =>
    cases event with
    | value result ns id => exact keeps_pure _
    | output text id => exact keeps_addDocumentation (fun _ _ => rfl) text
    | errorOutput text id => exact keeps_addDocumentation (fun _ _ => rfl) text
    | completed statuses id => contradiction
  | definition symbol =>
    cases event with
    | value result ns id =>
      exact keeps_bind (keeps_lift _) fun location => keeps_modify fun _ => rfl
    | output text id => exact keeps_pure _
    | errorOutput text id => exact append_keeps _ _
    | completed statuses id => contradiction
  | unheard => exact keeps_pure _

/-- What runs after the end of a request: the request is no longer pending, and while one is being
sent the end is remembered. -/
def Tracking.ended (tracking : Tracking) (name : String) : Tracking :=
  { tracking with
    pending := if tracking.pending = some name then none else tracking.pending
    endedEarly := if tracking.sending then tracking.endedEarly ++ [name] else tracking.endedEarly }

/-- The end of a request succeeds and changes what runs. -/
theorem perform_complete (engine : Engine) (statuses : List String) (name : String) :
    ∃ after, engine.perform (complete statuses (.text name)) = (after, .ok ()) ∧
      after.tracking = engine.tracking.ended name := by
  unfold complete rememberEnd
  simp only [perform_bind, perform_get]
  by_cases sending : engine.sending = true
  · simp only [sending, ↓reduceIte, perform_modify]
    refine ⟨_, rfl, ?_⟩
    simp [tracking, Tracking.ended, sending, withState, endsPending, messages]
  · simp only [sending, Bool.false_eq_true, ↓reduceIte, perform_pure, perform_modify]
    refine ⟨_, rfl, ?_⟩
    simp [tracking, Tracking.ended, sending, withState, endsPending, messages]

/-- The end of a request without an identity succeeds and leaves nothing pending. -/
theorem perform_complete_nameless (engine : Engine) (statuses : List String) :
    ∃ after, engine.perform (complete statuses .null) = (after, .ok ()) ∧
      after.tracking = { engine.tracking with pending := none } := by
  unfold complete rememberEnd
  simp only [perform_bind, perform_get]
  by_cases sending : engine.sending = true
  · simp only [sending, ↓reduceIte, perform_pure, perform_modify]
    exact ⟨_, rfl, by simp [tracking, sending, withState, endsPending, messages]⟩
  · simp only [sending, Bool.false_eq_true, ↓reduceIte, perform_pure, perform_modify]
    exact ⟨_, rfl, by simp [tracking, sending, withState, endsPending, messages]⟩

/-- The end of a request that is heard changes what runs as far as it does by itself, whatever else
happens at it. -/
theorem tracking_purposeEvent_end (disk : Disk) {purpose : Purpose} (heard : purpose ≠ .unheard)
    (engine : Engine) (statuses : List String) (id : Datum) :
    (engine.perform (purposeEvent disk purpose (.completed statuses id))).1.tracking =
      (engine.perform (complete statuses id)).1.tracking := by
  cases purpose with
  | evaluation origin => rfl
  | documentation symbol =>
    refine view_bind (fun _ => keeps_modify fun now => ?_) engine
    simp only [withState]
    split <;> rfl
  | definition symbol =>
    refine view_bind (fun _ => keeps_bind keeps_get fun now => ?_) engine
    split
    · exact keeps_modify fun _ => rfl
    · exact sourceless_tracking.keeps_showDefinition (fun _ _ _ => rfl) disk symbol _
  | unheard => contradiction

/-- What reports a failure changes what runs like the action. -/
theorem tracking_reporting (engine : Engine) (action : Action Unit) :
    (engine.reporting action).tracking = (engine.perform action).1.tracking := by
  rw [reporting]
  cases engine.perform action with
  | mk after result =>
    cases result with
    | ok => exact tracking_notify after
    | error fault => exact (tracking_notify _).trans (tracking_withStatus after _)

/-- An event of a request that is heard is taken for its purpose. -/
theorem takeNotice_heard (disk : Disk) {purpose : Purpose} (heard : purpose ≠ .unheard)
    (engine : Engine) (event : Event) :
    takeNotice disk engine (.event purpose event) =
      engine.reporting (purposeEvent disk purpose event) := by
  cases purpose with
  | unheard => contradiction
  | evaluation | documentation | definition => rfl

/-- Notices that are no ends change nothing of what runs. -/
theorem tracking_takeNotices (disk : Disk) (purpose : Purpose) {events : List Event}
    (going_on : ∀ event ∈ events, event.isEnd = false) (engine : Engine) :
    ((events.map (Notice.event purpose)).foldl (takeNotice disk) engine).tracking =
      engine.tracking := by
  induction events generalizing engine with
  | nil => rfl
  | cons event rest ih =>
    have own : (takeNotice disk engine (.event purpose event)).tracking = engine.tracking := by
      by_cases heard : purpose = .unheard
      · rw [heard]
        rfl
      · rw [takeNotice_heard disk heard, tracking_reporting]
        exact purposeEvent_keeps disk purpose (going_on event (.head _)) engine
    rw [List.map_cons, List.foldl_cons, ih fun other member => going_on other (.tail _ member)]
    exact own

/-- The events of an answer are those that go on, and behind them the end if it tells it. -/
theorem ofAnswer_split (answer : Table) (statuses : List String) :
    Event.ofAnswer answer statuses = Event.goingOn answer ++
      if statuses.contains Event.doneStatus then [.completed statuses (answer.get "id")]
      else [] := by
  simp only [Event.ofAnswer, Event.goingOn]
  cases answer.get? "value" <;> cases answer.get? "out" <;> cases answer.get? "err" <;>
    cases statuses.contains Event.doneStatus <;> rfl

/-- The events that go on are told as they are. -/
theorem map_told_goingOn (statuses : List String) (answer : Table) :
    (Event.goingOn answer).map (Session.told statuses) = Event.goingOn answer := by
  conv => rhs; rw [← List.map_id (Event.goingOn answer)]
  apply List.map_congr_left
  intro event member
  have goes_on := Event.isEnd_of_mem_goingOn event member
  cases event <;> first | rfl | contradiction

/-- New statuses of a talk are no new request. -/
theorem requests_set {session : Session Purpose} {index : Nat} {talk : Talk Purpose}
    (found : session.talks[index]? = some talk) (statuses : List String) :
    ({ session with talks := session.talks.set index { talk with statuses } } :
      Session Purpose).requests = session.requests := by
  simp only [Session.requests, List.map_set]
  apply List.ext_getElem?
  intro other
  by_cases same : index = other
  · subst same
    obtain ⟨inside, own⟩ := List.getElem?_eq_some_iff.mp found
    simp [inside, own]
  · rw [List.getElem?_set_ne same]

/-- An answer to a request gives its events for the purpose of the request, and the session keeps
its requests. -/
theorem receive_work {session : Session Purpose} {index : Nat} {talk : Talk Purpose}
    {purpose : Purpose} {answer : Table} {words : List String}
    (found : session.talks[index]? = some talk) (topic : talk.topic = .work purpose)
    (read : Event.statuses answer = .ok words) :
    ∃ after statuses, session.receive index answer = .ok (after, (Event.goingOn answer ++
        if words.contains Event.doneStatus then [Event.completed statuses (answer.get "id")]
        else []).map (Notice.event purpose)) ∧
      after.requests = session.requests ∧ after.count = session.count := by
  have events : (Event.ofAnswer answer words).map
      (Session.told (Session.gather talk.statuses words)) = Event.goingOn answer ++
        if words.contains Event.doneStatus then
          [.completed (Session.gather talk.statuses words ++ [Event.doneStatus]) (answer.get "id")]
        else [] := by
    rw [ofAnswer_split, List.map_append, map_told_goingOn]
    split <;> rfl
  let talks := session.talks.set index { talk with statuses := Session.gather talk.statuses words }
  let ns := ((Event.ofAnswer answer words).map
    (Session.told (Session.gather talk.statuses words))).foldl Session.nsAfter session.ns
  refine ⟨{ session with talks, ns }, Session.gather talk.statuses words ++ [Event.doneStatus],
    ?_, requests_set found _, rfl⟩
  rw [← events]
  obtain ⟨_, _, _⟩ := talk
  cases topic
  simp only [Session.receive, found, read, bind, Except.bind, pure, Except.pure]
  rfl

/-- An answer whose statuses cannot be read fails, and changes nothing. -/
theorem hear_unread (disk : Disk) {index : Nat} {engine : Engine} {talk : Talk Purpose}
    {purpose : Purpose} {answer : Table} {fault : Fault}
    (found : engine.session.talks[index]? = some talk) (topic : talk.topic = .work purpose)
    (unread : Event.statuses answer = .error fault) :
    hear disk index engine answer = (engine, some fault) := by
  simp only [hear, Session.receive, found, topic, unread, bind, Except.bind]

/-- An answer that is taken keeps the requests, and gives no events, or those of the answer for the
purpose of its request. -/
theorem receive_cases {session after : Session Purpose} {index : Nat} {answer : Table}
    {notices : List (Notice Purpose)}
    (received : session.receive index answer = .ok (after, notices)) :
    after.requests = session.requests ∧
      ((∀ purpose event, .event purpose event ∉ notices) ∨
        ∃ (purpose : Purpose) (words statuses : List String),
          (session.requests[index]?).map (·.2) = some (.work purpose) ∧
          Event.statuses answer = .ok words ∧ notices = (Event.goingOn answer ++
            if words.contains Event.doneStatus then [Event.completed statuses (answer.get "id")]
            else []).map (Notice.event purpose)) := by
  cases found : session.talks[index]? with
  | none =>
    rw [Session.receive, found] at received
    cases received
    exact ⟨rfl, .inl fun _ _ => List.not_mem_nil⟩
  | some talk =>
    cases topic : talk.topic with
    | identity wanted =>
      simp only [Session.receive, found, topic] at received
      split at received <;> cases received
      · exact ⟨rfl, .inl fun _ _ told => by cases wanted <;> simp at told⟩
      · exact ⟨rfl, .inl fun _ _ => List.not_mem_nil⟩
    | work purpose =>
      have request : (session.requests[index]?).map (·.2) = some (.work purpose) := by
        simp [Session.requests, found, topic]
      cases read : Event.statuses answer with
      | error fault =>
        simp only [Session.receive, found, topic, read, bind, Except.bind] at received
        cases received
      | ok words =>
        obtain ⟨session, statuses, same, requests, _⟩ := receive_work found topic read
        cases same.symm.trans received
        exact ⟨requests, .inr ⟨purpose, words, statuses, request, rfl, rfl⟩⟩

/-- What answers to one request may change of what runs, by whether they have ended it. -/
structure Tracking.Moved (name : String) (ended : Bool) (before after : Tracking) : Prop where
  /-- The session keeps its requests. -/
  requests : after.session.requests = before.session.requests
  /-- No request is numbered. -/
  count : after.session.count = before.session.count
  /-- Sending goes on. -/
  sending : after.sending = before.sending
  /-- The transcript keeps as many entries as before. -/
  limit : after.limit = before.limit
  /-- Nothing is sent. -/
  messages : after.messages = before.messages
  /-- A request that has ended is no longer pending. -/
  pending : after.pending =
    if ended = true ∧ before.pending = some name then none else before.pending
  /-- The end is remembered while a request is being sent. -/
  endedEarly : name ∈ after.endedEarly ↔
    name ∈ before.endedEarly ∨ (ended = true ∧ before.sending = true)

/-- Without answers nothing changes. -/
theorem Tracking.Moved.refl (name : String) (tracking : Tracking) :
    Moved name false tracking tracking :=
  ⟨rfl, rfl, rfl, rfl, rfl, by simp, by simp⟩

/-- A request has ended when one of its answers has ended it. -/
theorem Tracking.Moved.trans {name : String} {first second : Bool} {before middle after : Tracking}
    (one : Moved name first before middle) (two : Moved name second middle after) :
    Moved name (first || second) before after := by
  refine ⟨two.requests.trans one.requests, two.count.trans one.count,
    two.sending.trans one.sending, two.limit.trans one.limit, two.messages.trans one.messages,
    ?_, ?_⟩
  · rw [two.pending, one.pending]
    cases first <;> cases second <;> by_cases own : before.pending = some name <;> simp [own]
  · rw [two.endedEarly, one.endedEarly, one.sending]
    cases first <;> cases second <;> simp

/-- An answer to a request that is heard changes what runs only by the end of the request, if it
tells it. -/
theorem tracking_hear_work (disk : Disk) {index : Nat} {engine : Engine} {talk : Talk Purpose}
    {purpose : Purpose} {answer : Table} {words : List String} (change : Tracking → Tracking)
    (known : engine.session.talks[index]? = some talk) (topic : talk.topic = .work purpose)
    (heard : purpose ≠ .unheard) (read : Event.statuses answer = .ok words)
    (ends : ∀ (now : Engine) statuses, ∃ after,
      now.perform (complete statuses (answer.get "id")) = (after, .ok ()) ∧
        after.tracking = change now.tracking) :
    ∃ session : Session Purpose, session.requests = engine.session.requests ∧
      session.count = engine.session.count ∧ (hear disk index engine answer).2 = none ∧
      (hear disk index engine answer).1.tracking =
        if words.contains Event.doneStatus then change { engine.tracking with session }
        else { engine.tracking with session } := by
  obtain ⟨session, statuses, received, requests, count⟩ := receive_work known topic read
  have going := tracking_takeNotices disk purpose (@Event.isEnd_of_mem_goingOn answer)
    { engine with session }
  refine ⟨session, requests, count, by simp only [hear, received], ?_⟩
  simp only [hear, received, List.map_append, List.foldl_append]
  split
  · obtain ⟨after, done, changed⟩ := ends _ statuses
    rw [List.map_cons, List.map_nil, List.foldl_cons, List.foldl_nil, takeNotice_heard disk heard,
      tracking_reporting, tracking_purposeEvent_end disk heard, done, changed, going]
    rfl
  · rw [List.map_nil, List.foldl_nil, going]
    rfl

end Engine
end EvalDesk
