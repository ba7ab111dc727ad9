import EvalDesk.Proofs.Engine.Diagnostics
import EvalDesk.Proofs.Engine.Steps

/-!
# What happens to the engine

Two things happen to the engine: a message is sent, and an event comes back for a request. They are
listed in order, each with the engine at that moment. The news is what they change of the
namespaces, the documentation, the definition and the requests; between two happenings there is no
news. So whatever of this depends on the order of what happens is found by going through the list.
-/
namespace EvalDesk

/-- A message that is sent. -/
structure Sending where
  /-- The engine that sends it. -/
  engine : Engine
  /-- The message. -/
  message : Message
  /-- What it is for. -/
  topic : Topic Purpose

/-- The place of its request among the requests. -/
def Sending.request (sending : Sending) : Nat := sending.engine.session.talks.length

/-- The engine when the message was recorded. -/
def Sending.after (sending : Sending) : Engine :=
  sending.engine.recorded sending.message sending.topic

/-- An event that comes back for a request. -/
structure Hearing where
  /-- The place of the request among the requests. -/
  request : Nat
  /-- What the request was for. -/
  purpose : Purpose
  /-- The event. -/
  event : Event
  /-- The file tree in which sources are looked for. -/
  disk : Disk
  /-- The engine to which it comes back. -/
  engine : Engine

/-- The engine when the event was taken. -/
def Hearing.after (hearing : Hearing) : Engine :=
  Engine.takeNotice hearing.disk hearing.engine (.event hearing.purpose hearing.event)

/-- Something that happens in a run. -/
inductive Happening where
  /-- A message is sent. -/
  | sent (sending : Sending)
  /-- An event comes back. -/
  | heard (hearing : Hearing)

/-- What is sent, if a message is. -/
def Happening.sending? : Happening → Option Sending
  | .sent sending => some sending
  | .heard _ => none

/-- What comes back, if an event does. -/
def Happening.hearing? : Happening → Option Hearing
  | .sent _ => none
  | .heard hearing => some hearing

/-- The message that is sent, if one is. -/
def Happening.message? (happening : Happening) : Option Message :=
  happening.sending?.map (·.message)

/-- Something that happened stands between what happened before it and what happened behind it. -/
theorem split_at {happened : List Happening} {index : Nat} {happening : Happening}
    (found : happened[index]? = some happening) :
    happened = happened.take index ++ happening :: happened.drop (index + 1) := by
  obtain ⟨inside, rfl⟩ := List.getElem?_eq_some_iff.mp found
  rw [List.getElem_cons_drop, List.take_append_drop]

/-- A message that was sent stands between what happened before it and behind it. -/
theorem split_at_sending {happened : List Happening} {index : Nat} {sending : Sending}
    (found : happened[index]?.bind Happening.sending? = some sending) :
    happened = happened.take index ++ .sent sending :: happened.drop (index + 1) := by
  obtain ⟨happening, there, same⟩ := Option.bind_eq_some_iff.mp found
  cases happening with
  | sent other =>
    cases same
    exact split_at there
  | heard hearing => contradiction

/-- An event that came back stands between what happened before it and behind it. -/
theorem split_at_hearing {happened : List Happening} {index : Nat} {hearing : Hearing}
    (found : happened[index]?.bind Happening.hearing? = some hearing) :
    happened = happened.take index ++ .heard hearing :: happened.drop (index + 1) := by
  obtain ⟨happening, there, same⟩ := Option.bind_eq_some_iff.mp found
  cases happening with
  | sent sending => contradiction
  | heard other =>
    cases same
    exact split_at there

/-- What is known by what happened. -/
structure News where
  /-- The namespace of the session. -/
  sessionNs : Datum
  /-- The requests that were sent. -/
  requests : List (Datum × Topic Purpose)
  /-- The namespace that is shown. -/
  ns : Datum
  /-- The documentation that is shown. -/
  documentation : String
  /-- The definition that is known. -/
  definition : Option Definition
  /-- The messages that were sent. -/
  messages : List Message

/-- Before documentation or a definition is asked for, the one before is forgotten. -/
def News.cleared (news : News) : Topic Purpose → News
  | .work (.documentation _) => { news with documentation := "" }
  | .work (.definition _) => { news with definition := none }
  | .work (.evaluation _) | .work .unheard | .identity _ => news

/-- Nothing else is forgotten. -/
theorem News.exists_cleared (news : News) (topic : Topic Purpose) :
    ∃ documentation definition, news.cleared topic = { news with documentation, definition } := by
  cases topic with
  | identity told => exact ⟨_, _, rfl⟩
  | work purpose => cases purpose <;> exact ⟨_, _, rfl⟩

/-- Before an event is taken, the session has followed its namespace. -/
def News.followed (news : News) (event : Event) : News :=
  { news with sessionNs := Session.nsAfter news.sessionNs event }

namespace Engine

/-- What is known by what happened. -/
def news (engine : Engine) : News :=
  ⟨engine.session.ns, engine.session.requests, engine.state.ns, engine.state.documentation,
    engine.state.definition, engine.messages⟩

/-- What happens from one engine to another, in order; between the happenings there is no news. -/
inductive Unfolds : Engine → List Happening → Engine → Prop where
  /-- Nothing happens. -/
  | quiet {before after : Engine} : after.news = before.news → Unfolds before [] after
  /-- First a message is sent. -/
  | sent {before after : Engine} {rest : List Happening} (sending : Sending) :
    sending.engine.news = before.news.cleared sending.topic →
    Unfolds sending.after rest after → Unfolds before (.sent sending :: rest) after
  /-- First an event comes back, for a request that was sent. -/
  | heard {before after : Engine} {rest : List Happening} (hearing : Hearing) :
    (before.session.requests[hearing.request]?).map (·.2) = some (.work hearing.purpose) →
    hearing.engine.news = before.news.followed hearing.event →
    Unfolds hearing.after rest after → Unfolds before (.heard hearing :: rest) after

namespace Unfolds

variable {first before middle after : Engine} {earlier later : List Happening}

/-- What happens next depends only on the news. -/
theorem of_news (unfolds : Unfolds before later after) (same : before.news = first.news) :
    Unfolds first later after := by
  cases unfolds with
  | quiet kept => exact .quiet (kept.trans same)
  | sent sending prepared rest => exact .sent sending (same ▸ prepared) rest
  | heard hearing own followed rest =>
    have requests : before.session.requests = first.session.requests :=
      congrArg News.requests same
    exact .heard hearing (requests ▸ own) (same ▸ followed) rest

/-- One part after another. -/
theorem trans (one : Unfolds before earlier middle) (other : Unfolds middle later after) :
    Unfolds before (earlier ++ later) after := by
  induction one with
  | quiet kept => exact other.of_news kept
  | sent sending prepared _ ih => exact .sent sending prepared (ih other)
  | heard hearing own followed _ ih => exact .heard hearing own followed (ih other)

/-- What happens in two parts happens from an engine between them. -/
theorem exists_middle (unfolds : Unfolds before (earlier ++ later) after) :
    ∃ middle, Unfolds before earlier middle ∧ Unfolds middle later after := by
  induction earlier generalizing before with
  | nil => exact ⟨before, .quiet rfl, unfolds⟩
  | cons happening rest ih =>
    cases unfolds with
    | sent sending prepared unfolds =>
      obtain ⟨middle, one, other⟩ := ih unfolds
      exact ⟨middle, .sent sending prepared one, other⟩
    | heard hearing own followed unfolds =>
      obtain ⟨middle, one, other⟩ := ih unfolds
      exact ⟨middle, .heard hearing own followed one, other⟩

end Unfolds

/-! ## Events and answers -/

/-- Telling the view sends nothing. -/
theorem messages_notify (engine : Engine) : engine.notify.messages = engine.messages :=
  congrArg Tracking.messages (tracking_notify engine)

/-- Telling the view is no news. -/
theorem news_notify (engine : Engine) : engine.notify.news = engine.news := by
  simp only [news, messages_notify]
  rfl

/-- What reports a failure is the news of the action. -/
theorem news_reporting (engine : Engine) (action : Action Unit) :
    (engine.reporting action).news = (engine.perform action).1.news := by
  rw [reporting]
  cases engine.perform action with
  | mk after result => cases result <;> exact news_notify _

/-- What comes back is the news of its event. -/
theorem news_after (hearing : Hearing) : hearing.after.news =
    (hearing.engine.perform
      (purposeEvent hearing.disk hearing.purpose hearing.event)).1.news := by
  by_cases heard : hearing.purpose = .unheard
  · rw [Hearing.after, heard]
    rfl
  · rw [Hearing.after, takeNotice_heard hearing.disk heard]
    exact news_reporting hearing.engine _

/-- A message that is sent is one more request and one more message. -/
theorem news_sent (sending : Sending) : sending.after.news = { sending.engine.news with
    requests := sending.engine.session.requests ++ [(sending.message.get "id", sending.topic)]
    messages := sending.engine.messages ++ [sending.message] } := by
  have requests : sending.after.session.requests = sending.engine.session.requests ++
      [(sending.message.get "id", sending.topic)] := Session.requests_record _ _ _
  have sent : sending.after.messages = sending.engine.messages ++ [sending.message] := by
    simp [messages, Sending.after, recorded, emit, Effect.message?]
  rw [news, requests, sent]
  rfl

/-- What comes back sends nothing. -/
theorem messages_after (hearing : Hearing) :
    hearing.after.messages = hearing.engine.messages := by
  have keeps : Keeps messages (purposeEvent hearing.disk hearing.purpose hearing.event) :=
    @purposeEvent_keeps_part _ Tracking.messages (fun _ _ _ => rfl) _ _ _
  exact (congrArg News.messages (news_after hearing)).trans (keeps hearing.engine)

/-- What comes back leaves the session alone once the session has followed it. -/
theorem session_after (hearing : Hearing) : hearing.after.session = hearing.engine.session :=
  session_takeNotice _ _ _

/-- The end of a request with an identity can be taken: while a request is being sent, the identity
has to be a key. -/
def remembers (engine : Engine) (id : Datum) : Bool :=
  !engine.sending || match id with
    | .list _ | .table _ => false
    | _ => true

/-- The end of a request is remembered while one is being sent, unless it cannot be. -/
theorem rememberEnd_cases (engine : Engine) (id : Datum) :
    (engine.remembers id = true ∧ ∃ endedEarly,
        engine.perform (rememberEnd id) = ({ engine with endedEarly }, .ok ())) ∨
      (engine.remembers id = false ∧ ∃ fault,
        engine.perform (rememberEnd id) = (engine, .error fault)) := by
  unfold rememberEnd
  rw [perform_bind, perform_get]
  dsimp only
  by_cases sending : engine.sending = true
  · rw [if_pos sending]
    cases id with
    | text name => exact .inl ⟨by simp [remembers], engine.endedEarly ++ [name], rfl⟩
    | list items => exact .inr ⟨by simp [remembers, sending], _, rfl⟩
    | table entries => exact .inr ⟨by simp [remembers, sending], _, rfl⟩
    | null | bool | integer | real | bytes =>
      exact .inl ⟨by simp [remembers], engine.endedEarly, rfl⟩
  · rw [if_neg sending]
    exact .inl ⟨by simp [remembers, sending], engine.endedEarly, rfl⟩

/-- At the end of a request the namespace of the session is shown and the status tells the end. When
the end cannot be remembered, nothing changes. -/
theorem complete_cases (engine : Engine) (statuses : List String) (id : Datum) :
    (engine.remembers id = true ∧ ∃ endedEarly pending,
        engine.perform (complete statuses id) =
          ({ engine with endedEarly }.withState fun state =>
            { state with pending, ns := engine.session.ns, status := endStatus statuses },
            .ok ())) ∨
      (engine.remembers id = false ∧ ∃ fault,
        engine.perform (complete statuses id) = (engine, .error fault)) := by
  rw [complete, perform_bind]
  rcases rememberEnd_cases engine id with ⟨can, endedEarly, done⟩ | ⟨cannot, fault, failed⟩
  · rw [done]
    exact .inl ⟨can, endedEarly, _, rfl⟩
  · rw [failed]
    exact .inr ⟨cannot, fault, rfl⟩

/-- Something is noted of all that happens, and agrees with the news as long as each happening by
itself keeps it so. -/
structure Accounts {σ : Type} (agrees : News → σ → Prop) (note : σ → Happening → σ) : Prop where
  /-- A message that is sent. -/
  sent : ∀ {before : News} {sending : Sending} {noted : σ},
    sending.engine.news = before.cleared sending.topic → agrees before noted →
      agrees sending.after.news (note noted (.sent sending))
  /-- An event that comes back. -/
  heard : ∀ {before : News} {hearing : Hearing} {noted : σ},
    hearing.engine.news = before.followed hearing.event → agrees before noted →
      agrees hearing.after.news (note noted (.heard hearing))

/-- What is noted of all that happens agrees with the news at the end. -/
theorem Accounts.foldl {σ : Type} {agrees : News → σ → Prop} {note : σ → Happening → σ}
    (accounts : Accounts agrees note) {before after : Engine} {happened : List Happening}
    (unfolds : Unfolds before happened after) {noted : σ} (agree : agrees before.news noted) :
    agrees after.news (happened.foldl note noted) := by
  induction unfolds generalizing noted with
  | quiet kept => exact kept ▸ agree
  | sent sending prepared _ ih => exact ih (accounts.sent prepared agree)
  | heard hearing _ followed _ ih => exact ih (accounts.heard followed agree)

/-- The messages that were sent are those among what happened. -/
theorem Unfolds.messages {before after : Engine} {happened : List Happening}
    (unfolds : Unfolds before happened after) :
    after.messages = before.messages ++ happened.filterMap Happening.message? := by
  induction unfolds with
  | quiet kept => rw [List.filterMap_nil, List.append_nil]; exact congrArg News.messages kept
  | @sent before after rest sending prepared _ ih =>
    have sent : sending.after.messages = sending.engine.messages ++ [sending.message] :=
      congrArg News.messages (news_sent sending)
    have same : sending.engine.messages = before.messages := by
      obtain ⟨documentation, definition, cleared⟩ := before.news.exists_cleared sending.topic
      exact congrArg News.messages (prepared.trans cleared)
    rw [ih, sent, same, List.append_assoc]
    rfl
  | heard hearing _ followed _ ih =>
    have same : hearing.engine.messages = _ := congrArg News.messages followed
    rw [ih, messages_after, same]
    rfl

/-- The events among notices of a request, each with the engine that takes it. -/
def hearingsAmong (disk : Disk) (index : Nat) : Engine → List (Notice Purpose) → List Happening
  | _, [] => []
  | engine, notice :: rest =>
    let others := hearingsAmong disk index (takeNotice disk engine notice) rest
    match notice with
    | .ready _ => others
    | .event purpose event => .heard ⟨index, purpose, event, disk, engine⟩ :: others

/-- The events of answers to a request, as they are heard. -/
def hearingsAll (disk : Disk) (index : Nat) : Engine → List Table → List Happening
  | _, [] => []
  | engine, answer :: rest =>
    match engine.session.receive index answer with
    | .error _ => []
    | .ok (session, notices) =>
      hearingsAmong disk index { engine with session } notices ++
        hearingsAll disk index (notices.foldl (takeNotice disk) { engine with session }) rest

end Engine

/-- The event is a value. -/
def Event.isValue : Event → Bool
  | .value .. => true
  | _ => false

/-- At most the first of the events that go on is a value. -/
theorem Event.goingOn_split (answer : Table) :
    ∃ (value : Option Event) (rest : List Event), goingOn answer = value.toList ++ rest ∧
      ∀ event ∈ rest, event.isValue = false := by
  refine ⟨_, _, List.append_assoc .., fun event member => ?_⟩
  simp only [List.mem_append, Option.mem_toList, Option.map_eq_some_iff] at member
  rcases member with ⟨_, _, rfl⟩ | ⟨_, _, rfl⟩ <;> rfl

/-- Events that are no values leave the namespace as it is. -/
theorem Session.foldl_nsAfter {events : List Event}
    (quiet : ∀ event ∈ events, event.isValue = false) (ns : Datum) :
    events.foldl nsAfter ns = ns := by
  induction events with
  | nil => rfl
  | cons event rest ih =>
    have own := quiet event (.head _)
    have same : nsAfter ns event = ns := by
      cases event <;> first | rfl | contradiction
    rw [List.foldl_cons, same]
    exact ih fun other member => quiet other (.tail _ member)

/-- The event in a notice, if it is one. -/
def Notice.event? : Notice Purpose → Option Event
  | .ready _ => none
  | .event _ told => some told

/-- Events stay what they are under a purpose. -/
theorem Notice.filterMap_event? (purpose : Purpose) (events : List Event) :
    (events.map (Notice.event purpose)).filterMap event? = events := by
  rw [List.filterMap_map]
  show events.filterMap some = events
  exact List.filterMap_some

/-- A session that takes an answer follows the namespace of its events. -/
theorem Session.ns_of_receive {session after : Session Purpose} {index : Nat} {answer : Table}
    {notices : List (Notice Purpose)}
    (received : session.receive index answer = .ok (after, notices)) :
    after.ns = (notices.filterMap Notice.event?).foldl nsAfter session.ns := by
  cases found : session.talks[index]? with
  | none =>
    rw [receive, found] at received
    cases received
    rfl
  | some talk =>
    cases topic : talk.topic with
    | identity wanted =>
      simp only [receive, found, topic] at received
      split at received <;> cases received <;> cases wanted <;> rfl
    | work purpose =>
      cases read : Event.statuses answer with
      | error fault =>
        simp only [receive, found, topic, read, bind, Except.bind] at received
        cases received
      | ok words =>
        simp only [receive, found, topic, read, bind, Except.bind, pure, Except.pure] at received
        cases received
        rw [Notice.filterMap_event?]

namespace Engine

/-- What a session takes and gives is no news without events. -/
theorem news_with_session {engine : Engine} {session : Session Purpose}
    (ns : session.ns = engine.session.ns) (requests : session.requests = engine.session.requests) :
    { engine with session }.news = engine.news := by
  simp only [news, ns, requests]
  rfl

/-- Events that are no values unfold one after another. -/
theorem unfolds_quietly {disk : Disk} {index : Nat} {purpose : Purpose} {events : List Event}
    (quiet : ∀ event ∈ events, event.isValue = false) {engine : Engine}
    (own : (engine.session.requests[index]?).map (·.2) = some (.work purpose)) :
    Unfolds engine (hearingsAmong disk index engine (events.map (Notice.event purpose)))
      ((events.map (Notice.event purpose)).foldl (takeNotice disk) engine) := by
  induction events generalizing engine with
  | nil => exact .quiet rfl
  | cons event rest ih =>
    let hearing : Hearing := ⟨index, purpose, event, disk, engine⟩
    have followed : engine.news = engine.news.followed event := by
      have same : Session.nsAfter engine.session.ns event = engine.session.ns :=
        @Session.foldl_nsAfter [event] (fun other member => by
          rw [List.mem_singleton.mp member]
          exact quiet event (.head _)) _
      simp only [News.followed, news, same]
    refine .heard hearing own followed (ih (fun other member => quiet other (.tail _ member)) ?_)
    rw [session_after hearing]
    exact own

/-- Notices without events are no news. -/
theorem unfolds_silently {disk : Disk} {index : Nat} {notices : List (Notice Purpose)}
    (silent : ∀ purpose event, .event purpose event ∉ notices) (engine : Engine) :
    Unfolds engine (hearingsAmong disk index engine notices)
      (notices.foldl (takeNotice disk) engine) := by
  induction notices generalizing engine with
  | nil => exact .quiet rfl
  | cons notice rest ih =>
    cases notice with
    | event purpose event => exact absurd (.head _) (silent purpose event)
    | ready identity =>
      have unfolds := ih (fun purpose event member => silent purpose event (.tail _ member))
        (takeNotice disk engine (.ready identity))
      exact unfolds.of_news (news_notify _)

/-- The events of an answer unfold one after another. -/
theorem unfolds_receive (disk : Disk) {index : Nat} {engine : Engine} {answer : Table}
    {session : Session Purpose} {notices : List (Notice Purpose)}
    (received : engine.session.receive index answer = .ok (session, notices)) :
    Unfolds engine (hearingsAmong disk index { engine with session } notices)
      (notices.foldl (takeNotice disk) { engine with session }) := by
  have ns := Session.ns_of_receive received
  obtain ⟨requests, silent | ⟨purpose, words, statuses, own, _, rfl⟩⟩ := receive_cases received
  · have nothing : notices.filterMap Notice.event? = [] := by
      refine List.filterMap_eq_nil_iff.mpr fun notice member => ?_
      cases notice with
      | ready identity => rfl
      | event purpose event => exact absurd member (silent purpose event)
    rw [nothing] at ns
    exact (unfolds_silently silent _).of_news (news_with_session ns requests)
  · rw [Notice.filterMap_event?] at ns
    obtain ⟨value, rest, split, going⟩ := Event.goingOn_split answer
    let ending := if words.contains Event.doneStatus then
      [Event.completed statuses (answer.get "id")] else []
    have quiet : ∀ event ∈ rest ++ ending, event.isValue = false := by
      intro event member
      rcases List.mem_append.mp member with earlier | last
      · exact going event earlier
      · simp only [ending] at last
        split at last
        · rw [List.mem_singleton.mp last]
          rfl
        · contradiction
    have known : (session.requests[index]?).map (·.2) = some (.work purpose) := by
      rw [requests]
      exact own
    have all : Event.goingOn answer ++ ending = value.toList ++ (rest ++ ending) := by
      rw [split, List.append_assoc]
    rw [all] at ns ⊢
    cases value with
    | none =>
      rw [Option.toList_none, List.nil_append] at ns ⊢
      rw [Session.foldl_nsAfter quiet] at ns
      exact (unfolds_quietly quiet known).of_news (news_with_session ns requests)
    | some event =>
      rw [Option.toList_some, List.singleton_append, List.foldl_cons,
        Session.foldl_nsAfter quiet] at ns
      rw [Option.toList_some, List.singleton_append]
      let hearing : Hearing := ⟨index, purpose, event, disk, { engine with session }⟩
      have followed : hearing.engine.news = engine.news.followed event := by
        simp only [hearing, news, News.followed, ns, requests]
        rfl
      refine .heard hearing own followed (unfolds_quietly quiet ?_)
      rw [session_after hearing]
      exact known

/-- Answers unfold as they are heard. -/
theorem unfolds_hearAll (disk : Disk) (index : Nat) (answers : List Table) (engine : Engine) :
    Unfolds engine (hearingsAll disk index engine answers)
      (hearAll (hear disk index) engine answers).1 := by
  induction answers generalizing engine with
  | nil => exact .quiet rfl
  | cons answer rest ih =>
    rw [hearingsAll, hearAll, hear]
    cases received : engine.session.receive index answer with
    | error fault => exact .quiet rfl
    | ok result =>
      obtain ⟨session, notices⟩ := result
      exact (unfolds_receive disk received).trans (ih _)

/-- Notices send nothing. -/
theorem not_sent_mem_hearingsAmong {disk : Disk} {index : Nat} {engine : Engine}
    {notices : List (Notice Purpose)} {sending : Sending} :
    .sent sending ∉ hearingsAmong disk index engine notices := by
  induction notices generalizing engine with
  | nil => exact List.not_mem_nil
  | cons notice rest ih =>
    intro member
    cases notice with
    | ready identity => exact ih member
    | event purpose event =>
      rcases List.mem_cons.mp member with first | later
      · cases first
      · exact ih later

/-- Answers send nothing. -/
theorem not_sent_mem_hearingsAll {disk : Disk} {index : Nat} {engine : Engine}
    {answers : List Table} {sending : Sending} :
    .sent sending ∉ hearingsAll disk index engine answers := by
  induction answers generalizing engine with
  | nil => exact List.not_mem_nil
  | cons answer rest ih =>
    intro member
    rw [hearingsAll] at member
    split at member
    · contradiction
    · rcases List.mem_append.mp member with first | later
      · exact not_sent_mem_hearingsAmong first
      · exact ih later

/-- An event that comes back among notices is one of them, for their request. -/
theorem heard_of_mem_hearingsAmong {disk : Disk} {index : Nat} {engine : Engine}
    {notices : List (Notice Purpose)} {hearing : Hearing}
    (member : .heard hearing ∈ hearingsAmong disk index engine notices) :
    hearing.request = index ∧ .event hearing.purpose hearing.event ∈ notices := by
  induction notices generalizing engine with
  | nil => contradiction
  | cons notice rest ih =>
    cases notice with
    | ready identity =>
      obtain ⟨own, later⟩ := ih member
      exact ⟨own, .tail _ later⟩
    | event purpose event =>
      rcases List.mem_cons.mp member with first | later
      · cases first
        exact ⟨rfl, .head _⟩
      · obtain ⟨own, listed⟩ := ih later
        exact ⟨own, .tail _ listed⟩

/-- An end that comes back with answers is for their request and carries what one of them does. -/
theorem heard_of_mem_hearingsAll {disk : Disk} {index : Nat} {engine : Engine}
    {answers : List Table} {hearing : Hearing}
    (member : .heard hearing ∈ hearingsAll disk index engine answers) :
    hearing.request = index ∧ ∀ statuses id, hearing.event = .completed statuses id →
      ∃ answer ∈ answers, answer.get "id" = id := by
  induction answers generalizing engine with
  | nil => contradiction
  | cons answer rest ih =>
    rw [hearingsAll] at member
    split at member
    · contradiction
    · rename_i session notices received
      rcases List.mem_append.mp member with first | later
      · obtain ⟨own, told⟩ := heard_of_mem_hearingsAmong first
        refine ⟨own, fun statuses id ends => ⟨answer, .head _, ?_⟩⟩
        rw [ends] at told
        rcases (receive_cases received).2 with silent | ⟨purpose, words, gathered, _, _, rfl⟩
        · exact absurd told (silent _ _)
        · obtain ⟨event, listed, same⟩ := List.mem_map.mp told
          cases same
          rcases List.mem_append.mp listed with going | ending
          · have goes_on := Event.isEnd_of_mem_goingOn _ going
            contradiction
          · split at ending
            · cases List.mem_singleton.mp ending
              rfl
            · contradiction
      · obtain ⟨own, carries⟩ := ih later
        refine ⟨own, fun statuses id ends => ?_⟩
        obtain ⟨other, listed, same⟩ := carries statuses id ends
        exact ⟨other, .tail _ listed, same⟩

end Engine
end EvalDesk
