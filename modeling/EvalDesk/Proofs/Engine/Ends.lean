import EvalDesk.Proofs.Engine.Numbering

/-!
# The ends of requests, and what is pending

One field tells which request is pending, and every end of a request that is heard may clear it,
whichever request it is an answer to: the identity that the answer carries decides, and an answer
that carries none clears it as well. A message that is lost clears it too. What an order makes of a
pending request is found from the ends that are heard by it and from what becomes of its message.
-/
namespace EvalDesk

/-- The identity that the end of a request carries, if one comes back and is heard. -/
def Happening.ended? : Happening → Option Datum
  | .sent _ => none
  | .heard hearing =>
    match hearing.purpose, hearing.event with
    | .unheard, _ => none
    | _, .completed _ id => some id
    | _, _ => none

/-- The identities that the ends of requests carry among what happens, in order. -/
def endedAmong (happened : List Happening) : List Datum := happened.filterMap Happening.ended?

/-- None of the ends of requests ends what is pending under a name. -/
def Outlasts (name : String) (ends : List Datum) : Prop :=
  ∀ id ∈ ends, Engine.endsPending (some name) id = false

/-- The ends of two parts are outlasted when those of both are. -/
theorem outlasts_append (name : String) (earlier later : List Datum) :
    Outlasts name (earlier ++ later) ↔ Outlasts name earlier ∧ Outlasts name later := by
  simp only [Outlasts, List.mem_append, or_imp, forall_and]

namespace Engine

/-- What some ends of requests make of what is pending under a name. -/
structure Tracking.Ended (name : String) (ends : List Datum) (before after : Tracking) : Prop where
  /-- Sending goes on. -/
  sending : after.sending = before.sending
  /-- It is pending if it was before and outlasts the ends. -/
  pending : after.pending = some name ↔ before.pending = some name ∧ Outlasts name ends
  /-- Its end is remembered while a request is being sent. -/
  endedEarly : name ∈ after.endedEarly ↔
    name ∈ before.endedEarly ∨ (before.sending = true ∧ .text name ∈ ends)

namespace Tracking.Ended

variable {name : String} {before middle after : Tracking} {earlier later : List Datum}

/-- Without an end nothing changes. -/
theorem of_eq (same : after = before) : Ended name [] before after := by
  subst same
  exact ⟨rfl, by simp [Outlasts], by simp⟩

/-- Some ends after others. -/
theorem trans (one : Ended name earlier before middle) (other : Ended name later middle after) :
    Ended name (earlier ++ later) before after := by
  refine ⟨other.sending.trans one.sending, ?_, ?_⟩
  · rw [other.pending, one.pending, outlasts_append, and_assoc]
  · rw [other.endedEarly, one.endedEarly, one.sending, List.mem_append, or_assoc, ← and_or_left]

end Tracking.Ended

/-- The end of a request that carries something else than a name changes nothing of what runs. -/
theorem tracking_complete_foreign (engine : Engine) (statuses : List String) {id : Datum}
    (named : id ≠ .null) (unnamed : id.text? = none) :
    (engine.perform (complete statuses id)).1.tracking = engine.tracking := by
  unfold complete rememberEnd
  simp only [perform_bind, perform_get]
  by_cases sending : engine.sending = true
  · rw [if_pos sending]
    cases id <;> first | rfl | contradiction
  · rw [if_neg sending]
    cases id <;> first | rfl | contradiction

/-- What the end of a request makes of what is pending. -/
theorem ended_complete (name : String) (engine : Engine) (statuses : List String) (id : Datum) :
    Tracking.Ended name [id] engine.tracking
      (engine.perform (complete statuses id)).1.tracking := by
  have foreign : id ≠ .null → id.text? = none → Tracking.Ended name [id] engine.tracking
      (engine.perform (complete statuses id)).1.tracking := by
    intro named unnamed
    rw [tracking_complete_foreign engine statuses named unnamed]
    have apart : endsPending (some name) id = false := by
      cases id <;> first | rfl | contradiction
    have other : Datum.text name ≠ id := by
      rintro rfl
      contradiction
    exact ⟨rfl, by simp [Outlasts, apart], by simp [other]⟩
  cases id with
  | text word =>
    obtain ⟨after, done, same⟩ := perform_complete engine statuses word
    rw [done, same]
    refine ⟨rfl, ?_, ?_⟩
    · have outlasts : Outlasts name [.text word] ↔ name ≠ word := by simp [Outlasts, endsPending]
      show (if engine.state.pending = some word then none else engine.state.pending) = some name ↔
        engine.state.pending = some name ∧ Outlasts name [.text word]
      rw [outlasts]
      by_cases own : engine.state.pending = some word
      · simp [own, eq_comm]
      · rw [if_neg own]
        exact ⟨fun waits => ⟨waits, fun same => own (same ▸ waits)⟩, And.left⟩
    · by_cases sending : engine.sending = true <;>
        simp [Tracking.ended, tracking, sending]
  | null =>
    obtain ⟨after, done, same⟩ := perform_complete_nameless engine statuses
    rw [done, same]
    exact ⟨rfl, by simp [Outlasts, endsPending], by simp [tracking]⟩
  | bool | integer | real | bytes | list | table => exact foreign (by simp) rfl

/-- What an event that comes back makes of what is pending. -/
theorem ended_after (name : String) (hearing : Hearing) :
    Tracking.Ended name (Happening.ended? (.heard hearing)).toList hearing.engine.tracking
      hearing.after.tracking := by
  obtain ⟨request, purpose, event, disk, engine⟩ := hearing
  by_cases heard : purpose = .unheard
  · subst heard
    exact .of_eq rfl
  · have taken : (takeNotice disk engine (.event purpose event)).tracking =
        (engine.perform (purposeEvent disk purpose event)).1.tracking := by
      rw [takeNotice_heard disk heard, tracking_reporting]
    rw [Hearing.after, taken]
    cases event with
    | completed statuses id =>
      have tells : Happening.ended? (.heard ⟨request, purpose, .completed statuses id, disk,
          engine⟩) = some id := by
        cases purpose <;> first | rfl | contradiction
      rw [tells, tracking_purposeEvent_end disk heard]
      exact ended_complete name engine statuses id
    | value | output | errorOutput =>
      have quiet : ∀ event : Event, event.isEnd = false →
          Happening.ended? (.heard ⟨request, purpose, event, disk, engine⟩) = none := by
        intro event goes_on
        cases purpose <;> cases event <;> first | rfl | contradiction
      rw [quiet _ rfl, Option.toList_none]
      exact .of_eq (purposeEvent_keeps disk purpose rfl engine)

/-- What notices make of what is pending. -/
theorem ended_among (name : String) (disk : Disk) (index : Nat) (notices : List (Notice Purpose))
    (engine : Engine) :
    Tracking.Ended name (endedAmong (hearingsAmong disk index engine notices)) engine.tracking
      (notices.foldl (takeNotice disk) engine).tracking := by
  induction notices generalizing engine with
  | nil => exact .of_eq rfl
  | cons notice rest ih =>
    have later := ih (takeNotice disk engine notice)
    cases notice with
    | ready identity => exact (Tracking.Ended.of_eq (tracking_notify _)).trans later
    | event purpose event =>
      have both := (ended_after name ⟨index, purpose, event, disk, engine⟩).trans later
      rw [hearingsAmong, endedAmong, List.filterMap_cons]
      revert both
      cases Happening.ended? (.heard ⟨index, purpose, event, disk, engine⟩) <;> exact id

/-- What answers make of what is pending. -/
theorem ended_hearAll (name : String) (disk : Disk) (index : Nat) (answers : List Table)
    (engine : Engine) :
    Tracking.Ended name (endedAmong (hearingsAll disk index engine answers)) engine.tracking
      (hearAll (hear disk index) engine answers).1.tracking := by
  induction answers generalizing engine with
  | nil => exact .of_eq rfl
  | cons answer rest ih =>
    rw [hearingsAll, hearAll, hear]
    cases received : engine.session.receive index answer with
    | error fault => exact .of_eq rfl
    | ok result =>
      obtain ⟨session, notices⟩ := result
      rw [endedAmong, List.filterMap_append]
      obtain ⟨sending, pending, early⟩ := ended_among name disk index notices
        { engine with session }
      have first : Tracking.Ended name (endedAmong
          (hearingsAmong disk index { engine with session } notices)) engine.tracking
            (notices.foldl (takeNotice disk) { engine with session }).tracking :=
        ⟨sending, pending, early⟩
      exact first.trans (ih _)

/-- What a message and the answers to it that come back meanwhile make of what is pending. -/
theorem ended_send (name : String) (world : World) (sending : Sending) :
    Tracking.Ended name (endedAmong (sending.hearings world)) sending.engine.tracking
      (sending.engine.perform (send world sending.message sending.topic)).1.tracking := by
  have recorded : Tracking.Ended name [] sending.engine.tracking sending.after.tracking := by
    obtain ⟨sends, pending, early⟩ := @Tracking.Ended.of_eq name _ sending.engine.tracking rfl
    exact ⟨sends, pending, early⟩
  rw [perform_send_heard, Sending.hearings]
  cases (world.transport sending.message).refusal with
  | some fault => exact recorded
  | none => exact recorded.trans (ended_hearAll name world.disk sending.request _ sending.after)

/-! ## Orders -/

end Engine

/-- The engine when its message was sent, or was lost. -/
def Sending.left (world : World) (sending : Sending) : Engine :=
  (sending.engine.perform (Engine.send world sending.message sending.topic)).1

/-- Sending its message succeeds. -/
def Sending.arrives (world : World) (sending : Sending) : Bool :=
  (sending.engine.perform (Engine.send world sending.message sending.topic)).2.isOk

namespace Engine

variable {world : World} {engine : Engine} {order : Order} {sending : Sending}

/-- A message that arrives gives its number, and one that is lost fails. -/
theorem perform_send_cases (world : World) (sending : Sending) :
    (sending.arrives world = true ∧
        sending.engine.perform (send world sending.message sending.topic) =
          (sending.left world, .ok sending.engine.session.nextId)) ∨
      (sending.arrives world = false ∧ ∃ fault,
        sending.engine.perform (send world sending.message sending.topic) =
          (sending.left world, .error fault)) := by
  rw [Sending.arrives, Sending.left, perform_send_exchange]
  cases hearExchange (hear world.disk sending.engine.session.talks.length)
      { sending.engine.emit (.sent sending.message) with
        session := sending.engine.session.record sending.message sending.topic }
      (world.transport sending.message) with
  | mk after fault =>
    cases fault with
    | none => exact .inl ⟨rfl, rfl⟩
    | some fault => exact .inr ⟨rfl, fault, rfl⟩

/-- After a request it is pending if it is tracked and has not ended at once, and what was pending
else; nothing is when the message is lost. -/
theorem pending_dispatch (world : World) (op : String) (fields : Table) (purpose : Purpose)
    (tracked : Bool) (engine : Engine) :
    let sending := Sending.ofRequest engine op fields purpose
    (engine.dispatch world op fields purpose tracked).state.pending =
      if sending.arrives world then
        if tracked && !(sending.left world).endedEarly.contains sending.engine.session.nextId then
          some sending.engine.session.nextId
        else (sending.left world).state.pending
      else none := by
  intro sending
  let started := { engine with endedEarly := [], sending := true }
  let noting : Action Unit := do
    let id ← request world op fields purpose
    if tracked then
      modify fun engine =>
        if engine.endedEarly.contains id then engine
        else engine.withState fun state => { state with pending := some id }
  have told : (engine.dispatch world op fields purpose tracked).state.pending =
      (started.connected noting).state.pending := rfl
  have asked : started.perform (request world op fields purpose) =
      sending.engine.perform (send world sending.message sending.topic) :=
    perform_request started op fields purpose
  rw [told, connected, perform_bind, asked]
  rcases perform_send_cases world sending with ⟨arrives, done⟩ | ⟨lost, fault, failed⟩
  · rw [done, arrives, if_pos rfl]
    cases tracked with
    | false => rfl
    | true =>
      simp only [↓reduceIte, perform_modify, Bool.true_and]
      cases (sending.left world).endedEarly.contains sending.engine.session.nextId <;> rfl
  · rw [failed, lost]
    rfl

/-- After a message that needs the connection what is pending is left, unless the message is
lost. -/
theorem pending_connected {action : Action String} {change : Engine → Engine}
    (sends : engine.perform action =
      sending.engine.perform (send world sending.message sending.topic))
    (kept : ∀ now, (change now).state.pending = now.state.pending) :
    (engine.connected do
      discard action
      modify change).state.pending =
        if sending.arrives world then (sending.left world).state.pending else none := by
  rw [connected, perform_bind, perform_discard, sends]
  rcases perform_send_cases world sending with ⟨arrives, done⟩ | ⟨lost, fault, failed⟩
  · rw [done, arrives]
    exact kept _
  · rw [failed, lost]
    rfl

/-- After an order that sends a message and evaluates nothing, what is pending is left, unless the
message is lost. -/
theorem pending_of_question (evaluates : order.evaluates = false)
    (sends : engine.sending? world order = some sending) :
    (engine.obey world order).state.pending =
      if sending.arrives world then (sending.left world).state.pending else none := by
  cases order with
  | start =>
    have starts : Sending.ofStart? world engine = some sending := sends
    rw [Sending.ofStart?] at starts
    rw [obey, start_eq, perform_bind]
    cases done : engine.perform (loadSource world.disk) with
    | mk loaded result =>
      rw [done] at starts
      cases result with
      | error fault => contradiction
      | ok =>
        cases starts
        have watches : Keeps (·.state.pending) (do
            startWatching world.disk (← get).state.sourcePath
            modify notify) := by
          have apart := sourceless_tracking.part Tracking.pending
          refine keeps_bind keeps_get fun now => ?_
          exact keeps_bind (apart.keeps_startWatching world.disk _) fun _ =>
            keeps_modify fun _ => rfl
        exact (watches _).trans (pending_connected rfl fun _ => rfl)
  | documentation symbol =>
    cases sends
    exact pending_dispatch ..
  | definition symbol =>
    cases sends
    exact pending_dispatch ..
  | interrupt =>
    have stops : Sending.ofInterruption? engine = some sending := sends
    rcases interrupt_cases world engine with ⟨_, _, nothing⟩ | ⟨id, asked, found⟩
    · cases nothing.symm.trans stops
    · cases found.symm.trans stops
      rw [obey, asked]
      exact pending_connected (perform_request engine "interrupt" _ .unheard) fun _ => rfl
  | answered id answers => contradiction
  | _ => contradiction

/-- An order that evaluates nothing, brings no late answers and sends no message leaves what is
pending alone. -/
theorem pending_of_silence (evaluates : order.evaluates = false)
    (early : ∀ id answers, order ≠ .answered id answers)
    (silent : engine.sending? world order = none) :
    (engine.obey world order).state.pending = engine.state.pending := by
  cases order with
  | start =>
    have starts : Sending.ofStart? world engine = none := silent
    have kept := (sourceless_tracking.part Tracking.pending).keeps_loadSource world.disk engine
    rw [Sending.ofStart?] at starts
    rw [obey, start_eq, perform_bind]
    cases done : engine.perform (loadSource world.disk) with
    | mk loaded result =>
      rw [done] at kept starts
      cases result with
      | error fault => exact kept
      | ok => contradiction
  | interrupt =>
    have stops : Sending.ofInterruption? engine = none := silent
    rcases interrupt_cases world engine with ⟨status, shown, _⟩ | ⟨id, _, found⟩
    · rw [obey, shown]
      rfl
    · cases found.symm.trans stops
  | answered id answers => exact absurd rfl (early id answers)
  | _ => contradiction

/-- A message that is for no evaluation is sent with what was pending. -/
theorem pending_of_sending? (evaluates : order.evaluates = false)
    (sends : engine.sending? world order = some sending) :
    sending.engine.state.pending = engine.state.pending := by
  cases order with
  | start =>
    have starts : Sending.ofStart? world engine = some sending := sends
    have kept := (sourceless_tracking.part Tracking.pending).keeps_loadSource world.disk engine
    rw [Sending.ofStart?] at starts
    cases done : engine.perform (loadSource world.disk) with
    | mk loaded result =>
      rw [done] at kept starts
      cases result with
      | error fault => contradiction
      | ok =>
        cases starts
        exact kept
  | documentation symbol | definition symbol =>
    cases sends
    rfl
  | interrupt =>
    have stops : Sending.ofInterruption? engine = some sending := sends
    rcases interrupt_cases world engine with ⟨_, _, nothing⟩ | ⟨id, _, found⟩
    · cases nothing.symm.trans stops
    · cases found.symm.trans stops
      rfl
  | answered id answers => contradiction
  | _ => contradiction

/-- A message brings the ends that come back while it is sent. -/
theorem endedAmong_sent (world : World) (sending : Sending) :
    endedAmong (.sent sending :: sending.hearings world) = endedAmong (sending.hearings world) :=
  rfl

/-- What is pending outlasts an order that starts no evaluation exactly when its message, if it has
one, arrives and what comes back does not end it. -/
theorem pending_obey_iff (name : String) (idle : engine.evaluation? world order = none) :
    (engine.obey world order).state.pending = some name ↔
      engine.state.pending = some name ∧
        (∀ sending, engine.sending? world order = some sending → sending.arrives world = true) ∧
        Outlasts name (endedAmong (engine.happenings world order)) := by
  have nothing : (engine.obey world order).state.pending = engine.state.pending →
      engine.sending? world order = none → engine.happenings world order = [] →
      ((engine.obey world order).state.pending = some name ↔ engine.state.pending = some name ∧
        (∀ sending, engine.sending? world order = some sending → sending.arrives world = true) ∧
        Outlasts name (endedAmong (engine.happenings world order))) := by
    intro same silent quiet
    simp [same, silent, quiet, endedAmong, Outlasts]
  cases evaluates : order.evaluates with
  | true =>
    have kept := (sourceless_tracking.part Tracking.pending).view_obey (fun _ => rfl)
      (fun _ _ => rfl) world evaluates idle
    have silent := sending?_evaluation world engine evaluates
    have quiet := happenings_evaluation world engine evaluates
    rw [idle] at silent quiet
    exact nothing kept silent quiet
  | false =>
    rcases order.late_or_early with ⟨id, answers, rfl⟩ | early
    · have silent : engine.sending? world (.answered id answers) = none := rfl
      simp only [silent, reduceCtorEq, false_implies, implies_true, true_and]
      rw [happenings, obey, deliver]
      cases engine.session.talkOf? id with
      | none => simp [endedAmong, Outlasts]
      | some index => exact (ended_hearAll name world.disk index answers engine).pending
    · have happens := happenings_of_early world engine early
      cases sends : engine.sending? world order with
      | none =>
        rw [sends] at happens
        have alone := nothing (pending_of_silence evaluates early sends) sends happens
        rwa [sends] at alone
      | some sending =>
        rw [sends] at happens
        have meanwhile := (ended_send name world sending).pending
        rw [pending_of_question evaluates sends, happens, endedAmong_sent]
        simp only [Option.some.injEq, forall_eq']
        cases sending.arrives world with
        | false => simp
        | true =>
          simp only [↓reduceIte, true_and]
          rw [← pending_of_sending? evaluates sends]
          exact meanwhile

/-- A tracked request that is sent while nothing is pending is pending after it exactly when its
message arrives and no end that comes back meanwhile carries its number; nothing else is. -/
theorem pending_dispatch_iff (world : World) (op : String) (fields : Table) (purpose : Purpose)
    (nothing : engine.state.pending = none) (name : String) :
    let sending := Sending.ofRequest engine op fields purpose
    (engine.dispatch world op fields purpose true).state.pending = some name ↔
      name = sending.engine.session.nextId ∧ sending.arrives world = true ∧
        .text name ∉ endedAmong (sending.hearings world) := by
  intro sending
  have meanwhile : ∀ other, Tracking.Ended other (endedAmong (sending.hearings world))
      sending.engine.tracking (sending.left world).tracking :=
    fun other => ended_send other world sending
  have left_none : (sending.left world).state.pending = none := by
    refine Option.eq_none_iff_forall_ne_some.mpr fun other waits => ?_
    have before := ((meanwhile other).pending.mp waits).1
    rw [show sending.engine.tracking.pending = none from nothing] at before
    contradiction
  have early : (sending.left world).endedEarly.contains sending.engine.session.nextId = true ↔
      .text sending.engine.session.nextId ∈ endedAmong (sending.hearings world) := by
    rw [List.contains_iff_mem]
    refine (meanwhile sending.engine.session.nextId).endedEarly.trans ?_
    simp [sending, Sending.ofRequest, tracking]
  rw [pending_dispatch, left_none, ← show sending = Sending.ofRequest engine op fields purpose
    from rfl]
  cases sending.arrives world with
  | false => simp
  | true =>
    by_cases ended : .text sending.engine.session.nextId ∈ endedAmong (sending.hearings world)
    · have noted := early.mpr ended
      simp only [noted, ↓reduceIte, Bool.not_true, Bool.and_false, Bool.false_eq_true, true_and,
        reduceCtorEq, false_iff, not_and]
      rintro rfl
      exact not_not_intro ended
    · have unnoted := Bool.eq_false_iff.mpr (mt early.mp ended)
      simp only [unnoted, ↓reduceIte, Bool.not_false, Bool.and_true, true_and,
        Option.some.injEq]
      constructor
      · rintro rfl
        exact ⟨rfl, ended⟩
      · exact fun own => own.1.symm

/-- After an evaluation is started nothing else is pending, and it is itself exactly when its
message arrives and no end that comes back meanwhile carries its number. -/
theorem pending_evaluation_iff (name : String) {evaluation : Evaluation}
    (found : engine.evaluation? world order = some evaluation) :
    (engine.obey world order).state.pending = some name ↔
      ∃ sending, engine.sending? world order = some sending ∧
        name = sending.engine.session.nextId ∧ sending.arrives world = true ∧
        .text name ∉ endedAmong (engine.happenings world order) := by
  have evaluates : order.evaluates = true := by
    cases order <;> first | rfl | contradiction
  have sends := sending?_evaluation world engine evaluates
  have happens := happenings_evaluation world engine evaluates
  rw [found, Option.bind_some] at sends happens
  rw [obey_evaluation world found, Evaluation.action, perform_bind, sends, happens]
  obtain ⟨begun, result, begins, cleared, _⟩ := perform_beginCycle evaluation.prepared
    evaluation.code
  have nothing : begun.state.pending = none := congrArg Tracking.pending cleared
  rw [Sending.ofEvaluation?, begins]
  cases result with
  | error fault => simp [nothing]
  | ok =>
    simp only [perform_modify, Option.some.injEq, exists_eq_left', endedAmong_sent]
    exact pending_dispatch_iff world evaluation.op evaluation.fields _ nothing name

end Engine
end EvalDesk
