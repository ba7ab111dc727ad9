import EvalDesk.Proofs.Engine.Answers

/-!
# What requests change

A request takes the next number for its identity, and its message carries it. While the message is
sent answers to it may come back at once. A tracked request is pending after that unless one of
these answers has ended it, and a request that is not tracked leaves alone what is pending.
-/
namespace EvalDesk

namespace Session

variable (session : Session Purpose)

/-- A recorded message is the last request. -/
theorem requests_record (message : Message) (topic : Topic Purpose) :
    (session.record message topic).requests =
      session.requests ++ [(message.get "id", topic)] := by
  simp [requests, record]

end Session

namespace Engine

variable {world : World}

/-- What a request changes of what runs, by whether it is pending after it was sent. -/
structure Tracking.Asked (message : Message) (topic : Topic Purpose)
    (pending : Bool) (before after : Tracking) : Prop where
  /-- The message carries the next number. -/
  named : message.get "id" = .text before.session.nextId
  /-- The request is the last one. -/
  requests : after.session.requests =
    before.session.requests ++ [(.text before.session.nextId, topic)]
  /-- One more request is numbered. -/
  count : after.session.count = before.session.count + 1
  /-- Sending is over if it was before. -/
  sending : after.sending = before.sending
  /-- The transcript keeps as many entries as before. -/
  limit : after.limit = before.limit
  /-- The message is the last one that was sent. -/
  messages : after.messages = before.messages ++ [message]
  /-- It is pending, or what was pending before still is. -/
  pending : after.pending = if pending then some before.session.nextId else before.pending

/-- Sending records the request and takes what happens meanwhile. -/
theorem perform_send_exchange (world : World) (engine : Engine) (message : Message)
    (topic : Topic Purpose) :
    engine.perform (send world message topic) =
      match hearExchange (hear world.disk engine.session.talks.length)
        { engine.emit (.sent message) with session := engine.session.record message topic }
        (world.transport message) with
      | (after, some fault) => (after, .error fault)
      | (after, none) => (after, .ok engine.session.nextId) := by
  simp only [perform, send, ExceptT.run, StateT.run]
  cases hearExchange (hear world.disk engine.session.talks.length)
    { engine.emit (.sent message) with session := engine.session.record message topic }
    (world.transport message) with
  | mk after fault => cases fault <;> rfl

/-- A request that was sent is not pending by itself. -/
theorem Tracking.Moved.asked {before after : Tracking} {message : Message} {topic : Topic Purpose}
    {ended : Bool} (named : message.get "id" = .text before.session.nextId)
    (fresh : before.pending ≠ some before.session.nextId)
    (moved : Moved before.session.nextId ended { before with
      session := before.session.record message topic
      messages := before.messages ++ [message] } after) :
    Asked message topic false before after := by
  refine ⟨named, ?_, moved.count, moved.sending, moved.limit, moved.messages, ?_⟩
  · rw [moved.requests, Session.requests_record, named]
  · rw [moved.pending, if_neg fun ends => fresh ends.2]
    rfl

/-- A request sends its message. -/
theorem perform_request (engine : Engine) (op : String) (fields : Table) (purpose : Purpose) :
    engine.perform (request world op fields purpose) =
      engine.perform (send world (engine.session.message op fields) (.work purpose)) := by
  rw [request, perform_bind, perform_get]

/-- Starting a cycle for some code clears what is drawn and what is pending, and adds the code to
the transcript. It goes on as far as the transcript takes the code. -/
theorem perform_beginCycle_eq (engine : Engine) (code : String) :
    let cleared := { engine with decorations := [] }.withState DeskState.resetCycle
    engine.perform (beginCycle code) =
      match (cleared.state.append .input (.text code)).2 with
      | .ok () => ({ cleared with
          state := (cleared.state.append .input (.text code)).1 }.withStatus "evaluating", .ok ())
      | .error fault =>
        ({ cleared with state := (cleared.state.append .input (.text code)).1 }, .error fault) := by
  intro cleared
  simp only [beginCycle, perform_bind, perform_modify, perform_append]
  cases (cleared.state.append .input (.text code)).2 <;> rfl

/-- Starting a cycle for some code leaves nothing pending; it fails when the transcript does not
take the code. -/
theorem perform_beginCycle (engine : Engine) (code : String) :
    ∃ after result, engine.perform (beginCycle code) = (after, result) ∧
      after.tracking = { engine.tracking with pending := none } ∧
      (Transcript.Takes engine.state.transcriptLimit → result = .ok ()) ∧
      (Transcript.Refuses engine.state.transcriptLimit → ∃ fault, result = .error fault) := by
  let cleared := { engine with decorations := [] }.withState DeskState.resetCycle
  rw [perform_beginCycle_eq]
  cases added : (cleared.state.append .input (.text code)).2 with
  | ok =>
    refine ⟨_, .ok (), rfl, rfl, fun _ => rfl, fun refuses => ?_⟩
    obtain ⟨fault, fails⟩ := @DeskState.append_refuses cleared.state refuses .input (.text code)
    rw [added] at fails
    contradiction
  | error fault =>
    refine ⟨_, .error fault, rfl, rfl, fun takes => ?_, fun _ => ⟨fault, rfl⟩⟩
    exact added.symm.trans (@DeskState.append_takes cleared.state takes .input (.text code))

end Engine
end EvalDesk
