import EvalDesk.Proofs.Engine.Requests

/-!
# How far the engine leads

The engine hears answers one after another, while a message is sent and later, and most orders come
down to an evaluation or to a status. A relation between earlier and later states that can be put
together from steps holds over all of this as soon as it holds over every answer, every lost
connection, every evaluation and every status.
-/
namespace EvalDesk.Engine

open Fallible

section Hearing

variable {State : Type} {hear : State → Table → State × Option Fault}
  {relation : State → State → Prop} (chains : Chains relation)
  (each : ∀ state answer, relation state (hear state answer).1)
include chains each

/-- Answers lead as far as each of them does. -/
theorem hearAll_leads (state : State) (answers : List Table) :
    relation state (hearAll hear state answers).1 := by
  induction answers generalizing state with
  | nil => exact chains.refl state
  | cons answer rest ih =>
    have next := each state answer
    rw [hearAll]
    cases done : hear state answer with
    | mk after fault =>
      rw [done] at next
      cases fault with
      | some fault => exact next
      | none => exact chains.trans next (ih after)

/-- An exchange leads as far as each of its answers does. -/
theorem hearExchange_leads (state : State) (exchange : Exchange) :
    relation state (hearExchange hear state exchange).1 := by
  rw [hearExchange]
  cases exchange.refusal with
  | some fault => exact chains.refl state
  | none =>
    have final := hearAll_leads chains each state exchange.answers
    simp only
    cases done : hearAll hear state exchange.answers with
    | mk after fault =>
      rw [done] at final
      cases fault <;> exact final

end Hearing

/-- The engine when a message was sent and nothing has come back. -/
def recorded (engine : Engine) (message : Message) (topic : Topic Purpose) : Engine :=
  { engine.emit (.sent message) with session := engine.session.record message topic }

/-- Ask for the identity, and tell that there is a connection. -/
def connecting (world : World) (engine : Engine) : Action Unit := do
  discard (send world engine.session.identityMessage (.identity true))
  modify (·.withState fun state => { state with connected := true, status := "connected" })

/-- The start reads the source, asks for the identity and watches the source. -/
theorem start_eq (world : World) :
    start world = (do
      loadSource world.disk
      modify fun engine => engine.connected (connecting world engine)
      startWatching world.disk (← get).state.sourcePath
      modify notify) := rfl

section Orders

variable {relation : Engine → Engine → Prop} (chains : Chains relation) {world : World}
include chains

/-- One more action leads on from the actions before it. -/
theorem perform_leads_from {α β : Type} (action : Action α) {next : α → Action β}
    (second : ∀ result, Leads relation (next result)) (engine : Engine) :
    relation (engine.perform action).1 (engine.perform (action >>= next)).1 :=
  leads_from chains second engine

/-- A message that is sent leads on from its record as far as each answer to it does. -/
theorem send_leads {engine : Engine}
    (each : ∀ now answer, relation now
      (hear world.disk engine.session.talks.length now answer).1)
    (message : Message) (topic : Topic Purpose) :
    relation (engine.recorded message topic) (engine.perform (send world message topic)).1 := by
  have heard := hearExchange_leads chains each (engine.recorded message topic)
    (world.transport message)
  rw [perform_send_exchange]
  revert heard
  rw [recorded]
  cases hearExchange (hear world.disk engine.session.talks.length)
      { engine.emit (.sent message) with session := engine.session.record message topic }
      (world.transport message) with
  | mk after fault =>
    intro heard
    cases fault <;> exact heard

/-- What needs the connection leads on from the action as far as a lost connection does. -/
theorem connected_leads (lost : ∀ engine fault, relation engine (fail engine fault))
    (engine : Engine) (action : Action Unit) :
    relation (engine.perform action).1 (engine.connected action) := by
  rw [connected]
  cases engine.perform action with
  | mk after result =>
    cases result with
    | ok => exact chains.refl after
    | error fault => exact lost after fault

/-- A request leads on from its message as far as a lost connection, the note of what is pending and
the end of the sending do, and then the view is told. -/
theorem dispatch_leads (lost : ∀ engine fault, relation engine (fail engine fault))
    (pends : ∀ (engine : Engine) id,
      relation engine (engine.withState fun state => { state with pending := some id }))
    (idles : ∀ engine : Engine, relation engine { engine with sending := false })
    (op : String) (fields : Table) (purpose : Purpose) (tracked : Bool) (engine : Engine) :
    ∃ asked, relation (Engine.perform { engine with endedEarly := [], sending := true }
        (send world (engine.session.message op fields) (.work purpose))).1 asked ∧
      engine.dispatch world op fields purpose tracked = asked.notify := by
  let started := { engine with endedEarly := [], sending := true }
  refine ⟨_, ?_, rfl⟩
  rw [← perform_request started op fields purpose]
  refine chains.trans ?_ (idles _)
  refine chains.trans ?_ (connected_leads chains lost started _)
  refine perform_leads_from chains _ (fun id => ?_) started
  split
  · refine leads_modify fun engine => ?_
    split
    · exact chains.refl engine
    · exact pends engine id
  · exact leads_pure chains _

/-- Asking for the identity leads as far as its message and as telling of a connection. -/
theorem leads_connecting {engine : Engine}
    (sends : Leads relation (send world engine.session.identityMessage (.identity true)))
    (known : ∀ now : Engine, relation now (now.withState fun state =>
      { state with connected := true, status := "connected" })) :
    Leads relation (connecting world engine) :=
  leads_bind chains (leads_discard sends) fun _ => leads_modify known

/-- An interruption leads as far as its message, a lost connection, a status and telling the view
do. -/
theorem interrupt_leads (lost : ∀ engine fault, relation engine (fail engine fault))
    (states : ∀ (engine : Engine) status, relation engine (engine.withStatus status))
    (told : ∀ engine : Engine, relation engine engine.notify)
    (sends : ∀ fields, Leads relation (request world "interrupt" fields .unheard))
    (engine : Engine) : relation engine (engine.interrupt world) := by
  have connects : ∀ action : Action Unit, Leads relation action →
      relation engine (engine.connected action) := fun action leads =>
    chains.trans (leads engine) (connected_leads chains lost engine action)
  rw [interrupt]
  split
  · exact chains.trans (states engine _) (told _)
  · exact chains.trans (states engine _) (told _)
  · refine chains.trans (connects _ ?_) (told _)
    exact leads_bind chains (leads_discard (sends _)) fun _ => leads_modify fun now => states now _

section Evaluations

variable (told : ∀ engine status, relation engine (showStatus engine status))
  (evaluates : ∀ code origin, Leads relation (evaluate world code origin))
include told evaluates

/-- Evaluating a span that is looked for leads as far as an evaluation, or as a status when there is
none. -/
theorem leads_found (find : Engine → Option Form.Span) (offset : Form.Span → Int)
    (missing : String) :
    Leads relation (do
      match find (← get) with
      | none => modify (·.showStatus missing)
      | some span => evaluateSpan world span (offset span)) := by
  refine leads_bind chains (leads_get chains) fun engine => ?_
  split
  · exact leads_modify fun engine => told engine missing
  · exact leads_bind chains (leads_get chains) fun _ => evaluates _ _

/-- Evaluating a region leads as far as an evaluation, or as a status when it is blank. -/
theorem leads_region (first second : Int) :
    Leads relation (evaluateRegion world first second) := by
  refine leads_bind chains (leads_get chains) fun _ => ?_
  dsimp only
  split
  · exact leads_modify fun engine => told engine _
  · exact evaluates _ _

end Evaluations

/-- A save leads as far as reading the source, loading it and telling the view. -/
theorem leads_saved (loads : Leads relation (loadSource world.disk))
    (evaluates : Leads relation (evaluateBuffer world))
    (told : ∀ engine, relation engine (notify engine)) : Leads relation (saved world) := by
  refine leads_bind chains loads fun _ => leads_bind chains (leads_get chains) fun engine => ?_
  split
  · exact evaluates
  · exact leads_modify told

/-- A change in the directory of the source leads as far as a save and as the watch. -/
theorem leads_takeFileEvent
    (watches : ∀ (engine : Engine) watch, relation engine { engine with watch })
    (saves : Leads relation (saved world)) (event : FileEvent) (now : Quantity) :
    Leads relation (takeFileEvent world event now) := by
  refine leads_bind chains (leads_get chains) fun _ => ?_
  split
  · exact leads_pure chains _
  · refine leads_bind chains (leads_lift chains _) fun found => ?_
    obtain ⟨watch, told⟩ := found
    refine leads_bind chains (leads_modify fun engine => watches engine _) fun _ => ?_
    dsimp only
    split
    · exact leads_bind chains saves fun _ => leads_pure chains _
    · exact leads_pure chains _

end Orders

end EvalDesk.Engine
