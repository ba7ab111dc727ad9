import EvalDesk.Proofs.Engine.Diagnostics
import EvalDesk.Proofs.Engine.Run
import EvalDesk.Proofs.Engine.Steps

/-!
# How the engine advances

Whatever is ordered and whatever comes back, requests and effects are only added, every location of
a definition that comes back is counted, the limit of the transcript stays, and the source that is
known stays the one that was read. So what an earlier state tells about requests and effects is
still true later.
-/
namespace EvalDesk.Engine

open Fallible

/-- The source that is known is the one that was read. -/
structure InStep (engine : Engine) : Prop where
  /-- They have the same path. -/
  path : engine.state.sourcePath = engine.buffer.path
  /-- They have the same text. -/
  text : engine.state.sourceText = engine.buffer.text

/-- The number of the answer with the definition that is known. -/
def answer? (engine : Engine) : Option Nat := engine.state.definition.map (·.answer)

/-- The part of the engine that advances. -/
structure Course where
  /-- The requests. -/
  requests : List (Datum × Topic Purpose)
  /-- What was done outside. -/
  effects : List Effect
  /-- How many locations of definitions have come back. -/
  locations : Nat
  /-- The definition that is known. -/
  definition : Option Definition
  /-- The source as it is shown. -/
  scene : Scene
  /-- The text that is known. -/
  sourceText : String

/-- What advances. -/
def course (engine : Engine) : Course :=
  ⟨engine.session.requests, engine.effects, engine.locations, engine.state.definition, engine.scene,
    engine.state.sourceText⟩

/-- Nothing is taken back between two states. -/
structure Advances (before after : Engine) : Prop where
  /-- Requests are only added. -/
  requests : before.session.requests <+: after.session.requests
  /-- Effects are only added. -/
  effects : before.effects <+: after.effects
  /-- Locations that came back stay counted. -/
  locations : before.locations ≤ after.locations
  /-- The transcript keeps as many entries as before. -/
  limit : after.state.transcriptLimit = before.state.transcriptLimit
  /-- What is known stays what was read. -/
  inStep : before.InStep → after.InStep
  /-- The definition that is known was known before or has come back since. -/
  answers : ∀ answer, after.answer? = some answer → before.answer? = some answer ∨
    before.locations ≤ answer ∧ answer < after.locations

/-- Nothing is taken back when nothing advances. -/
theorem Advances.of_course {before after : Engine} (same : after.course = before.course) :
    Advances before after := by
  have requests : after.session.requests = before.session.requests :=
    congrArg Course.requests same
  have effects : after.effects = before.effects := congrArg Course.effects same
  have locations : after.locations = before.locations := congrArg Course.locations same
  have definition : after.state.definition = before.state.definition :=
    congrArg Course.definition same
  have scene : after.scene = before.scene := congrArg Course.scene same
  have text : after.state.sourceText = before.state.sourceText := congrArg Course.sourceText same
  have buffer : after.buffer = before.buffer := congrArg Scene.buffer scene
  have path : after.state.sourcePath = before.state.sourcePath := congrArg Scene.sourcePath scene
  refine ⟨requests ▸ List.prefix_rfl, effects ▸ List.prefix_rfl, Nat.le_of_eq locations.symm,
    congrArg Scene.limit scene, fun inStep => ⟨?_, ?_⟩, fun answer known => .inl ?_⟩
  · rw [path, buffer, inStep.path]
  · rw [text, buffer, inStep.text]
  · rwa [answer?, ← definition]

/-- Nothing is taken back over any time. -/
theorem chains_advances : Chains Advances where
  refl _ := .of_course rfl
  trans first second := by
    refine ⟨first.requests.trans second.requests, first.effects.trans second.effects,
      Nat.le_trans first.locations second.locations, second.limit.trans first.limit,
      fun inStep => second.inStep (first.inStep inStep), fun answer known => ?_⟩
    rcases second.answers answer known with earlier | ⟨least, most⟩
    · rcases first.answers answer earlier with known | ⟨least, most⟩
      · exact .inl known
      · exact .inr ⟨least, Nat.lt_of_lt_of_le most second.locations⟩
    · exact .inr ⟨Nat.le_trans first.locations least, most⟩

/-- Nothing is taken back over a further time. -/
theorem Advances.trans {before middle after : Engine} (first : Advances before middle)
    (second : Advances middle after) : Advances before after := chains_advances.trans first second

/-- An action that takes nothing back. -/
theorem Advances.perform {α : Type} {action : Action α} (leads : Leads Advances action)
    (engine : Engine) : Advances engine (engine.perform action).1 := leads engine

/-- A request stays known by its place when further requests are sent. -/
theorem request_mono {requests more : List (Datum × Topic Purpose)} {index : Nat}
    {topic : Topic Purpose} (prefixed : requests <+: more)
    (request : (requests[index]?).map (·.2) = some topic) :
    (more[index]?).map (·.2) = some topic := by
  obtain ⟨rest, rfl⟩ := prefixed
  obtain ⟨known, found, _⟩ := Option.map_eq_some_iff.mp request
  obtain ⟨inside, _⟩ := List.getElem?_eq_some_iff.mp found
  rw [List.getElem?_append_left inside]
  exact request

/-- What keeps all that advances takes nothing back. -/
theorem advances_of_keeps {α : Type} {action : Action α} (keeps : Keeps course action) :
    Leads Advances action := fun engine => .of_course (keeps engine)

/-! ## Sources -/

/-- An effect is only added. -/
theorem Advances.emit (engine : Engine) (effect : Effect) : Advances engine (engine.emit effect) :=
  ⟨List.prefix_rfl, List.prefix_append _ _, Nat.le_refl _, rfl,
    fun inStep => ⟨inStep.path, inStep.text⟩, fun _ known => .inl known⟩

/-- Telling the view takes nothing back. -/
theorem Advances.notify (engine : Engine) : Advances engine engine.notify := .emit engine _

/-- Ending a watch takes nothing back. -/
theorem Advances.stopWatching (engine : Engine) : Advances engine engine.stopWatching := by
  unfold Engine.stopWatching
  split
  · exact (Advances.emit engine .unwatched).trans (.of_course rfl)
  · exact chains_advances.refl engine

/-- Watching a file takes nothing back. -/
theorem startWatching_advances (disk : Disk) (path : String) :
    Leads Advances (startWatching disk path) := by
  refine leads_bind chains_advances (leads_lift chains_advances _) fun resolved => ?_
  split
  · refine leads_bind chains_advances (leads_lift chains_advances _) fun watch => ?_
    refine leads_modify fun engine => ?_
    exact ((Advances.stopWatching engine).trans (.emit _ _)).trans (.of_course rfl)
  · exact leads_pure chains_advances _

/-- A source that takes the place of another is known as it was read. -/
theorem Advances.showBuffer (engine : Engine) (buffer : Buffer) :
    Advances engine (engine.showBuffer buffer) :=
  ⟨List.prefix_rfl, List.prefix_rfl, Nat.le_refl _, rfl, fun _ => ⟨rfl, rfl⟩,
    fun _ known => .inl known⟩

/-- The buffer of a file is known by the path of the file. -/
theorem path_of_ofFile {disk : Disk} {path : String} {buffer : Buffer}
    (read : Source.ofFile disk path = .ok buffer) : buffer.path = path := by
  simp only [Source.ofFile] at read
  split at read <;> cases read
  rfl

/-- A source that is read again is known as it was read. -/
theorem loadSource_advances (disk : Disk) : Leads Advances (loadSource disk) := by
  intro engine
  have replaced : ∀ (now : Engine) (buffer : Buffer), buffer.path = now.state.sourcePath →
      Advances now { now with
        buffer
        opened := now.opened.filter (·.1 ≠ now.state.sourcePath)
        state := now.state.updateSource buffer.text } :=
    fun now buffer path =>
      ⟨List.prefix_rfl, List.prefix_rfl, Nat.le_refl _, rfl, fun _ => ⟨path.symm, rfl⟩,
        fun _ known => .inl known⟩
  show Advances engine (engine.perform (loadSource disk)).1
  simp only [loadSource, perform_bind, perform_get]
  cases read : Source.ofFile disk engine.state.sourcePath with
  | ok buffer => exact replaced engine buffer (path_of_ofFile read)
  | error fault =>
    cases fault with
    | source problem =>
      have told : Advances engine (engine.withStatus problem.message) := .of_course rfl
      exact told.trans (replaced _ { path := engine.state.sourcePath } rfl)
    | _ => exact chains_advances.refl engine

/-- Showing the source of a location in a file takes nothing back. -/
theorem visitFile_advances (disk : Disk) (location : Location) :
    Leads Advances (visitFile disk location) := by
  refine leads_bind chains_advances (leads_get chains_advances) fun engine => ?_
  refine leads_bind chains_advances (leads_lift chains_advances _) fun found => ?_
  split
  · exact leads_throw chains_advances _
  · refine leads_bind chains_advances (leads_get chains_advances) fun now => ?_
    dsimp only
    split
    · refine leads_bind chains_advances (leads_lift chains_advances _) fun buffer => ?_
      refine leads_bind chains_advances (leads_lift chains_advances _) fun root => ?_
      refine leads_bind chains_advances (leads_modify fun _ => .of_course rfl) fun _ => ?_
      refine leads_bind chains_advances (startWatching_advances disk _) fun _ => ?_
      refine leads_bind chains_advances (leads_modify fun engine => ?_) fun _ => ?_
      · exact .showBuffer engine buffer
      · exact leads_pure chains_advances _
    · exact leads_pure chains_advances _

/-- Showing the source of a location takes nothing back. -/
theorem visit_advances (disk : Disk) (location : Location) :
    Leads Advances (visit disk location) := by
  unfold visit
  split
  · exact visitFile_advances disk location
  · exact visitFile_advances disk location
  · have opens := advances_of_keeps (keeps_openPath (fun _ _ => rfl) disk
      (Source.entryPath ‹String› location.path))
    refine leads_bind chains_advances opens fun buffer => ?_
    refine leads_bind chains_advances (leads_modify fun engine => ?_) fun _ => ?_
    · exact (Advances.stopWatching engine).trans (.showBuffer _ buffer)
    · exact leads_pure chains_advances _

/-! ## Answers -/

/-- Events of an evaluation take nothing back. -/
theorem evaluationEvent_keeps_course (disk : Disk) (origin : Origin) (event : Event) :
    Keeps course (evaluationEvent disk origin event) := by
  have apart : Resultless course :=
    ⟨fun _ _ _ => rfl, fun _ _ => rfl, fun _ _ => rfl, fun _ _ _ _ => rfl⟩
  exact apart.keeps_event (fun _ _ => rfl) (fun _ _ => rfl) (fun _ _ => rfl) disk origin event

/-- Events of a request for documentation take nothing back. -/
theorem documentationEvent_keeps_course (symbol : String) (event : Event) :
    Keeps course (documentationEvent symbol event) :=
  keeps_documentationEvent (fun _ _ => rfl) (fun _ _ => rfl) (fun _ _ _ _ => rfl) symbol event

/-- A location that comes back is counted. -/
theorem Advances.setDefinition (engine : Engine) (location : Option Location) :
    Advances engine (engine.setDefinition location) := by
  refine ⟨List.prefix_rfl, List.prefix_rfl, Nat.le_succ _, rfl,
    fun inStep => ⟨inStep.path, inStep.text⟩, fun answer known => .inr ?_⟩
  cases location with
  | none => contradiction
  | some location =>
    cases known
    exact ⟨Nat.le_refl _, Nat.lt_succ_self _⟩

/-- Another place for the definition that is known, or none, takes nothing back. -/
theorem Advances.define (engine : Engine) (definition : Option Definition) (status : String)
    (known : ∀ found, definition = some found → engine.answer? = some found.answer) :
    Advances engine (engine.withState fun state => { state with definition, status }) := by
  refine ⟨List.prefix_rfl, List.prefix_rfl, Nat.le_refl _, rfl,
    fun inStep => ⟨inStep.path, inStep.text⟩, fun answer same => .inl ?_⟩
  obtain ⟨found, defined, rfl⟩ := Option.map_eq_some_iff.mp same
  exact known found defined

/-- Forgetting the definition takes nothing back. -/
theorem Advances.undefine (engine : Engine) (status : String) :
    Advances engine (engine.withState fun state => { state with definition := none, status }) :=
  .define engine none status fun _ unknown => absurd unknown.symm (Option.some_ne_none _)

/-- Sources are no definitions. -/
theorem sourceless_answer : Sourceless answer? where
  status _ _ := rfl
  opened _ _ := rfl
  projectRoot _ _ := rfl
  unwatched engine := by
    unfold stopWatching
    split <;> rfl
  watched _ _ _ _ := rfl
  reloaded _ _ _ := rfl
  shown _ _ := rfl

/-- The source of the definition that is known takes nothing back. -/
theorem Advances.showDefinition (disk : Disk) (symbol : String) {found : Definition}
    {engine : Engine} (known : engine.answer? = some found.answer) :
    Advances engine (engine.perform (showDefinition disk symbol found)).1 := by
  have visits : Advances engine (engine.perform (visit disk found.location)).1 :=
    visit_advances disk found.location engine
  have kept := sourceless_answer.keeps_visit disk found.location engine
  rw [Engine.showDefinition, perform_tryCatch, perform_bind]
  cases done : engine.perform (visit disk found.location) with
  | mk after result =>
    rw [done] at visits kept
    cases result with
    | ok location =>
      refine visits.trans (.define after (some { found with location }) _ fun other same => ?_)
      cases same
      exact kept.trans known
    | error fault =>
      refine visits.trans ?_
      dsimp only
      split
      · exact .undefine after _
      · exact chains_advances.refl after

/-- Events of a request for a definition take nothing back. -/
theorem definitionEvent_advances (disk : Disk) (symbol : String) (event : Event) :
    Leads Advances (definitionEvent disk symbol event) := by
  cases event with
  | value result ns id =>
    refine leads_bind chains_advances (leads_lift chains_advances _) fun location => ?_
    exact leads_modify fun engine => .setDefinition engine location
  | output text id => exact leads_pure chains_advances _
  | errorOutput text id => exact advances_of_keeps fun _ => rfl
  | completed statuses id =>
    have ends : Keeps course (complete statuses id) :=
      complete_keeps (fun _ _ => rfl) (fun _ _ _ _ => rfl) statuses id
    refine leads_bind chains_advances (advances_of_keeps ends) fun _ => ?_
    refine leads_get_bind fun engine => ?_
    split
    · exact leads_modify (fun _ => .of_course rfl) engine
    · rename_i found known
      exact .showDefinition disk symbol (congrArg (Option.map Definition.answer) known)

/-- Events take nothing back. -/
theorem purposeEvent_advances (disk : Disk) (purpose : Purpose) (event : Event) :
    Leads Advances (purposeEvent disk purpose event) := by
  cases purpose with
  | evaluation origin => exact advances_of_keeps (evaluationEvent_keeps_course disk origin event)
  | documentation symbol => exact advances_of_keeps (documentationEvent_keeps_course symbol event)
  | definition symbol => exact definitionEvent_advances disk symbol event
  | unheard => exact leads_pure chains_advances _

/-- What reports a failure advances like the action, and then the view is told. -/
theorem exists_reporting {action : Action Unit} (leads : Leads Advances action)
    (engine : Engine) : ∃ reported, Advances engine reported ∧
      engine.reporting action = reported.notify := by
  have after : Advances engine (engine.perform action).1 := leads engine
  rw [reporting]
  cases done : engine.perform action with
  | mk later result =>
    rw [done] at after
    cases result with
    | ok => exact ⟨later, after, rfl⟩
    | error fault =>
      let status := "Internal Engine Error: " ++ fault.message
      have known : Advances later (later.withStatus status) := .of_course rfl
      exact ⟨later.withStatus status, after.trans known, rfl⟩

/-- A notice takes nothing back; unless nobody waits for it, the view is told at its end. -/
theorem exists_takeNotice (disk : Disk) (engine : Engine) (notice : Notice Purpose) :
    takeNotice disk engine notice = engine ∨
      ∃ taken, Advances engine taken ∧ takeNotice disk engine notice = taken.notify := by
  cases notice with
  | ready identity =>
    let known := engine.withState fun state => { state with identity }
    exact .inr ⟨known, .of_course rfl, rfl⟩
  | event purpose event =>
    by_cases heard : purpose = .unheard
    · rw [heard]
      exact .inl rfl
    · rw [takeNotice_heard disk heard]
      exact .inr (exists_reporting (purposeEvent_advances disk purpose event) engine)

/-- A notice takes nothing back. -/
theorem Advances.takeNotice (disk : Disk) (engine : Engine) (notice : Notice Purpose) :
    Advances engine (takeNotice disk engine notice) := by
  rcases exists_takeNotice disk engine notice with same | ⟨taken, advances, same⟩
  · rw [same]
    exact chains_advances.refl engine
  · rw [same]
    exact advances.trans (.notify taken)

/-- An answer takes nothing back. -/
theorem Advances.hear (disk : Disk) (index : Nat) (engine : Engine) (answer : Table) :
    Advances engine (hear disk index engine answer).1 := by
  rw [Engine.hear]
  cases received : engine.session.receive index answer with
  | error fault => exact chains_advances.refl engine
  | ok result =>
    obtain ⟨session, notices⟩ := result
    have same : Advances engine { engine with session } := by
      apply Advances.of_course
      simp only [course, (receive_cases received).1, scene]
    exact same.trans (chains_advances.foldl (Advances.takeNotice disk) _ notices)

/-! ## Orders -/

variable (world : World)

/-- A message that is sent adds its request. -/
theorem Advances.recorded (engine : Engine) (message : Message) (topic : Topic Purpose) :
    Advances engine (engine.recorded message topic) := by
  refine ⟨?_, List.prefix_append _ _, Nat.le_refl _, rfl,
    fun inStep => ⟨inStep.path, inStep.text⟩, fun _ known => .inl known⟩
  simp only [Engine.recorded, Session.requests_record]
  exact List.prefix_append _ _

/-- What comes back for a message takes nothing back. -/
theorem Advances.heard (message : Message) (topic : Topic Purpose) (engine : Engine) :
    Advances (engine.recorded message topic) (engine.perform (send world message topic)).1 :=
  send_leads chains_advances (Advances.hear world.disk _) message topic

/-- Sending adds a request and takes nothing back. -/
theorem send_advances (message : Message) (topic : Topic Purpose) :
    Leads Advances (send world message topic) := fun engine =>
  (Advances.recorded engine message topic).trans (.heard world message topic engine)

/-- A request takes nothing back. -/
theorem request_advances (op : String) (fields : Table) (purpose : Purpose) :
    Leads Advances (request world op fields purpose) :=
  leads_bind chains_advances (leads_get chains_advances) fun _ => send_advances world _ _

/-- A lost connection takes nothing back. -/
theorem Advances.fail (engine : Engine) (fault : Fault) : Advances engine (engine.fail fault) :=
  .of_course rfl

/-- What needs the connection advances like the action. -/
theorem Advances.connected {action : Action Unit} (leads : Leads Advances action)
    (engine : Engine) : Advances engine (engine.connected action) :=
  (Advances.perform leads engine).trans
    (connected_leads chains_advances Advances.fail engine action)

/-- A request leads on from the sending of its message, and at its end the view is told. -/
theorem exists_dispatch (op : String) (fields : Table) (purpose : Purpose) (tracked : Bool)
    (engine : Engine) : ∃ asked,
      Advances (Engine.perform { engine with endedEarly := [], sending := true }
        (send world (engine.session.message op fields) (.work purpose))).1 asked ∧
      engine.dispatch world op fields purpose tracked = asked.notify :=
  dispatch_leads chains_advances Advances.fail (fun _ _ => .of_course rfl)
    (fun _ => .of_course rfl) op fields purpose tracked engine

/-- Sending the message of a request takes nothing back. -/
theorem Advances.asked (message : Message) (topic : Topic Purpose) (engine : Engine) :
    Advances engine (Engine.perform { engine with endedEarly := [], sending := true }
      (send world message topic)).1 := by
  have started : Advances engine { engine with endedEarly := [], sending := true } :=
    .of_course rfl
  exact started.trans (send_advances world message topic _)

/-- A request that is told to the view takes nothing back. -/
theorem Advances.dispatch (op : String) (fields : Table) (purpose : Purpose) (tracked : Bool)
    (engine : Engine) : Advances engine (engine.dispatch world op fields purpose tracked) := by
  obtain ⟨asked, advances, same⟩ := exists_dispatch world op fields purpose tracked engine
  rw [same]
  exact ((Advances.asked world _ _ engine).trans advances).trans (.notify asked)

/-- The request that is sent is known by its place from then on. -/
theorem request_dispatch (op : String) (fields : Table) (purpose : Purpose) (tracked : Bool)
    (engine : Engine) :
    ((engine.dispatch world op fields purpose tracked).session.requests[
      engine.session.talks.length]?).map (·.2) = some (.work purpose) := by
  let started := { engine with endedEarly := [], sending := true }
  obtain ⟨asked, advances, same⟩ := exists_dispatch world op fields purpose tracked engine
  have after := (Advances.heard world (engine.session.message op fields) (.work purpose)
    started).trans (advances.trans (.notify asked))
  obtain ⟨more, requests⟩ := after.requests
  rw [same, ← requests, recorded, Session.requests_record]
  simp [Session.requests, started]

/-- The start of a cycle cannot be seen. -/
theorem beginCycle_keeps_course (code : String) : Keeps course (beginCycle code) := by
  refine keeps_bind (keeps_modify fun _ => rfl) fun _ => ?_
  refine keeps_bind (keeps_modify fun _ => rfl) fun _ => ?_
  exact keeps_bind (fun _ => rfl) fun _ => keeps_modify fun _ => rfl

/-- An evaluation takes nothing back. -/
theorem evaluation_advances (code op : String) (fields : Table) (origin : Origin) :
    Leads Advances (do
      beginCycle code
      modify (dispatch world op fields (.evaluation origin) true)) := by
  refine leads_bind chains_advances (advances_of_keeps (beginCycle_keeps_course code)) fun _ => ?_
  exact leads_modify fun engine => .dispatch world op fields _ true engine

/-- Evaluating code takes nothing back. -/
theorem evaluate_advances (code : String) (origin : Origin) :
    Leads Advances (evaluate world code origin) :=
  evaluation_advances world code "eval" _ origin

/-- A status that is told takes nothing back. -/
theorem Advances.showStatus (engine : Engine) (status : String) :
    Advances engine (engine.showStatus status) := by
  have known : Advances engine (engine.withStatus status) := .of_course rfl
  exact known.trans (.notify _)

/-- Loading the source takes nothing back. -/
theorem evaluateBuffer_advances : Leads Advances (evaluateBuffer world) :=
  leads_bind chains_advances (leads_get chains_advances) fun _ => evaluation_advances world _ _ _ _

/-- A save takes nothing back. -/
theorem saved_advances : Leads Advances (saved world) :=
  leads_saved chains_advances (loadSource_advances world.disk) (evaluateBuffer_advances world)
    Advances.notify

/-- The start takes nothing back. -/
theorem start_advances : Leads Advances (start world) := by
  refine leads_bind chains_advances (loadSource_advances world.disk) fun _ => ?_
  refine leads_bind chains_advances (leads_modify fun engine => ?_) fun _ => ?_
  · exact .connected (leads_connecting chains_advances (send_advances world _ _)
      fun _ => .of_course rfl) engine
  · refine leads_bind chains_advances (leads_get chains_advances) fun _ => ?_
    refine leads_bind chains_advances (startWatching_advances world.disk _) fun _ => ?_
    exact leads_modify fun engine => .notify engine

/-- An interruption takes nothing back. -/
theorem Advances.interrupt (engine : Engine) : Advances engine (engine.interrupt world) := by
  exact interrupt_leads chains_advances (fun _ _ => .of_course rfl) (fun _ _ => .of_course rfl)
    .notify (fun _ => request_advances world _ _ _) engine

/-- Late answers take nothing back. -/
theorem Advances.deliver (disk : Disk) (id : Datum) (answers : List Table) (engine : Engine) :
    Advances engine (engine.deliver disk id answers).1 := by
  rw [Engine.deliver]
  split
  · exact chains_advances.refl engine
  · exact hearAll_leads chains_advances (Advances.hear disk _) engine answers

/-- An order takes nothing back. -/
theorem Advances.obey (engine : Engine) (order : Order) :
    Advances engine (engine.obey world order) := by
  have found := leads_found chains_advances Advances.showStatus (evaluate_advances world)
  cases order with
  | start => exact start_advances world engine
  | code code origin => exact evaluate_advances world code _ engine
  | topLevel offset =>
    exact found (fun engine => engine.buffer.topLevelAt offset) (·.start) _ engine
  | last offset =>
    exact found (fun engine => engine.buffer.lastBefore offset) (fun _ => offset) _ engine
  | region first second =>
    exact leads_region chains_advances Advances.showStatus (evaluate_advances world) first second
      engine
  | buffer => exact evaluateBuffer_advances world engine
  | inNamespace ns =>
    exact leads_bind chains_advances (leads_get chains_advances)
      (fun _ => evaluate_advances world _ _) engine
  | namespaceForm =>
    exact found (fun engine => engine.buffer.namespaceForm?) (·.start) _ engine
  | documentation symbol =>
    have asked : Advances engine (engine.withState fun state =>
      { state with documentation := "", status := "doc " ++ symbol }) := .of_course rfl
    exact asked.trans (.dispatch world _ _ _ false _)
  | definition symbol =>
    exact (Advances.undefine engine ("locating " ++ symbol)).trans
      (.dispatch world _ _ _ false _)
  | interrupt => exact .interrupt world engine
  | saved => exact saved_advances world engine
  | changed event now =>
    exact leads_takeFileEvent chains_advances (fun _ _ => .of_course rfl) (saved_advances world)
      event now engine
  | answered id answers => exact .deliver world.disk id answers engine

/-- Removing what was drawn takes nothing back. -/
theorem Advances.clearDecorations (engine : Engine) :
    Advances engine engine.clearDecorations := by
  have cleared : Advances engine ({ engine with decorations := [] }.withState
    DeskState.resetCycle) := .of_course rfl
  exact cleared.trans (.notify _)

/-- The end of the session takes nothing back. -/
theorem Advances.stop (engine : Engine) : Advances engine engine.stop :=
  ((Advances.stopWatching engine).trans (.emit _ .closed)).trans (.of_course rfl)

end EvalDesk.Engine
