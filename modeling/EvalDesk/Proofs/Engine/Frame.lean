import EvalDesk.Engine.Requests
import EvalDesk.Proofs.Fallible

/-!
# What actions leave as it is

An action of the engine is followed by what it does to a view of the engine, which is any part of
it. The laws below put an action together from its steps: one that fails stops there, and what its
steps keep it keeps as well.
-/
namespace EvalDesk

/-- The message of an effect that sends one. -/
def Effect.message? : Effect → Option Message
  | .sent message => some message
  | _ => none

/-- Any number of entries can be held against the limit. -/
def Transcript.Takes (limit : Datum) : Prop := ∀ count, ∃ number, excess count limit = .ok number

/-- No number of entries can be held against the limit. -/
def Transcript.Refuses (limit : Datum) : Prop := ∀ count, ∃ fault, excess count limit = .error fault

/-- An entry is added when the transcript takes it. -/
theorem DeskState.append_takes {state : DeskState} (takes : Transcript.Takes state.transcriptLimit)
    (kind : Transcript.Kind) (text : Datum) : (state.append kind text).2 = .ok () := by
  let entry : Transcript.Entry := ⟨kind, text⟩
  obtain ⟨number, fits⟩ := takes (state.transcript ++ [entry]).length
  simp only [entry] at fits
  simp only [append, Transcript.add, fits]

/-- Adding an entry fails when the transcript refuses it. -/
theorem DeskState.append_refuses {state : DeskState}
    (refuses : Transcript.Refuses state.transcriptLimit) (kind : Transcript.Kind) (text : Datum) :
    ∃ fault, (state.append kind text).2 = .error fault := by
  let entry : Transcript.Entry := ⟨kind, text⟩
  obtain ⟨fault, fails⟩ := refuses (state.transcript ++ [entry]).length
  simp only [entry] at fails
  simp only [append, Transcript.add, fails]
  exact ⟨fault, rfl⟩

namespace Engine

/-- A new engine knows nothing but its settings, the path of its source and the project. -/
theorem exists_of_create {disk : Disk} {source : String} {settings : Settings} {engine : Engine}
    (created : Engine.create disk source settings = .ok engine) :
    let path := (Path.absolute disk.directory source).text
    let ns := settings.get "namespace" (.text "user")
    ∃ projectRoot, engine = {
      settings
      state := .start path ns (settings.get "transcript_limit" DeskState.usualLimit)
      session := .start ns .null
      decorations := []
      watch := none
      projectRoot
      buffer := { path }
      opened := []
      sending := false
      endedEarly := []
      locations := 0
      effects := [] } := by
  rw [create] at created
  cases root : Discovery.projectRoot disk (Path.absolute disk.directory source).text with
  | error fault =>
    rw [root] at created
    contradiction
  | ok projectRoot =>
    rw [root] at created
    cases created
    exact ⟨projectRoot, rfl⟩

section Perform

variable {α β : Type} (engine : Engine)

/-- An action of the engine is something done on a state that may fail. -/
theorem perform_eq (action : Action α) :
    engine.perform action = Fallible.perform engine action := rfl

/-- An action that does nothing. -/
theorem perform_pure (result : α) :
    engine.perform (pure result : Action α) = (engine, .ok result) := rfl

/-- An action that reads the engine. -/
theorem perform_get : engine.perform get = (engine, .ok engine) := rfl

/-- An action that changes the engine. -/
theorem perform_modify (change : Engine → Engine) :
    engine.perform (modify change) = (change engine, .ok ()) := rfl

/-- An action that takes over a result. -/
theorem perform_lift (result : Except Fault α) :
    engine.perform (liftM result : Action α) = (engine, result) := rfl

/-- An action that adds an entry to the transcript. -/
theorem perform_append (kind : Transcript.Kind) (text : Datum) :
    engine.perform (append kind text) =
      ({ engine with state := (engine.state.append kind text).1 },
        (engine.state.append kind text).2) := rfl

/-- One action after another; the second does not happen when the first fails. -/
theorem perform_bind (action : Action α) (next : α → Action β) :
    engine.perform (action >>= next) =
      match engine.perform action with
      | (after, .ok result) => after.perform (next result)
      | (after, .error fault) => (after, .error fault) := by
  rw [perform_eq, Fallible.perform_bind, perform_eq]
  cases Fallible.perform engine action with
  | mk after result => cases result <;> rfl

/-- An action whose result is not needed. -/
theorem perform_discard (action : Action α) :
    engine.perform (discard action) =
      match engine.perform action with
      | (after, .ok _) => (after, .ok ())
      | (after, .error fault) => (after, .error fault) := by
  rw [perform_eq, Fallible.perform_discard, perform_eq]
  cases Fallible.perform engine action with
  | mk after result => cases result <;> rfl

/-- An action whose failure is taken up by another. -/
theorem perform_tryCatch (action : Action α) (rescue : Fault → Action α) :
    engine.perform (tryCatch action rescue) =
      match engine.perform action with
      | (after, .ok result) => (after, .ok result)
      | (after, .error fault) => after.perform (rescue fault) := by
  rw [perform_eq, Fallible.perform_tryCatch, perform_eq]
  cases Fallible.perform engine action with
  | mk after result => cases result <;> rfl

end Perform

/-- The action leaves the view as it is, also when it fails. -/
def Keeps {α β : Type} (view : Engine → β) (action : Action α) : Prop :=
  ∀ engine : Engine, view (engine.perform action).1 = view engine

section Keeps

variable {α β γ : Type} {view : Engine → γ}

/-- An action that does nothing keeps everything. -/
theorem keeps_pure (result : α) : Keeps view (pure result : Action α) := fun _ => rfl

/-- An action that fails keeps everything. -/
theorem keeps_throw (fault : Fault) : Keeps view (throw fault : Action α) := fun _ => rfl

/-- Reading the engine keeps everything. -/
theorem keeps_get : Keeps view (get : Action Engine) := fun _ => rfl

/-- Taking over a result keeps everything. -/
theorem keeps_lift (result : Except Fault α) : Keeps view (liftM result : Action α) := fun _ => rfl

/-- A change keeps what it does not change. -/
theorem keeps_modify {change : Engine → Engine}
    (same : ∀ engine, view (change engine) = view engine) :
    Keeps view (modify change : Action Unit) := same

/-- Two actions keep what each of them keeps. -/
theorem keeps_bind {action : Action α} {next : α → Action β} (first : Keeps view action)
    (second : ∀ result, Keeps view (next result)) : Keeps view (action >>= next) :=
  Fallible.leads_bind (Fallible.chains_view view) first second

/-- An action whose failure is taken up keeps what both keep. -/
theorem keeps_tryCatch {action : Action α} {rescue : Fault → Action α} (first : Keeps view action)
    (second : ∀ fault, Keeps view (rescue fault)) : Keeps view (tryCatch action rescue) :=
  Fallible.leads_tryCatch (Fallible.chains_view view) first second

/-- After an action that keeps a view, the view is as it was before that action. -/
theorem view_bind {action : Action α} {next : α → Action β}
    (second : ∀ result, Keeps view (next result)) (engine : Engine) :
    view (engine.perform (action >>= next)).1 = view (engine.perform action).1 :=
  Fallible.leads_from (Fallible.chains_view view) second engine

/-- What reports a failure keeps what the action keeps, if the view shows neither the status nor
what the view of the desk was told. -/
theorem view_reporting {action : Action Unit} (keeps : Keeps view action)
    (status : ∀ engine status, view (withStatus engine status) = view engine)
    (told : ∀ engine : Engine, view engine.notify = view engine) (engine : Engine) :
    view (engine.reporting action) = view engine := by
  have before := keeps engine
  rw [reporting]
  cases done : engine.perform action with
  | mk after result =>
    rw [done] at before
    cases result with
    | ok => exact (told after).trans before
    | error fault => exact ((told _).trans (status after _)).trans before

/-- Opening a source keeps what does not show the open sources. -/
theorem keeps_openPath
    (unseen : ∀ (engine : Engine) opened, view { engine with opened } = view engine)
    (disk : Disk) (path : String) : Keeps view (openPath disk path) := by
  refine keeps_bind keeps_get fun engine => ?_
  refine keeps_bind (keeps_lift _) fun found => ?_
  obtain ⟨buffer, opened⟩ := found
  refine keeps_bind (keeps_modify fun now => ?_) fun _ => keeps_pure buffer
  exact unseen now opened

/-- A view that shows nothing of sources: neither the one that is read and watched, nor the others
that are open, nor what is told about them. -/
structure Sourceless (view : Engine → γ) : Prop where
  /-- It does not show the status. -/
  status : ∀ engine status, view (withStatus engine status) = view engine
  /-- It does not show the open sources. -/
  opened : ∀ (engine : Engine) opened, view { engine with opened } = view engine
  /-- It does not show the directory of the project. -/
  projectRoot : ∀ (engine : Engine) projectRoot, view { engine with projectRoot } = view engine
  /-- It does not show the end of a watch. -/
  unwatched : ∀ engine : Engine, view engine.stopWatching = view engine
  /-- It does not show the start of a watch. -/
  watched : ∀ (engine : Engine) path directory watch,
    view { engine.emit (.watched path directory) with watch } = view engine
  /-- It does not show a source that is read again. -/
  reloaded : ∀ (engine : Engine) buffer opened,
    view { engine with buffer, opened, state := engine.state.updateSource buffer.text } =
      view engine
  /-- It does not show a source that takes the place of another. -/
  shown : ∀ engine buffer, view (showBuffer engine buffer) = view engine

section Sourceless

variable (apart : Sourceless view)
include apart

/-- A part of such a view. -/
theorem Sourceless.part {δ : Type} (part : γ → δ) :
    Sourceless fun engine => part (view engine) where
  status engine status := congrArg part (apart.status engine status)
  opened engine opened := congrArg part (apart.opened engine opened)
  projectRoot engine projectRoot := congrArg part (apart.projectRoot engine projectRoot)
  unwatched engine := congrArg part (apart.unwatched engine)
  watched engine path directory watch :=
    congrArg part (apart.watched engine path directory watch)
  reloaded engine buffer opened := congrArg part (apart.reloaded engine buffer opened)
  shown engine buffer := congrArg part (apart.shown engine buffer)

/-- Watching a file. -/
theorem Sourceless.keeps_startWatching (disk : Disk) (path : String) :
    Keeps view (startWatching disk path) := by
  refine keeps_bind (keeps_lift _) fun resolved => ?_
  split
  · refine keeps_bind (keeps_lift _) fun watch => keeps_modify fun engine => ?_
    exact (apart.watched _ _ _ _).trans (apart.unwatched engine)
  · exact keeps_pure _

/-- Reading the source again. -/
theorem Sourceless.keeps_loadSource (disk : Disk) : Keeps view (loadSource disk) := by
  refine keeps_bind keeps_get fun engine => ?_
  have replaced : ∀ buffer : Buffer, Keeps view (modify fun now : Engine => { now with
      buffer
      opened := now.opened.filter (·.1 ≠ engine.state.sourcePath)
      state := now.state.updateSource buffer.text } : Action Unit) :=
    fun buffer => keeps_modify fun now => apart.reloaded now buffer _
  dsimp only
  split
  · exact keeps_bind (keeps_pure _) replaced
  · refine keeps_bind (keeps_modify fun now => apart.status now _) fun _ => ?_
    exact keeps_bind (keeps_pure _) replaced
  · exact keeps_bind (keeps_throw _) replaced

/-- Showing the source of a location in a file. -/
theorem Sourceless.keeps_visitFile (disk : Disk) (location : Location) :
    Keeps view (visitFile disk location) := by
  refine keeps_bind keeps_get fun engine => keeps_bind (keeps_lift _) fun found => ?_
  split
  · exact keeps_throw _
  · refine keeps_bind keeps_get fun now => ?_
    dsimp only
    split
    · refine keeps_bind (keeps_lift _) fun buffer => keeps_bind (keeps_lift _) fun root => ?_
      refine keeps_bind (keeps_modify fun now => apart.projectRoot now root) fun _ => ?_
      refine keeps_bind (apart.keeps_startWatching disk _) fun _ => ?_
      exact keeps_bind (keeps_modify fun now => apart.shown now buffer) fun _ => keeps_pure _
    · exact keeps_pure _

/-- Showing the source of a location. -/
theorem Sourceless.keeps_visit (disk : Disk) (location : Location) :
    Keeps view (visit disk location) := by
  unfold visit
  split
  · exact apart.keeps_visitFile disk location
  · exact apart.keeps_visitFile disk location
  · refine keeps_bind (keeps_openPath apart.opened disk _) fun buffer => ?_
    refine keeps_bind (keeps_modify fun engine => ?_) fun _ => keeps_pure _
    exact (apart.shown _ buffer).trans (apart.unwatched engine)

/-- Showing the source of a definition keeps what does not show the definition either. -/
theorem Sourceless.keeps_showDefinition
    (defined : ∀ (engine : Engine) definition status,
      view (engine.withState fun state => { state with definition, status }) = view engine)
    (disk : Disk) (symbol : String) (found : Definition) :
    Keeps view (showDefinition disk symbol found) := by
  refine keeps_tryCatch ?_ fun fault => ?_
  · refine keeps_bind (apart.keeps_visit disk _) fun location => keeps_modify fun engine => ?_
    exact defined engine (some { found with location })
      (symbol ++ " -> " ++ location.path ++ ":" ++ toString location.line)
  · split
    · exact keeps_modify fun engine => defined engine none _
    · exact keeps_throw _

end Sourceless

end Keeps

/-! ## What tells which evaluation runs -/

/-- The messages that were sent, in order. -/
def messages (engine : Engine) : List Message := engine.effects.filterMap Effect.message?

/-- The part of the engine that requests and their ends change. -/
structure Tracking where
  /-- The session. -/
  session : Session Purpose
  /-- A tracked request is being sent. -/
  sending : Bool
  /-- The requests that ended while the current one was being sent. -/
  endedEarly : List String
  /-- The identity of the evaluation that runs. -/
  pending : Option String
  /-- How many entries the transcript keeps. -/
  limit : Datum
  /-- The messages that were sent. -/
  messages : List Message

/-- What requests and their ends change. -/
def tracking (engine : Engine) : Tracking :=
  ⟨engine.session, engine.sending, engine.endedEarly, engine.state.pending,
    engine.state.transcriptLimit, engine.messages⟩

/-- What happens outside is a request only if a message is sent. -/
theorem tracking_emit {effect : Effect} (silent : effect.message? = none) (engine : Engine) :
    (engine.emit effect).tracking = engine.tracking := by
  simp [tracking, emit, messages, silent]

/-- Telling the view is no request. -/
theorem tracking_notify (engine : Engine) : engine.notify.tracking = engine.tracking :=
  tracking_emit rfl engine

/-- Ending a watch is no request. -/
theorem tracking_stopWatching (engine : Engine) :
    engine.stopWatching.tracking = engine.tracking := by
  unfold stopWatching
  split
  · exact tracking_emit rfl engine
  · rfl

/-- A status is no request. -/
theorem tracking_withStatus (engine : Engine) (status : String) :
    (engine.withStatus status).tracking = engine.tracking := rfl

/-- An entry of the transcript is no request. -/
theorem append_keeps (kind : Transcript.Kind) (text : Datum) : Keeps tracking (append kind text) :=
  fun _ => rfl

/-- Sources are no requests. -/
theorem sourceless_tracking : Sourceless tracking where
  status := tracking_withStatus
  opened _ _ := rfl
  projectRoot _ _ := rfl
  unwatched := tracking_stopWatching
  watched engine _ _ _ := tracking_emit rfl engine
  reloaded _ _ _ := rfl
  shown _ _ := rfl

end Engine
end EvalDesk
