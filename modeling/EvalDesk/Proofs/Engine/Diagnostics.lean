import EvalDesk.Proofs.Engine.Requests
import EvalDesk.Proofs.Placement.Landing

/-!
# Diagnostics of code from the source

Part of the source is sent as code of its own, and the server counts lines and columns from the
first character it was sent. The decoration starts at the character that is meant exactly when the
line that is remembered for the code is the one on which the part starts, and when on the first line
nothing but blanks is passed over for the text in front of the part. So code that starts in the
middle of a line, or below the first line of its outermost form, is marked elsewhere.
-/
namespace EvalDesk.Engine

/-- The source as it is shown, and what the transcript keeps. -/
structure Scene where
  /-- The source. -/
  buffer : Buffer
  /-- The path under which it is shown. -/
  sourcePath : String
  /-- How many entries the transcript keeps. -/
  limit : Datum

/-- What is shown. -/
def scene (engine : Engine) : Scene :=
  ⟨engine.buffer, engine.state.sourcePath, engine.state.transcriptLimit⟩

section Keeps

variable {β : Type} {view : Engine → β}

/-- The end of a request keeps what does not show it. -/
theorem complete_keeps
    (remembered : ∀ engine names, view { engine with endedEarly := names } = view engine)
    (ended : ∀ (engine : Engine) pending ns status,
      view (engine.withState fun state => { state with pending, ns, status }) = view engine)
    (statuses : List String) (id : Datum) : Keeps view (complete statuses id) := by
  refine keeps_bind (keeps_bind keeps_get fun engine => ?_) fun _ =>
    keeps_modify fun engine => ended engine _ _ _
  split
  · split
    · exact keeps_modify fun engine => remembered engine _
    · exact keeps_throw _
    · exact keeps_throw _
    · exact keeps_pure _
  · exact keeps_pure _

/-- Events of a request for documentation keep what shows neither it nor the end of a request. -/
theorem keeps_documentationEvent
    (written : ∀ (engine : Engine) documentation,
      view (engine.withState fun state => { state with documentation }) = view engine)
    (remembered : ∀ engine names, view { engine with endedEarly := names } = view engine)
    (ended : ∀ (engine : Engine) pending ns status,
      view (engine.withState fun state => { state with pending, ns, status }) = view engine)
    (symbol : String) (event : Event) : Keeps view (documentationEvent symbol event) := by
  cases event with
  | value result ns id => exact keeps_pure _
  | output text id => exact keeps_addDocumentation written text
  | errorOutput text id => exact keeps_addDocumentation written text
  | completed statuses id =>
    refine keeps_bind (complete_keeps remembered ended statuses id) fun _ => ?_
    refine keeps_modify fun engine => ?_
    by_cases blank : Text.isBlankText engine.state.documentation = true
    · simp only [withState, if_pos blank]
      exact written engine _
    · simp only [withState, if_neg blank]

/-- A view that does not show how an evaluation goes on: neither the entries of the transcript nor
the value and the namespace, nor its end. -/
structure Resultless (view : Engine → β) : Prop where
  /-- It does not show the entries of the transcript. -/
  added : ∀ kind text, Keeps view (append kind text)
  /-- It does not show the value. -/
  valued : ∀ (engine : Engine) lastValue,
    view (engine.withState fun state => { state with lastValue }) = view engine
  /-- It does not show that the request ended while it was being sent. -/
  remembered : ∀ engine names, view { engine with endedEarly := names } = view engine
  /-- It shows neither the namespace nor what is pending. -/
  ended : ∀ (engine : Engine) pending ns status,
    view (engine.withState fun state => { state with pending, ns, status }) = view engine

/-- Events of an evaluation without error output keep what does not show how it goes on. -/
theorem Resultless.keeps_quiet (apart : Resultless view) (disk : Disk) (origin : Origin)
    {event : Event} (quiet : ∀ text id, event ≠ .errorOutput text id) :
    Keeps view (evaluationEvent disk origin event) := by
  cases event with
  | value result ns id =>
    exact keeps_value apart.valued apart.added (fun engine ns => apart.ended engine _ ns _) disk
      origin result ns id
  | output text id => exact apart.added _ _
  | errorOutput text id => exact absurd rfl (quiet text id)
  | completed statuses id => exact complete_keeps apart.remembered apart.ended statuses id

/-- Events of an evaluation keep what shows neither how it goes on nor its diagnostics. -/
theorem Resultless.keeps_event (apart : Resultless view)
    (noted : ∀ (engine : Engine) diagnostic,
      view (engine.withState (·.addDiagnostic diagnostic)) = view engine)
    (unseen : ∀ (engine : Engine) opened, view { engine with opened } = view engine)
    (drawn : ∀ engine placement, view (decorate engine placement) = view engine)
    (disk : Disk) (origin : Origin) (event : Event) :
    Keeps view (evaluationEvent disk origin event) := by
  by_cases complains : ∃ text id, event = .errorOutput text id
  · obtain ⟨text, id, rfl⟩ := complains
    exact keeps_bind (apart.added _ _) fun _ =>
      keeps_showDiagnostic noted unseen drawn disk text origin
  · exact apart.keeps_quiet disk origin fun text id same => complains ⟨text, id, same⟩

/-- What is kept is kept of every part of it. -/
theorem keeps_part {α γ : Type} {action : Action α} (keeps : Keeps view action) (part : β → γ) :
    Keeps (part ∘ view) action := fun engine => congrArg part (keeps engine)

end Keeps

/-- Events leave alone what neither the memory of ends nor what is pending shows of what runs. -/
theorem purposeEvent_keeps_part {γ : Type} {part : Tracking → γ}
    (apart : ∀ (tracking : Tracking) endedEarly pending,
      part { tracking with endedEarly, pending } = part tracking)
    (disk : Disk) (purpose : Purpose) (event : Event) :
    Keeps (part ∘ tracking) (purposeEvent disk purpose event) := by
  by_cases goes_on : event.isEnd = false
  · exact keeps_part (purposeEvent_keeps disk purpose goes_on) part
  · cases event with
    | completed statuses id =>
      have ends : Keeps (part ∘ tracking) (complete statuses id) :=
        complete_keeps (fun engine names => apart engine.tracking names _)
          (fun engine pending _ _ => apart engine.tracking _ pending) statuses id
      cases purpose with
      | evaluation origin => exact ends
      | documentation symbol =>
        refine keeps_bind ends fun _ => keeps_modify fun engine => ?_
        simp only [withState]
        split <;> rfl
      | definition symbol =>
        refine keeps_bind ends fun _ => keeps_bind keeps_get fun engine => ?_
        split
        · exact keeps_modify fun _ => rfl
        · exact keeps_part
            (sourceless_tracking.keeps_showDefinition (fun _ _ _ => rfl) disk symbol _) part
      | unheard => exact keeps_pure _
    | value | output | errorOutput => exact absurd rfl goes_on

/-- Events leave the session alone. -/
theorem purposeEvent_keeps_session (disk : Disk) (purpose : Purpose) (event : Event) :
    Keeps (·.session) (purposeEvent disk purpose event) :=
  @purposeEvent_keeps_part _ Tracking.session (fun _ _ _ => rfl) disk purpose event

/-- A notice leaves the session alone. -/
theorem session_takeNotice (disk : Disk) (engine : Engine) (notice : Notice Purpose) :
    (takeNotice disk engine notice).session = engine.session := by
  cases notice with
  | ready identity => rfl
  | event purpose event =>
    by_cases heard : purpose = .unheard
    · rw [heard]
      rfl
    · rw [takeNotice_heard disk heard]
      exact view_reporting (purposeEvent_keeps_session disk purpose event) (fun _ _ => rfl)
        (fun _ => rfl) engine

/-- Hearing an answer keeps the requests. -/
theorem requests_hear (disk : Disk) (index : Nat) (engine : Engine) (answer : Table) :
    (hear disk index engine answer).1.session.requests = engine.session.requests := by
  rw [hear]
  cases received : engine.session.receive index answer with
  | error fault => rfl
  | ok result =>
    obtain ⟨session, notices⟩ := result
    have kept := (Fallible.chains_view (·.session)).foldl (session_takeNotice disk)
      { engine with session } notices
    exact (congrArg Session.requests kept).trans (receive_cases received).1

/-! ## What an evaluation leaves as it is -/

/-- Events of an evaluation leave what is shown alone. -/
theorem evaluationEvent_keeps_scene (disk : Disk) (origin : Origin) (event : Event) :
    Keeps scene (evaluationEvent disk origin event) := by
  have apart : Resultless scene :=
    ⟨fun _ _ _ => rfl, fun _ _ => rfl, fun _ _ => rfl, fun _ _ _ _ => rfl⟩
  exact apart.keeps_event (fun _ _ => rfl) (fun _ _ => rfl) (fun _ _ => rfl) disk origin event

/-- Only error output of an evaluation is decorated. -/
theorem evaluationEvent_keeps_decorations (disk : Disk) (origin : Origin) {event : Event}
    (quiet : ∀ text id, event ≠ .errorOutput text id) :
    Keeps (·.decorations) (evaluationEvent disk origin event) := by
  have apart : Resultless (·.decorations) :=
    ⟨fun _ _ _ => rfl, fun _ _ => rfl, fun _ _ => rfl, fun _ _ _ _ => rfl⟩
  exact apart.keeps_quiet disk origin quiet

/-- Events of an evaluation leave what is shown alone, one after another. -/
theorem scene_takeNotices (disk : Disk) (origin : Origin) (events : List Event) (engine : Engine) :
    ((events.map (Notice.event (.evaluation origin))).foldl (takeNotice disk) engine).scene =
      engine.scene := by
  rw [List.foldl_map]
  refine (Fallible.chains_view scene).foldl (fun now event => ?_) engine events
  exact view_reporting (evaluationEvent_keeps_scene disk origin event) (fun _ _ => rfl)
    (fun _ => rfl) now

/-- Events of an evaluation without error output draw nothing. -/
theorem decorations_takeNotices (disk : Disk) (origin : Origin) {events : List Event}
    (quiet : ∀ event ∈ events, ∀ text id, event ≠ .errorOutput text id) (engine : Engine) :
    ((events.map (Notice.event (.evaluation origin))).foldl (takeNotice disk) engine).decorations =
      engine.decorations := by
  induction events generalizing engine with
  | nil => rfl
  | cons event rest ih =>
    rw [List.map_cons, List.foldl_cons, ih fun other member => quiet other (.tail _ member)]
    exact view_reporting (evaluationEvent_keeps_decorations disk origin (quiet event (.head _)))
      (fun _ _ => rfl) (fun _ => rfl) engine

/-- What reports a failure draws what the action draws. -/
theorem decorations_reporting (engine : Engine) (action : Action Unit) :
    (engine.reporting action).decorations = (engine.perform action).1.decorations := by
  rw [reporting]
  cases engine.perform action with
  | mk after result => cases result <;> rfl

/-! ## What error output draws -/

/-- A diagnostic without a file is placed in the source that is shown. -/
theorem place_shown {diagnostic : Diagnostic} {origin : Origin} {engine : Engine} (disk : Disk)
    (unnamed : diagnostic.file = none) (shown : engine.state.sourcePath = origin.path) :
    place diagnostic origin (engine.openBuffer disk) =
      (diagnostic.placeIn origin.path (origin.formLine + diagnostic.line - 1) engine.buffer).map
        fun placement => (placement, some engine.opened) := by
  have opened : engine.openBuffer disk origin.path = .ok (engine.buffer, engine.opened) := by
    rw [openBuffer, otherBuffer?, if_pos shown.symm]
    rfl
  simp only [place, Diagnostic.place, unnamed, opened]
  cases diagnostic.placeIn origin.path (origin.formLine + diagnostic.line - 1) engine.buffer <;> rfl

/-- A diagnostic with a column is drawn over the expression at its line and column, if its line
exists, and nothing is drawn otherwise. -/
theorem placeIn_column {diagnostic : Diagnostic} {column : Int}
    (told : diagnostic.column = some column) (target : String) (line : Int) (buffer : Buffer) :
    (∃ span placement, buffer.expressionSpan line column = .ok span ∧
        diagnostic.placeIn target line buffer = .ok (some placement) ∧
        placement.start = span.start ∧ span.start ≤ placement.stop) ∨
      ((∃ fault, buffer.expressionSpan line column = .error fault) ∧
        diagnostic.placeIn target line buffer = .ok none) := by
  by_cases inside : buffer.hasLine line = true
  · left
    obtain ⟨extent, found⟩ : ∃ extent, buffer.lineSpan line = .ok extent := by
      rw [Buffer.lineSpan, Buffer.lineStart, if_pos inside]
      exact ⟨_, rfl⟩
    obtain ⟨ordered, bound⟩ := Buffer.lineSpan_bounds found
    let span := buffer.spanFrom extent (extent.start + ((max column 1).toNat - 1))
    have drawn : buffer.expressionSpan line column = .ok span := by
      rw [Buffer.expressionSpan_eq, found]
      rfl
    obtain ⟨_, _, forward⟩ := Buffer.spanFrom_within ordered bound (Nat.le_add_right extent.start
      ((max column 1).toNat - 1))
    let placement : Placement :=
      { target := if buffer.path = "" then target else buffer.path
        start := span.start
        stop := span.stop
        severity := diagnostic.severity
        text := diagnostic.message
        line
        column := diagnostic.column }
    refine ⟨span, placement, drawn, ?_, rfl, forward⟩
    simp only [Diagnostic.placeIn, inside, told, drawn, Bool.not_true, Bool.false_eq_true,
      ↓reduceIte]
    rw [← told]
    rfl
  · right
    constructor
    · rw [Buffer.expressionSpan_eq, Buffer.lineSpan, Buffer.lineStart, if_neg inside]
      exact ⟨_, rfl⟩
    · have outside : buffer.hasLine line = false := by simpa using inside
      simp only [Diagnostic.placeIn, outside, Bool.not_false, ↓reduceIte]
      rfl

/-- What is drawn for a diagnostic without a file starts where its expression in the shown source
does, and nothing is drawn when its line does not exist. -/
theorem decorations_addDiagnostic (disk : Disk) {diagnostic : Diagnostic} {origin : Origin}
    {engine : Engine} {column : Int} (unnamed : diagnostic.file = none)
    (told : diagnostic.column = some column) (shown : engine.state.sourcePath = origin.path)
    (start : Nat) :
    (∃ decoration : Decoration,
        (engine.perform (addDiagnostic disk diagnostic origin)).1.decorations =
          engine.decorations ++ [decoration] ∧ decoration.start = start) ↔
      ∃ span, engine.buffer.expressionSpan (origin.formLine + diagnostic.line - 1) column =
        .ok span ∧ span.start = start := by
  let noted := engine.withState (·.addDiagnostic diagnostic)
  have placed := @place_shown diagnostic origin noted disk unnamed shown
  rcases placeIn_column told origin.path (origin.formLine + diagnostic.line - 1) engine.buffer with
    ⟨span, placement, drawn, found, first, forward⟩ | ⟨⟨fault, missing⟩, found⟩
  · have performed : (engine.perform (addDiagnostic disk diagnostic origin)).1.decorations =
        engine.decorations ++ [.between placement.target placement.start placement.stop
          placement.severity.word placement.text placement.line] := by
      simp only [noted, withState, found, Except.map] at placed
      simp only [addDiagnostic, perform_bind, perform_modify, perform_get, perform_lift, withState,
        placed]
      rfl
    have begins : (Decoration.between placement.target placement.start placement.stop
        placement.severity.word placement.text placement.line).start = span.start := by
      simp only [Decoration.between]
      omega
    rw [performed, drawn]
    constructor
    · rintro ⟨decoration, same, there⟩
      cases List.singleton_inj.mp (List.append_cancel_left same)
      exact ⟨span, rfl, Int.ofNat.inj (begins.symm.trans there)⟩
    · rintro ⟨other, same, rfl⟩
      cases same
      exact ⟨_, rfl, begins⟩
  · have performed : (engine.perform (addDiagnostic disk diagnostic origin)).1.decorations =
        engine.decorations := by
      simp only [noted, withState, found, Except.map] at placed
      simp only [addDiagnostic, perform_bind, perform_modify, perform_get, perform_lift, withState,
        placed]
      rfl
    rw [performed, missing]
    constructor
    · rintro ⟨decoration, same, _⟩
      simp at same
    · rintro ⟨span, same, _⟩
      contradiction

/-- Error output with a diagnostic draws what the diagnostic does, when the transcript takes the
output. -/
theorem perform_errorOutput (disk : Disk) {engine : Engine} {output : String}
    {diagnostic : Diagnostic} (origin : Origin)
    (takes : Transcript.Takes engine.state.transcriptLimit)
    (first : firstDiagnostic? (Text.outputLines output) = some diagnostic) (id : Datum) :
    engine.perform (evaluationEvent disk origin (.errorOutput (.text output) id)) =
      { engine with state := (engine.state.append .errorOutput (.text output)).1 }.perform
        (addDiagnostic disk diagnostic origin) := by
  rw [evaluationEvent, perform_bind, perform_append,
    DeskState.append_takes takes .errorOutput (.text output), showDiagnostic]
  simp only [perform_bind, perform_lift, errorLines, first]

/-- An answer complains about a place of code that was sent alone: its error output has a diagnostic
without a file, which tells the line and column of the place in the code. -/
structure Complains (answer : Table) (code : Buffer) (place : Nat) : Prop where
  /-- The statuses can be read. -/
  readable : ∃ words, Event.statuses answer = .ok words
  /-- The error output has the diagnostic. -/
  output : ∃ output diagnostic, answer.get? "err" = some (.text output) ∧
    firstDiagnostic? (Text.outputLines output) = some diagnostic ∧ diagnostic.file = none ∧
    diagnostic.line = (code.position place).1 ∧ diagnostic.column = some (code.position place).2

/-- The engine waits for answers to an evaluation from an origin, and shows the source from which it
was sent. -/
structure Awaits (engine : Engine) (buffer : Buffer) (index : Nat) (origin : Origin) : Prop where
  /-- The source is the buffer. -/
  source : engine.buffer = buffer
  /-- It is shown under its path. -/
  shown : engine.state.sourcePath = buffer.path
  /-- The transcript takes what comes back. -/
  takes : Transcript.Takes engine.state.transcriptLimit
  /-- The evaluation is one of the requests. -/
  request : (engine.session.requests[index]?).map (·.2) = some (.work (.evaluation origin))

/-- The talk of an evaluation that is waited for. -/
theorem Awaits.exists_talk {engine : Engine} {buffer : Buffer} {index : Nat} {origin : Origin}
    (awaits : engine.Awaits buffer index origin) :
    ∃ talk, engine.session.talks[index]? = some talk ∧
      talk.topic = .work (.evaluation origin) := Session.exists_talk awaits.request

/-- The error output of an answer comes behind everything else that goes on. -/
theorem goingOn_errorOutput {answer : Table} {output : Datum}
    (error : answer.get? "err" = some output) :
    ∃ before : List Event, (∀ event ∈ before, ∀ text id, event ≠ .errorOutput text id) ∧
      Event.goingOn answer = before ++ [.errorOutput output (answer.get "id")] := by
  refine ⟨_, ?_, by rw [Event.goingOn, error]; rfl⟩
  intro event member text id same
  subst same
  simp at member

/-- The decoration of a complaint starts at a place exactly when the expression at its line and
column does. -/
theorem decorations_hear (disk : Disk) {engine : Engine} {buffer code : Buffer} {index place : Nat}
    {origin : Origin} (awaits : engine.Awaits buffer index origin)
    (from_source : origin.path = buffer.path) {answer : Table}
    (complains : Complains answer code place) (start : Nat) :
    (∃ decoration : Decoration, (hear disk index engine answer).1.decorations =
        engine.decorations ++ [decoration] ∧ decoration.start = start) ↔
      ∃ span, buffer.expressionSpan (origin.formLine + (code.position place).1 - 1)
        (code.position place).2 = .ok span ∧ span.start = start := by
  obtain ⟨words, read⟩ := complains.readable
  obtain ⟨output, diagnostic, error, first, unnamed, line, column⟩ := complains.output
  obtain ⟨talk, known, topic⟩ := awaits.exists_talk
  obtain ⟨session, statuses, received, _, _⟩ := receive_work known topic read
  obtain ⟨before, quiet, events⟩ := goingOn_errorOutput error
  let heard := ((before.map (Notice.event (.evaluation origin))).foldl (takeNotice disk)
    { engine with session })
  have scene : heard.scene = engine.scene := scene_takeNotices disk origin before _
  have drawn : heard.decorations = engine.decorations :=
    decorations_takeNotices disk origin quiet _
  have takes : Transcript.Takes heard.state.transcriptLimit := by
    rw [show heard.state.transcriptLimit = _ from congrArg Scene.limit scene]
    exact awaits.takes
  have final : (hear disk index engine answer).1.decorations =
      (heard.perform (evaluationEvent disk origin
        (.errorOutput (.text output) (answer.get "id")))).1.decorations := by
    simp only [hear, received, events, List.map_append, List.foldl_append, List.map_cons,
      List.map_nil, List.foldl_cons, List.foldl_nil]
    -- The end of the request, which may come behind the error output, draws nothing.
    have ending : ∀ event ∈ (if words.contains Event.doneStatus then
        [Event.completed statuses (answer.get "id")] else []), ∀ text id,
        event ≠ .errorOutput text id := by
      intro event member text id same
      subst same
      split at member <;> simp at member
    rw [decorations_takeNotices disk origin ending]
    exact decorations_reporting heard _
  rw [final, perform_errorOutput disk origin takes first, ← drawn, ← line]
  have shown : heard.state.sourcePath = origin.path := by
    rw [show heard.state.sourcePath = _ from congrArg Scene.sourcePath scene]
    exact awaits.shown.trans from_source.symm
  have source : heard.buffer = buffer := by
    rw [show heard.buffer = _ from congrArg Scene.buffer scene]
    exact awaits.source
  rw [← source]
  exact @decorations_addDiagnostic disk diagnostic origin
    { heard with state := (heard.state.append .errorOutput (.text output)).1 } _ unnamed column
    shown start

end EvalDesk.Engine
