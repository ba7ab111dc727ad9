import EvalDesk.Proofs.Engine.Shown

/-!
# Evaluating parts of the source

Four actions evaluate a part of the source. All of them send the characters of a span and remember
an origin for them, which is the line of the outermost form at some offset. The main result says
exactly when a complaint about a character of the part is drawn from that character.
-/
namespace EvalDesk

/-- A part of the source that is evaluated. -/
inductive SourcePart where
  /-- The outermost form at an offset. -/
  | topLevel (offset : Int)
  /-- The expression before an offset. -/
  | last (offset : Int)
  /-- The text between two offsets. -/
  | region (first second : Int)
  /-- The form that declares the namespace. -/
  | namespaceForm

namespace SourcePart

/-- The span of a part, if there is one to evaluate. -/
def span? (buffer : Buffer) : SourcePart → Option Form.Span
  | .topLevel offset => buffer.topLevelAt offset
  | .last offset => buffer.lastBefore offset
  | .region first second =>
    let span : Form.Span := ⟨Text.nearest buffer.chars.length (min first second),
      Text.nearest buffer.chars.length (max first second)⟩
    if Text.isBlankText (buffer.spanText span) then none else some span
  | .namespaceForm => buffer.namespaceForm?

/-- The offset at which the outermost form of a part is looked for. -/
def anchor (span : Form.Span) : SourcePart → Int
  | .topLevel _ | .namespaceForm => span.start
  | .last offset => offset
  | .region first second => min first second

/-- Evaluate a part. -/
def evaluate (world : World) : SourcePart → Engine.Action Unit
  | .topLevel offset => Engine.evaluateTopLevel world offset
  | .last offset => Engine.evaluateLast world offset
  | .region first second => Engine.evaluateRegion world first second
  | .namespaceForm => Engine.evaluateNamespaceForm world

end SourcePart

namespace Engine

/-- A span is evaluated by sending its text. -/
theorem perform_evaluateSpan (world : World) (engine : Engine) (span : Form.Span) (offset : Int) :
    engine.perform (evaluateSpan world span offset) =
      engine.perform (evaluate world (engine.buffer.spanText span) (engine.originAt offset)) := by
  rw [evaluateSpan, perform_bind, perform_get]

/-- A part is evaluated by sending the text of its span. -/
theorem perform_evaluate (world : World) {engine : Engine} {part : SourcePart} {span : Form.Span}
    (found : part.span? engine.buffer = some span) :
    engine.perform (part.evaluate world) = engine.perform
      (evaluate world (engine.buffer.spanText span) (engine.originAt (part.anchor span))) := by
  cases part with
  | topLevel offset =>
    have there : engine.buffer.topLevelAt offset = some span := found
    simp only [SourcePart.evaluate, evaluateTopLevel, perform_bind, perform_get, there]
    exact perform_evaluateSpan world engine span _
  | last offset =>
    have there : engine.buffer.lastBefore offset = some span := found
    simp only [SourcePart.evaluate, evaluateLast, perform_bind, perform_get, there]
    exact perform_evaluateSpan world engine span _
  | region first second =>
    simp only [SourcePart.span?] at found
    split at found
    · contradiction
    · rename_i ink
      cases found
      have text : engine.buffer.substring (min first second) (max first second) =
          engine.buffer.spanText ⟨Text.nearest engine.buffer.chars.length (min first second),
            Text.nearest engine.buffer.chars.length (max first second)⟩ := rfl
      rw [SourcePart.evaluate, evaluateRegion, perform_bind, perform_get]
      simp only [text]
      rw [if_neg ink]
      rfl
  | namespaceForm =>
    have there : engine.buffer.namespaceForm? = some span := found
    simp only [SourcePart.evaluate, evaluateNamespaceForm, perform_bind, perform_get, there]
    exact perform_evaluateSpan world engine span _

/-- What is shown and asked for decides what is waited for. -/
theorem Awaits.of_same {engine after : Engine} {buffer : Buffer} {index : Nat} {origin : Origin}
    (awaits : engine.Awaits buffer index origin) (scene : after.scene = engine.scene)
    (requests : after.session.requests = engine.session.requests) :
    after.Awaits buffer index origin := by
  refine ⟨?_, ?_, ?_, ?_⟩
  · exact (congrArg Scene.buffer scene).trans awaits.source
  · exact (congrArg Scene.sourcePath scene).trans awaits.shown
  · rw [show after.state.transcriptLimit = _ from congrArg Scene.limit scene]
    exact awaits.takes
  · rw [requests]
    exact awaits.request

/-- An answer to an evaluation leaves it waited for. -/
theorem Awaits.hear {engine : Engine} {buffer : Buffer} {index : Nat} {origin : Origin}
    (awaits : engine.Awaits buffer index origin) (disk : Disk) (answer : Table) :
    (hear disk index engine answer).1.Awaits buffer index origin := by
  refine awaits.of_same ?_ (requests_hear disk index engine answer)
  obtain ⟨talk, known, topic⟩ := awaits.exists_talk
  cases read : Event.statuses answer with
  | error fault => rw [hear_unread disk known topic read]
  | ok words =>
    obtain ⟨session, statuses, received, _, _⟩ := receive_work known topic read
    simp only [Engine.hear, received]
    exact scene_takeNotices disk origin _ _

/-- An evaluation that was sent is waited for, whatever has come back by then. -/
theorem awaits_send (world : World) {engine : Engine} (message : Message) (origin : Origin)
    (shown : engine.state.sourcePath = engine.buffer.path)
    (takes : Transcript.Takes engine.state.transcriptLimit) :
    (engine.perform (send world message (.work (.evaluation origin)))).1.Awaits engine.buffer
      engine.session.talks.length origin := by
  have waits : (engine.recorded message (.work (.evaluation origin))).Awaits engine.buffer
      engine.session.talks.length origin := by
    refine ⟨rfl, shown, takes, ?_⟩
    simp only [recorded, Session.requests_record]
    simp [Session.requests]
  have kept : ∀ (now : Engine) (answer : Table),
      now.Awaits engine.buffer engine.session.talks.length origin →
      (hear world.disk engine.session.talks.length now answer).1.Awaits engine.buffer
        engine.session.talks.length origin := fun _ answer awaits => awaits.hear world.disk answer
  exact send_leads (Fallible.chains_property _) kept message _ waits

/-- An evaluation that was asked for is waited for, also when it failed to be sent. -/
theorem awaits_dispatch (world : World) {engine : Engine} (op : String) (fields : Table)
    (origin : Origin) (shown : engine.state.sourcePath = engine.buffer.path)
    (takes : Transcript.Takes engine.state.transcriptLimit) :
    (engine.dispatch world op fields (.evaluation origin) true).Awaits engine.buffer
      engine.session.talks.length origin := by
  have sent := @awaits_send world { engine with endedEarly := [], sending := true }
    (engine.session.message op fields) origin shown takes
  obtain ⟨asked, kept, told⟩ := dispatch_leads
    (Fallible.chains_property
      (Engine.Awaits · engine.buffer engine.session.talks.length origin))
    (fun _ _ awaits => awaits.of_same rfl rfl) (fun _ _ awaits => awaits.of_same rfl rfl)
    (fun _ awaits => awaits.of_same rfl rfl) op fields (.evaluation origin) true engine
  rw [told]
  exact (kept sent).of_same rfl rfl

/-- An evaluation of code from the shown source is waited for. -/
theorem awaits_evaluate (world : World) {engine : Engine} (code : String) (origin : Origin)
    (shown : engine.state.sourcePath = engine.buffer.path)
    (takes : Transcript.Takes engine.state.transcriptLimit) :
    (engine.perform (evaluate world code origin)).1.Awaits engine.buffer
      engine.session.talks.length origin := by
  obtain ⟨after, result, begun, reset, succeeds, _⟩ := perform_beginCycle engine code
  have scene : after.scene = engine.scene := by
    have same := beginCycle_keeps_course code engine
    rw [begun] at same
    exact congrArg Course.scene same
  have session : after.session = engine.session := congrArg Tracking.session reset
  have buffer : after.buffer = engine.buffer := congrArg Scene.buffer scene
  have path : after.state.sourcePath = engine.state.sourcePath := congrArg Scene.sourcePath scene
  have limit : after.state.transcriptLimit = engine.state.transcriptLimit :=
    congrArg Scene.limit scene
  have waits := @awaits_dispatch world after "eval"
    (Session.evalFields (.text code) .null .null .null) origin (by rw [path, buffer, shown])
    (by rw [limit]; exact takes)
  rw [buffer, session] at waits
  rw [evaluate, perform_bind, begun, succeeds takes]
  exact waits

/-- Code at an offset of the source comes from the source. -/
theorem originAt_path (engine : Engine) (offset : Int) :
    (engine.originAt offset).path = engine.buffer.path := by
  simp only [originAt]
  split <;> rfl

/-- A complaint about a character of a slice is drawn from this character exactly when its line is
counted from the line on which the slice starts, and on the first line of the slice only blanks lie
in front of the character, as many as the slice is moved to the right. -/
theorem decorations_of_slice (disk : Disk) {engine : Engine} {buffer : Buffer} {index : Nat}
    {origin : Origin} (awaits : engine.Awaits buffer index origin)
    (from_source : origin.path = buffer.path) {span : Form.Span} {answer : Table} {place : Nat}
    {ink : Char} (complains : Complains answer (buffer.slice span) place)
    (there : (span.of buffer.chars)[place]? = some ink) (apart : Form.isBlank ink = false)
    (code : ink ≠ ';') :
    (∃ decoration : Decoration, (hear disk index engine answer).1.decorations =
        engine.decorations ++ [decoration] ∧
        decoration.start = ((span.start + place : Nat) : Int)) ↔
      origin.formLine = (buffer.position span.start).1 ∧
        Buffer.blanksBefore buffer.chars (span.start + place)
          (buffer.shift span ((buffer.slice span).position place).1) = true := by
  rw [decorations_hear disk awaits from_source complains]
  exact Buffer.expressionSpan_of_slice there apart code rfl origin.formLine

/-- In every run of a new engine whose transcript takes entries, a complaint about a character of a
part of the source is drawn from this character exactly when two things hold: the outermost form
that is looked for starts on the line on which the part starts, and, if the character is on the
first line of the part, as many characters in front of it as stand in front of the part on its line
are blank. The part is sent by its text alone, and the complaint may come at any time while the
evaluation is waited for. -/
theorem complaint_lands_iff {disk : Disk} {source : String} {settings : Settings}
    {first engine : Engine} (created : Engine.create disk source settings = .ok first)
    (reachable : Reachable first engine)
    (takes : Transcript.Takes (settings.get "transcript_limit" DeskState.usualLimit))
    {part : SourcePart} {span : Form.Span} (found : part.span? engine.buffer = some span)
    (world : World) :
    let origin := engine.originAt (part.anchor span)
    engine.perform (part.evaluate world) =
        engine.perform (evaluate world (engine.buffer.spanText span) origin) ∧
      (engine.perform (part.evaluate world)).1.Awaits engine.buffer engine.session.talks.length
        origin ∧
      ∀ (disk : Disk) (now : Engine) (answer : Table) (place : Nat) (ink : Char),
        now.Awaits engine.buffer engine.session.talks.length origin →
        Complains answer (engine.buffer.slice span) place →
        (span.of engine.buffer.chars)[place]? = some ink → Form.isBlank ink = false → ink ≠ ';' →
        ((∃ decoration : Decoration,
            (hear disk engine.session.talks.length now answer).1.decorations =
              now.decorations ++ [decoration] ∧
            decoration.start = ((span.start + place : Nat) : Int)) ↔
          origin.formLine = (engine.buffer.position span.start).1 ∧
            Buffer.blanksBefore engine.buffer.chars (span.start + place) (engine.buffer.shift span
              ((engine.buffer.slice span).position place).1) = true) := by
  intro origin
  have shown := shows_of_reachable created reachable
  have same := perform_evaluate world found
  refine ⟨same, ?_, ?_⟩
  · rw [same]
    exact awaits_evaluate world _ origin shown.path (shown.limit ▸ takes)
  · intro disk now answer place ink awaits complains there apart code
    exact decorations_of_slice disk awaits (originAt_path engine _) complains there apart code

/-- A world with one source, in which nothing is ever answered. -/
def soleWorld (text : String) : World :=
  ⟨⟨[(["a.clj"], .file (text.toList.map fun letter => letter.toNat.toUInt8))], Path.ofText "/"⟩,
    fun _ => ⟨none, [], none⟩⟩

/-- Settings in which nothing is set. -/
def plainSettings : Settings := ⟨Path.ofText "/", []⟩

/-- What is computed from a new engine is so for the engine that was created. -/
theorem of_created {α : Type} {disk : Disk} {source : String} {settings : Settings}
    {first : Engine} {compute : Engine → α} {result : α}
    (created : Engine.create disk source settings = .ok first)
    (computed : (Engine.create disk source settings).toOption.map compute = some result) :
    compute first = result := by
  rw [created] at computed
  exact Option.some.inj computed

/-- What is computed from a new engine is so for an engine that was created. -/
theorem exists_created {α : Type} {disk : Disk} {source : String} {settings : Settings}
    {compute : Engine → α} {result : α}
    (computed : (Engine.create disk source settings).toOption.map compute = some result) :
    ∃ first, Engine.create disk source settings = .ok first ∧ compute first = result := by
  cases created : Engine.create disk source settings with
  | error fault =>
    rw [created] at computed
    contradiction
  | ok first => exact ⟨first, rfl, of_created created computed⟩

/-- The engine for the source of a world comes to show it. -/
theorem exists_started {world : World} {text : String}
    (read : (Engine.create world.disk "/a.clj" plainSettings).toOption.map
      (fun first => (first.obey world .start).buffer) = some ⟨"/a.clj", text⟩) :
    ∃ first, Engine.create world.disk "/a.clj" plainSettings = .ok first ∧
      (first.obey world .start).buffer = ⟨"/a.clj", text⟩ := exists_created read

/-- The text of a complaint about a place on the first line of the code. -/
def complaintText (column : String) : String :=
  "Syntax error compiling at (NO_SOURCE_PATH:1:" ++ column ++ ").\n"

/-- An answer with a complaint. -/
def complaintAnswer (column : String) : Table := [("err", .text (complaintText column))]

/-- An answer with a complaint complains. -/
theorem complains_complaintAnswer {column : String} {code : Buffer} {place : Nat}
    (told : (firstDiagnostic? (Text.outputLines (complaintText column))).map
      (fun diagnostic => (diagnostic.file, diagnostic.line, diagnostic.column)) =
        some (none, ((code.position place).1 : Int), some (code.position place).2)) :
    Complains (complaintAnswer column) code place := by
  obtain ⟨diagnostic, first, same⟩ := Option.map_eq_some_iff.mp told
  obtain ⟨unnamed, same⟩ := Prod.mk.inj same
  obtain ⟨line, column⟩ := Prod.mk.inj same
  exact ⟨⟨[], rfl⟩, _, diagnostic, rfl, first, unnamed, line, column⟩

/-- A form at the start of its line is complained about where it is meant. -/
theorem complaint_lands_iff_line_start :
    ∃ first, Engine.create (soleWorld "1\n(b c)").disk "/a.clj" plainSettings = .ok first ∧
      let engine := first.obey (soleWorld "1\n(b c)") .start
      let now := (engine.perform ((SourcePart.topLevel 3).evaluate (soleWorld "1\n(b c)"))).1
      Reachable first engine ∧
      Transcript.Takes (plainSettings.get "transcript_limit" DeskState.usualLimit) ∧
      (SourcePart.topLevel 3).span? engine.buffer = some ⟨2, 7⟩ ∧
      Complains (complaintAnswer "4") (engine.buffer.slice ⟨2, 7⟩) 3 ∧
      ∃ decoration : Decoration, (hear (soleWorld "1\n(b c)").disk engine.session.talks.length now
          (complaintAnswer "4")).1.decorations = now.decorations ++ [decoration] ∧
        decoration.start = 5 := by
  obtain ⟨first, created, buffer⟩ := @exists_started (soleWorld "1\n(b c)") "1\n(b c)"
    (by decide +kernel)
  have reachable := Reachable.step (soleWorld "1\n(b c)") .start (@Reachable.start first)
  have takes : Transcript.Takes (plainSettings.get "transcript_limit" DeskState.usualLimit) :=
    fun _ => ⟨_, rfl⟩
  have found : (SourcePart.topLevel 3).span?
      (first.obey (soleWorld "1\n(b c)") .start).buffer = some ⟨2, 7⟩ := by
    rw [buffer]
    decide +kernel
  have outermost : (first.obey (soleWorld "1\n(b c)") .start).buffer.topLevelAt
      ((⟨2, 7⟩ : Form.Span).start : Int) = some ⟨2, 7⟩ := by
    rw [buffer]
    decide +kernel
  have complains : Complains (complaintAnswer "4")
      ((first.obey (soleWorld "1\n(b c)") .start).buffer.slice ⟨2, 7⟩) 3 := by
    rw [buffer]
    exact complains_complaintAnswer (by decide +kernel)
  obtain ⟨_, awaits, lands⟩ := complaint_lands_iff created reachable takes found
    (soleWorld "1\n(b c)")
  refine ⟨first, created, reachable, takes, found, complains, ?_⟩
  refine (lands _ _ _ 3 'c' awaits complains ?_ (by decide) (by decide)).mpr ⟨?_, ?_⟩
  · rw [buffer]
    decide +kernel
  · simp only [originAt, SourcePart.anchor, outermost]
  · rw [buffer]
    decide +kernel

/-- A complaint about the second form of a line is drawn from the first one, since the column that
is told counts from the start of the form. -/
theorem second_form_complaint_lands_on_first :
    ∃ first, Engine.create (soleWorld "(a) (b)").disk "/a.clj" plainSettings = .ok first ∧
      let engine := first.obey (soleWorld "(a) (b)") .start
      let now := (engine.perform ((SourcePart.topLevel 5).evaluate (soleWorld "(a) (b)"))).1
      (SourcePart.topLevel 5).span? engine.buffer = some ⟨4, 7⟩ ∧
      Complains (complaintAnswer "1") (engine.buffer.slice ⟨4, 7⟩) 0 ∧
      (Form.Span.of ⟨4, 7⟩ engine.buffer.chars)[0]? = some '(' ∧
      (hear (soleWorld "(a) (b)").disk engine.session.talks.length now
        (complaintAnswer "1")).1.decorations.map (·.start) = [0] := by
  obtain ⟨first, created, buffer⟩ := @exists_started (soleWorld "(a) (b)") "(a) (b)"
    (by decide +kernel)
  refine ⟨first, created, ?_, ?_, ?_, ?_⟩
  · rw [buffer]
    decide +kernel
  · rw [buffer]
    exact complains_complaintAnswer (by decide +kernel)
  · rw [buffer]
    decide +kernel
  · have drawn : (Engine.create (soleWorld "(a) (b)").disk "/a.clj" plainSettings).toOption.map
        (fun first =>
          let engine := first.obey (soleWorld "(a) (b)") .start
          let now := (engine.perform ((SourcePart.topLevel 5).evaluate (soleWorld "(a) (b)"))).1
          (hear (soleWorld "(a) (b)").disk engine.session.talks.length now
            (complaintAnswer "1")).1.decorations.map (·.start)) = some [0] := by
      decide +kernel
    rw [created] at drawn
    exact Option.some.inj drawn

end Engine
end EvalDesk
