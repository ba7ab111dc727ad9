import EvalDesk.Proofs.Engine.Chronicle
import Mathlib.Data.List.DropRight

/-!
# The record of a run

Everything that an evaluation says is written down: its code when it is started, and its values,
output and error output when they come back; the error output of a question about a definition is
written down as well. The transcript shows the end of this record, as long as its limit allows:
within the limit nothing is lost, nothing appears twice and nothing changes its place.
-/
namespace EvalDesk

/-- The end of a record that an integer limit allows, nothing of it if the limit is not positive. -/
def Transcript.window (limit : Int) (record : List Transcript.Entry) : Transcript :=
  record.rtake (max limit 0).toNat

/-- An entry behind the end of a record makes the end of the longer record. -/
theorem Transcript.add_window (limit : Int) (record : List Transcript.Entry)
    (entry : Transcript.Entry) :
    add (window limit record) (.integer limit) entry =
      (window limit (record ++ [entry]), .ok ()) := by
  have inside : record.length - (max limit 0).toNat ≤ record.length := Nat.sub_le _ _
  have shown : window limit record ++ [entry] =
      (record ++ [entry]).drop (record.length - (max limit 0).toNat) :=
    (List.drop_append_of_le_length inside).symm
  have same : ∀ first second, (first = second ∨
      record.length + 1 ≤ first ∧ record.length + 1 ≤ second) →
        (record ++ [entry]).drop first = (record ++ [entry]).drop second := by
    rintro first second (rfl | ⟨beyond, behind⟩)
    · rfl
    · rw [List.drop_eq_nil_of_le (by simpa using beyond),
        List.drop_eq_nil_of_le (by simpa using behind)]
  refine Prod.ext ?_ rfl
  show (window limit record ++ [entry]).drop _ = window limit (record ++ [entry])
  rw [shown, List.drop_drop, window, List.rtake]
  refine same _ _ ?_
  simp only [List.length_append, List.length_drop, List.length_singleton]
  omega

/-- What is written down when an event comes back for a request. -/
def Event.entries (event : Event) : Purpose → List Transcript.Entry
  | .evaluation _ =>
    match event with
    | .value result _ _ => [⟨.value, result⟩]
    | .output text _ => [⟨.output, text⟩]
    | .errorOutput text _ => [⟨.errorOutput, text⟩]
    | .completed .. => []
  | .definition _ =>
    match event with
    | .errorOutput text _ => [⟨.errorOutput, text⟩]
    | _ => []
  | .documentation _ | .unheard => []

/-- What is written down as the code of a message: its code, or that the file of its path is
loaded. -/
def Message.input (message : Message) : Datum :=
  match message.get? "file-path" with
  | some (.text path) => .text ("(load-file \"" ++ path ++ "\")")
  | _ => message.get "code"

/-- What is written down of something that happens. -/
def Happening.entries : Happening → List Transcript.Entry
  | .sent ⟨_, message, .work (.evaluation _)⟩ => [⟨.input, message.input⟩]
  | .sent _ => []
  | .heard hearing => hearing.event.entries hearing.purpose

/-- The message of code that is evaluated carries the code. -/
theorem Session.input_of_code (session : Session Purpose) (code : String) :
    Message.input (session.message "eval" (evalFields (.text code) .null .null .null)) =
      .text code := by
  have fields : ∀ entry ∈ evalFields (.text code) .null .null .null, entry.1 ≠ "file-path" := by
    simp [evalFields]
  have unloaded : (session.message "eval" (evalFields (.text code) .null .null .null)).get?
      "file-path" = none := by
    rw [session.get?_message "eval" fields, Session.stamps]
    by_cases identified : session.identity.isPresent = true
    · rw [if_pos identified]
      rfl
    · rw [if_neg identified]
      rfl
  rw [Message.input, unloaded]
  exact congrArg (·.getD .null) (Table.get?_put _ "code" (.text code))

/-- The message of a file that is loaded carries its path. -/
theorem Session.input_of_load (session : Session Purpose) (text path : String) :
    Message.input (session.message "load-file" (loadFields text path)) =
      .text ("(load-file \"" ++ path ++ "\")") := by
  have loaded : (session.message "load-file" (loadFields text path)).get? "file-path" =
      some (.text path) :=
    (Table.get?_put_of_ne _ _ (by decide)).trans (Table.get?_put _ "file-path" (.text path))
  rw [Message.input, loaded]

namespace Engine

/-- The transcript and how many entries it keeps. -/
def record (engine : Engine) : Transcript × Datum :=
  ⟨engine.state.transcript, engine.state.transcriptLimit⟩

/-- Some entries are written down between two engines. -/
structure Writes (entries : List Transcript.Entry) (before after : Engine) : Prop where
  /-- The limit stays. -/
  limit : after.state.transcriptLimit = before.state.transcriptLimit
  /-- The transcript goes on to show the end of the record. -/
  window : ∀ {limit : Int} {record : List Transcript.Entry},
    before.state.transcriptLimit = .integer limit →
      before.state.transcript = Transcript.window limit record →
        after.state.transcript = Transcript.window limit (record ++ entries)

namespace Writes

variable {before middle after : Engine} {first second : List Transcript.Entry}

/-- Nothing is written down. -/
theorem of_record (same : after.record = before.record) : Writes [] before after := by
  refine ⟨congrArg Prod.snd same, fun _ shown => ?_⟩
  rw [List.append_nil]
  exact (congrArg Prod.fst same).trans shown

/-- One part is written down behind another. -/
theorem trans (earlier : Writes first before middle) (later : Writes second middle after) :
    Writes (first ++ second) before after := by
  refine ⟨later.limit.trans earlier.limit, fun limited shown => ?_⟩
  rw [← List.append_assoc]
  exact later.window (earlier.limit.trans limited) (earlier.window limited shown)

/-- Nothing more is written down. -/
theorem then_record (earlier : Writes first before middle) (same : after.record = middle.record) :
    Writes first before after := by
  have both := earlier.trans (of_record same)
  rwa [List.append_nil] at both

end Writes

/-! ## What is written down by events -/

/-- Sources are not written down. -/
theorem sourceless_record : Sourceless record where
  status _ _ := rfl
  opened _ _ := rfl
  projectRoot _ _ := rfl
  unwatched engine := by
    unfold stopWatching
    split <;> rfl
  watched _ _ _ _ := rfl
  reloaded _ _ _ := rfl
  shown _ _ := rfl

/-- Only what happens is written down. -/
theorem undisturbed_record : Undisturbed record where
  toSourceless := sourceless_record
  told _ := rfl
  watching _ _ := rfl
  closed _ := rfl
  sending _ _ := rfl
  connected _ _ _ _ := rfl
  drawn _ _ := rfl
  diagnosed _ _ := rfl

/-- An entry is written down. -/
theorem writes_append (kind : Transcript.Kind) (text : Datum) (engine : Engine) :
    Writes [⟨kind, text⟩] engine (engine.perform (append kind text)).1 := by
  rw [perform_append]
  refine ⟨rfl, fun limited shown => ?_⟩
  simp only [DeskState.append, limited, shown, Transcript.add_window]

/-- The end of a request is not written down. -/
theorem complete_keeps_record (statuses : List String) (id : Datum) :
    Keeps record (complete statuses id) :=
  complete_keeps (fun _ _ => rfl) (fun _ _ _ _ => rfl) statuses id

/-- An event of an evaluation writes its entries down. -/
theorem writes_evaluationEvent (disk : Disk) (origin : Origin) (event : Event) (engine : Engine) :
    Writes (event.entries (.evaluation origin)) engine
      (engine.perform (evaluationEvent disk origin event)).1 := by
  cases event with
  | value result ns id =>
    let valued := engine.withState fun state => { state with lastValue := result }
    have moves : ∀ _ : Unit, Keeps record
        (if ns.isPresent then modify (·.withState fun state => { state with ns })
        else pure ()) := by
      intro _
      split
      · exact keeps_modify fun _ => rfl
      · exact keeps_pure _
    have same : valued.record = engine.record := rfl
    have written := (writes_append .value result valued).then_record (view_bind moves valued)
    exact (Writes.of_record same).trans written
  | output text id => exact writes_append .output text engine
  | errorOutput text id =>
    have shows : ∀ _ : Unit, Keeps record (showDiagnostic disk text origin) := fun _ =>
      keeps_showDiagnostic (fun _ _ => rfl) (fun _ _ => rfl) (fun _ _ => rfl) disk text origin
    exact (writes_append .errorOutput text engine).then_record (view_bind shows engine)
  | completed statuses id => exact .of_record (complete_keeps_record statuses id engine)

/-- An event of a question about a definition writes its entries down. -/
theorem writes_definitionEvent (disk : Disk) (symbol : String) (event : Event) (engine : Engine) :
    Writes (event.entries (.definition symbol)) engine
      (engine.perform (definitionEvent disk symbol event)).1 := by
  cases event with
  | value result ns id =>
    have keeps : Keeps record (definitionEvent disk symbol (.value result ns id)) :=
      keeps_bind (keeps_lift _) fun _ => keeps_modify fun _ => rfl
    exact .of_record (keeps engine)
  | output text id => exact .of_record rfl
  | errorOutput text id => exact writes_append .errorOutput text engine
  | completed statuses id =>
    have keeps : Keeps record (definitionEvent disk symbol (.completed statuses id)) := by
      refine keeps_bind (complete_keeps_record statuses id) fun _ => ?_
      refine keeps_bind keeps_get fun _ => ?_
      split
      · exact keeps_modify fun _ => rfl
      · exact sourceless_record.keeps_showDefinition (fun _ _ _ => rfl) disk symbol _
    exact .of_record (keeps engine)

/-- An event of a request writes its entries down. -/
theorem writes_purposeEvent (disk : Disk) (purpose : Purpose) (event : Event) (engine : Engine) :
    Writes (event.entries purpose) engine (engine.perform (purposeEvent disk purpose event)).1 := by
  cases purpose with
  | evaluation origin => exact writes_evaluationEvent disk origin event engine
  | documentation symbol =>
    exact .of_record (keeps_documentationEvent (fun _ _ => rfl) (fun _ _ => rfl)
      (fun _ _ _ _ => rfl) symbol event engine)
  | definition symbol => exact writes_definitionEvent disk symbol event engine
  | unheard => exact .of_record rfl

/-- What comes back writes the entries of its event down, also when something fails at it. -/
theorem writes_hearing (hearing : Hearing) :
    Writes (Happening.heard hearing).entries hearing.engine hearing.after := by
  have written := writes_purposeEvent hearing.disk hearing.purpose hearing.event hearing.engine
  by_cases heard : hearing.purpose = .unheard
  · rw [Hearing.after, Happening.entries, heard]
    exact .of_record rfl
  · rw [Hearing.after, takeNotice_heard hearing.disk heard]
    refine written.then_record ?_
    rw [reporting]
    cases hearing.engine.perform (purposeEvent hearing.disk hearing.purpose hearing.event) with
    | mk after result => cases result <;> rfl

/-- Notices write the entries of their events down. -/
theorem writes_takeNotices (disk : Disk) (index : Nat) (notices : List (Notice Purpose))
    (engine : Engine) :
    Writes ((hearingsAmong disk index engine notices).flatMap Happening.entries) engine
      (notices.foldl (takeNotice disk) engine) := by
  induction notices generalizing engine with
  | nil => exact .of_record rfl
  | cons notice rest ih =>
    cases notice with
    | ready identity =>
      have same : (takeNotice disk engine (.ready identity)).record = engine.record := rfl
      exact (Writes.of_record same).trans (ih _)
    | event purpose event =>
      exact (writes_hearing ⟨index, purpose, event, disk, engine⟩).trans (ih _)

/-- Answers write the entries of their events down. -/
theorem writes_hearAll (disk : Disk) (index : Nat) (answers : List Table) (engine : Engine) :
    Writes ((hearingsAll disk index engine answers).flatMap Happening.entries) engine
      (hearAll (hear disk index) engine answers).1 := by
  induction answers generalizing engine with
  | nil => exact .of_record rfl
  | cons answer rest ih =>
    rw [hearingsAll, hearAll, hear]
    cases engine.session.receive index answer with
    | error fault => exact .of_record rfl
    | ok result =>
      obtain ⟨session, notices⟩ := result
      have same : { engine with session }.record = engine.record := rfl
      have taken := (Writes.of_record same).trans
        (writes_takeNotices disk index notices { engine with session })
      rw [List.flatMap_append]
      exact taken.trans (ih _)

/-! ## What is written down by messages -/

/-- The start of a cycle writes its code down. -/
theorem writes_beginCycle (code : String) (engine : Engine) :
    Writes [⟨.input, .text code⟩] engine (engine.perform (beginCycle code)).1 := by
  let cleared := { engine with decorations := [] }.withState DeskState.resetCycle
  have same : cleared.record = engine.record := rfl
  have shows : ∀ _ : Unit, Keeps record
      (modify (·.withStatus "evaluating") : Action Unit) := fun _ => keeps_modify fun _ => rfl
  have written := (writes_append .input (.text code) cleared).then_record (view_bind shows cleared)
  exact (Writes.of_record same).trans written

/-- A cycle that cannot be started has a limit that is no integer. -/
theorem limit_of_beginCycle_error {engine begun : Engine} {code : String} {fault : Fault}
    {limit : Int} (failed : engine.perform (beginCycle code) = (begun, .error fault)) :
    engine.state.transcriptLimit ≠ .integer limit := by
  intro limited
  obtain ⟨after, result, done, _, takes, _⟩ := perform_beginCycle engine code
  cases failed.symm.trans done
  cases takes (limited ▸ fun count => ⟨_, rfl⟩)

/-- A message writes its code down if it is that of an evaluation. -/
theorem writes_sending {world : World} {engine : Engine} {order : Order} {sending : Sending}
    (sends : engine.sending? world order = some sending) :
    Writes (Happening.sent sending).entries engine sending.after := by
  rcases sending?_cases sends with ⟨loaded, done, rfl⟩ | ⟨symbol, rfl⟩ | ⟨symbol, rfl⟩ |
    ⟨id, rfl⟩ | ⟨evaluation, begun, found, done, rfl⟩
  · have kept := sourceless_record.keeps_loadSource world.disk engine
    rw [done] at kept
    exact .of_record kept
  · exact .of_record rfl
  · exact .of_record rfl
  · exact .of_record rfl
  · have input : Message.input (begun.session.message evaluation.op evaluation.fields) =
        .text evaluation.code := by
      obtain ⟨_, _, ⟨code, _, rfl⟩ | rfl⟩ := undisturbed_record.evaluation?_cases found
      · exact begun.session.input_of_code code
      · exact begun.session.input_of_load _ _
    have entries : (Happening.sent (.ofRequest begun evaluation.op evaluation.fields
        (.evaluation evaluation.origin))).entries = [⟨.input, .text evaluation.code⟩] :=
      congrArg (fun text => [Transcript.Entry.mk .input text]) input
    have written := writes_beginCycle evaluation.code evaluation.prepared
    rw [done] at written
    have prepared := Writes.of_record (undisturbed_record.view_prepared found)
    rw [entries]
    exact (prepared.trans written).then_record rfl

/-- Runs write the entries of what happens down. -/
theorem narrates_writes :
    Narrates record fun before happened after =>
      Writes (happened.flatMap Happening.entries) before after where
  undisturbed := undisturbed_record
  quiet := .of_record
  trans first second := by
    rw [List.flatMap_append]
    exact first.trans second
  sent sends := by
    rw [List.flatMap_singleton]
    exact writes_sending sends
  failed {engine begun code fault} failed := by
    have written := writes_beginCycle code engine
    rw [failed] at written
    exact ⟨written.limit, fun limited => absurd limited (limit_of_beginCycle_error failed)⟩
  heard := writes_hearAll

/-- In a run of a new engine whose limit is an integer, the transcript shows the end of the record
of what happened, as much of it as the limit allows. The record has an entry for each message of an
evaluation, for each value, output and error output that came back for one, and for each error
output that came back for a question about a definition, in the order in which these happened. -/
theorem transcript_is_end_of_record {disk : Disk} {source : String} {settings : Settings}
    {limit : Int} {first engine : Engine} {happened : List Happening}
    (created : Engine.create disk source settings = .ok first)
    (limited : settings.get "transcript_limit" DeskState.usualLimit = .integer limit)
    (chronicled : Chronicled first engine happened) :
    engine.messages = happened.filterMap Happening.message? ∧
      engine.state.transcript =
        (happened.flatMap Happening.entries).rtake (max limit 0).toNat := by
  have messages := chronicled.unfolds.messages
  have written := narrates_writes.chronicled chronicled
  obtain ⟨projectRoot, rfl⟩ := exists_of_create created
  refine ⟨messages, ?_⟩
  have empty : ([] : Transcript) = Transcript.window limit [] := (List.rtake_nil _).symm
  exact written.window limited empty

/-- Settings in which the transcript keeps two entries. -/
def shortSettings : Settings := ⟨Path.ofText "/", [("transcript_limit", .integer 2)]⟩

/-- Code is evaluated, a definition is asked for, and the answers come back in turn. -/
def evaluatedAndAsked : List Order :=
  [.start, .code "1" none, .definition "x",
    .answered (.text "2") [[("value", .text "1"), ("out", .text "o")]],
    .answered (.text "3") [[("value", .text "nil"), ("err", .text "e")]]]

/-- The record of this has four entries, and the transcript shows the last two. -/
theorem transcript_is_end_of_record_short :
    ∃ first, Engine.create (soleWorld "(a)").disk "/a.clj" shortSettings = .ok first ∧
      shortSettings.get "transcript_limit" DeskState.usualLimit = .integer 2 ∧
      let run := chronicle (soleWorld "(a)") first evaluatedAndAsked
      Chronicled first run.1 run.2 ∧
        (run.2.flatMap Happening.entries).map (fun entry => (entry.kind, entry.text.text?)) =
          [(.input, some "1"), (.value, some "1"), (.output, some "o"),
            (.errorOutput, some "e")] ∧
        run.1.state.transcript.map (fun entry => (entry.kind, entry.text.text?)) =
          [(.output, some "o"), (.errorOutput, some "e")] := by
  let shown := fun entry : Transcript.Entry => (entry.kind, entry.text.text?)
  obtain ⟨first, created, known⟩ := @exists_created _ (soleWorld "(a)").disk "/a.clj"
    shortSettings (fun first =>
      ((chronicle (soleWorld "(a)") first evaluatedAndAsked).2.flatMap Happening.entries).map shown)
    [(.input, some "1"), (.value, some "1"), (.output, some "o"), (.errorOutput, some "e")]
    (by decide +kernel)
  have chronicled := chronicled_chronicle (soleWorld "(a)") first evaluatedAndAsked
  refine ⟨first, created, rfl, chronicled, known, ?_⟩
  rw [(transcript_is_end_of_record created rfl chronicled).2, List.rtake, List.map_drop, known,
    ← List.length_map shown, known]
  rfl

end Engine
end EvalDesk
