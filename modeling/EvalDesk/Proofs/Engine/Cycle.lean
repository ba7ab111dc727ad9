import EvalDesk.Proofs.Engine.Complaints
import EvalDesk.Proofs.Engine.SourceParts

/-!
# Evaluation cycles

An evaluation starts a cycle, in which nothing of the one before is marked. What is marked from then
on are the complaints that come back, whichever evaluation they are for: a complaint that comes
late, for an evaluation that was followed by another, is marked as well. So a cycle shows one
decoration for each complaint that is drawn, and what it shows belongs to the latest evaluation
exactly when no late complaint has left a diagnostic.
-/
namespace EvalDesk

/-- The request that was sent last to evaluate code or to load a file, by its place among all
requests. -/
def Session.latestEvaluation? (session : Session Purpose) : Option Nat :=
  ((List.range session.requests.length).filter fun index =>
    (session.requests[index]?).any (·.2.isEvaluation)).getLast?

/-- The order is to evaluate something, which happens if there is something to evaluate. -/
def Order.evaluates : Order → Bool
  | .start | .documentation _ | .definition _ | .interrupt | .answered .. => false
  | _ => true

namespace Engine

/-- An evaluation that an order starts. -/
structure Evaluation where
  /-- The engine that starts it. -/
  prepared : Engine
  /-- What the transcript shows as the code. -/
  code : String
  /-- The operation of the request. -/
  op : String
  /-- The fields of the request. -/
  fields : Table
  /-- Where the code comes from. -/
  origin : Origin

namespace Evaluation

/-- The evaluation of code from an origin. -/
def ofCode (engine : Engine) (code : String) (origin : Origin) : Evaluation :=
  ⟨engine, code, "eval", Session.evalFields (.text code) .null .null .null, origin⟩

/-- The evaluation of a part of the source. -/
def ofPart? (engine : Engine) (part : SourcePart) : Option Evaluation :=
  (part.span? engine.buffer).map fun span =>
    ofCode engine (engine.buffer.spanText span) (engine.originAt (part.anchor span))

/-- The evaluation that loads the source. -/
def ofSource (engine : Engine) : Evaluation :=
  ⟨engine, "(load-file \"" ++ engine.buffer.path ++ "\")", "load-file",
    Session.loadFields engine.buffer.text engine.buffer.path, ⟨engine.buffer.path, 1⟩⟩

/-- The evaluation that loads the source after it was saved, if the settings say so. -/
def ofSave? (disk : Disk) (engine : Engine) : Option Evaluation :=
  match engine.perform (loadSource disk) with
  | (_, .error _) => none
  | (loaded, .ok _) =>
    if (loaded.settings.get "load_on_save" (.bool true)).isPresent then some (ofSource loaded)
    else none

/-- Start it: begin a cycle and send the request. -/
def action (evaluation : Evaluation) (world : World) : Action Unit := do
  beginCycle evaluation.code
  modify (dispatch world evaluation.op evaluation.fields (.evaluation evaluation.origin) true)

/-- The complaints that come back while its request is sent. -/
def complaints (evaluation : Evaluation) (world : World) : List Complaint :=
  match evaluation.prepared.perform (beginCycle evaluation.code) with
  | (_, .error _) => []
  | (begun, .ok _) =>
    complaintsAtOnce world { begun with endedEarly := [], sending := true }
      (begun.session.message evaluation.op evaluation.fields)
      (.work (.evaluation evaluation.origin))

end Evaluation

/-- The evaluation that an order starts, if it starts one. -/
def evaluation? (world : World) (engine : Engine) : Order → Option Evaluation
  | .code code origin => some (Evaluation.ofCode engine code (origin.getD engine.sourceOrigin))
  | .topLevel offset => Evaluation.ofPart? engine (.topLevel offset)
  | .last offset => Evaluation.ofPart? engine (.last offset)
  | .region first second => Evaluation.ofPart? engine (.region first second)
  | .namespaceForm => Evaluation.ofPart? engine .namespaceForm
  | .buffer => some (Evaluation.ofSource engine)
  | .inNamespace ns => some (Evaluation.ofCode engine ("(in-ns '" ++ ns ++ ")") engine.sourceOrigin)
  | .saved => Evaluation.ofSave? world.disk engine
  | .changed event now =>
    match engine.watch with
    | none => none
    | some watch =>
      match watch.take world.disk event now with
      | .ok (watch, true) => Evaluation.ofSave? world.disk { engine with watch := some watch }
      | _ => none
  | .start | .documentation _ | .definition _ | .interrupt | .answered .. => none

/-- The complaints among answers that an order brings to a request that was sent before. -/
def lateComplaints (world : World) (engine : Engine) : Order → List Complaint
  | .answered id answers =>
    match engine.session.talkOf? id with
    | none => []
    | some index => complaintsHeard world.disk index engine answers
  | _ => []

/-- The complaints of the cycle after an order, when these are the ones before it. -/
def complaintsAfter (world : World) (engine : Engine) (complaints : List Complaint)
    (order : Order) : List Complaint :=
  match engine.evaluation? world order with
  | some evaluation => evaluation.complaints world
  | none => complaints ++ engine.lateComplaints world order

/-- The engine comes to a state by orders, and these complaints have come back since the cycle
began. -/
inductive Complained (first : Engine) : Engine → List Complaint → Prop where
  /-- Nothing has been ordered. -/
  | start : Complained first first []
  /-- One more order is carried out. -/
  | step {engine : Engine} {complaints : List Complaint} (world : World) (order : Order) :
    Complained first engine complaints →
      Complained first (engine.obey world order) (engine.complaintsAfter world complaints order)
  /-- What was drawn is removed. -/
  | cleared {engine : Engine} {complaints : List Complaint} : Complained first engine complaints →
    Complained first engine.clearDecorations []
  /-- The session is ended. -/
  | stopped {engine : Engine} {complaints : List Complaint} : Complained first engine complaints →
    Complained first engine.stop complaints

/-- Orders carried out one after another in one world, with the complaints of the cycle. -/
def ordered (world : World) (first : Engine) (orders : List Order) : Engine × List Complaint :=
  orders.foldl (fun (engine, complaints) order =>
    (engine.obey world order, engine.complaintsAfter world complaints order)) (first, [])

/-- Orders one after another are a run. -/
theorem complained_ordered (world : World) (first : Engine) (orders : List Order) :
    Complained first (ordered world first orders).1 (ordered world first orders).2 := by
  have each : ∀ (state : Engine × List Complaint) (order : Order),
      Complained first state.1 state.2 → Complained first (state.1.obey world order)
        (state.1.complaintsAfter world state.2 order) :=
    fun _ order complained => .step world order complained
  exact (Fallible.chains_property fun state : Engine × List Complaint =>
    Complained first state.1 state.2).foldl each (first, []) orders .start

/-- In every run some complaints have come back since the cycle began. -/
theorem reachable_iff_complained {first engine : Engine} :
    Reachable first engine ↔ ∃ complaints, Complained first engine complaints := by
  constructor
  · intro reachable
    induction reachable with
    | start => exact ⟨[], .start⟩
    | step world order _ ih =>
      obtain ⟨complaints, complained⟩ := ih
      exact ⟨_, .step world order complained⟩
    | cleared _ ih =>
      obtain ⟨complaints, complained⟩ := ih
      exact ⟨[], .cleared complained⟩
    | stopped _ ih =>
      obtain ⟨complaints, complained⟩ := ih
      exact ⟨complaints, .stopped complained⟩
  · rintro ⟨complaints, complained⟩
    induction complained with
    | start => exact .start
    | step world order _ ih => exact .step world order ih
    | cleared _ ih => exact .cleared ih
    | stopped _ ih => exact .stopped ih

/-! ## What an order marks -/

/-- A complaint that comes back while a message is sent is for its request. -/
theorem mem_complaintsAtOnce {world : World} {engine : Engine} {message : Message}
    {topic : Topic Purpose} {complaint : Complaint}
    (member : complaint ∈ complaintsAtOnce world engine message topic) :
    complaint.request = engine.session.talks.length ∧
      topic = .work (.evaluation complaint.origin) := by
  unfold complaintsAtOnce at member
  split at member
  · contradiction
  · obtain ⟨request, own⟩ := mem_complaintsHeard member
    refine ⟨request, ?_⟩
    have recorded : ((engine.session.record message topic).requests[complaint.request]?).map
        (·.2) = some topic := by
      rw [request, Session.requests_record]
      simp [Session.requests]
    exact Option.some.inj (recorded.symm.trans own)

/-- A message that is sent for no evaluation marks nothing. -/
theorem send_keeps_marks (world : World) (message : Message) {topic : Topic Purpose}
    (other : topic.isEvaluation = false) : Keeps marks (send world message topic) := by
  intro engine
  have sent := marked_send world message topic engine
  have quiet : complaintsAtOnce world engine message topic = [] := by
    apply List.eq_nil_iff_forall_not_mem.mpr
    intro complaint member
    rw [(mem_complaintsAtOnce member).2] at other
    contradiction
  rw [quiet] at sent
  exact marked_nil_iff.mp sent

/-- What needs the connection marks what the action marks. -/
theorem marks_connected (engine : Engine) (action : Action Unit) :
    (engine.connected action).marks = (engine.perform action).1.marks :=
  connected_leads (Fallible.chains_view marks) (fun _ _ => rfl) engine action

/-- A request marks what its message does. -/
theorem marks_dispatch (world : World) (op : String) (fields : Table) (purpose : Purpose)
    (tracked : Bool) (engine : Engine) :
    (engine.dispatch world op fields purpose tracked).marks =
      (Engine.perform { engine with endedEarly := [], sending := true } (send world
        (engine.session.message op fields) (.work purpose))).1.marks := by
  obtain ⟨asked, same, told⟩ := dispatch_leads (Fallible.chains_view marks) (fun _ _ => rfl)
    (fun _ _ => rfl) (fun _ => rfl) op fields purpose tracked engine
  rw [told]
  exact same

/-- A question about a symbol marks nothing. -/
theorem marks_ask (world : World) (code : String) {purpose : Purpose}
    (other : Topic.isEvaluation (.work purpose) = false) (engine : Engine) :
    (engine.ask world code purpose).marks = engine.marks :=
  (marks_dispatch world _ _ purpose false engine).trans (send_keeps_marks world _ other _)

/-- An interruption marks nothing. -/
theorem marks_interrupt (world : World) (engine : Engine) :
    (engine.interrupt world).marks = engine.marks := by
  refine interrupt_leads (Fallible.chains_view marks) (fun _ _ => rfl) (fun _ _ => rfl)
    (fun _ => rfl) (fun fields => ?_) engine
  exact keeps_bind keeps_get fun _ => send_keeps_marks world _ rfl

/-- The start of a cycle leaves nothing marked. -/
theorem marks_beginCycle (engine : Engine) (code : String) :
    (engine.perform (beginCycle code)).1.marks = ([], []) := by
  have rest : Keeps marks (append .input (.text code) >>= fun _ =>
      modify (·.withStatus "evaluating")) :=
    keeps_bind (fun _ => rfl) fun _ => keeps_modify fun _ => rfl
  exact rest ({ engine with decorations := [] }.withState DeskState.resetCycle)

/-- What is marked are the marks of some complaints, in order. -/
structure MarkedBy (complaints : List Complaint) (engine : Engine) : Prop where
  /-- The diagnostics. -/
  diagnostics : engine.state.diagnostics = complaints.filterMap Complaint.diagnostic?
  /-- The decorations. -/
  decorations : engine.decorations = complaints.filterMap Complaint.decoration?

/-- What is marked later comes behind it. -/
theorem MarkedBy.later {complaints more : List Complaint} {engine after : Engine}
    (marked : engine.MarkedBy complaints) (later : Marked more engine after) :
    after.MarkedBy (complaints ++ more) := by
  constructor
  · rw [later.diagnostics, marked.diagnostics, List.filterMap_append]
  · rw [later.decorations, marked.decorations, List.filterMap_append]

/-- What is marked decides it. -/
theorem MarkedBy.of_marks {complaints : List Complaint} {engine after : Engine}
    (marked : engine.MarkedBy complaints) (same : after.marks = engine.marks) :
    after.MarkedBy complaints := by
  have kept := marked.later (marked_nil_iff.mpr same)
  rwa [List.append_nil] at kept

/-- An evaluation leaves only the marks of the complaints that come back while its request is
sent. -/
theorem Evaluation.markedBy (evaluation : Evaluation) (world : World) :
    (evaluation.prepared.perform (evaluation.action world)).1.MarkedBy
      (evaluation.complaints world) := by
  have cleared := marks_beginCycle evaluation.prepared evaluation.code
  rw [action, Evaluation.complaints, perform_bind]
  cases begun : evaluation.prepared.perform (beginCycle evaluation.code) with
  | mk after result =>
    rw [begun] at cleared
    obtain ⟨diagnostics, decorations⟩ := Prod.mk.inj cleared
    have fresh : after.MarkedBy [] := ⟨diagnostics, decorations⟩
    cases result with
    | error fault => exact fresh
    | ok =>
      let started := { after with endedEarly := [], sending := true }
      have same : started.MarkedBy [] := fresh.of_marks rfl
      have sent := same.later (marked_send world
        (after.session.message evaluation.op evaluation.fields)
        (.work (.evaluation evaluation.origin)) started)
      exact sent.of_marks (marks_dispatch world _ _ _ true after)

/-- A part that is not there is told by the status. -/
theorem perform_evaluate_missing (world : World) {engine : Engine} {part : SourcePart}
    (missing : part.span? engine.buffer = none) :
    ∃ status, (engine.perform (part.evaluate world)).1 = engine.showStatus status := by
  cases part with
  | topLevel offset =>
    have nothing : engine.buffer.topLevelAt offset = none := missing
    simp only [SourcePart.evaluate, evaluateTopLevel, perform_bind, perform_get, nothing]
    exact ⟨_, rfl⟩
  | last offset =>
    have nothing : engine.buffer.lastBefore offset = none := missing
    simp only [SourcePart.evaluate, evaluateLast, perform_bind, perform_get, nothing]
    exact ⟨_, rfl⟩
  | region first second =>
    simp only [SourcePart.span?] at missing
    split at missing
    · rename_i blank
      have text : engine.buffer.substring (min first second) (max first second) =
          engine.buffer.spanText ⟨Text.nearest engine.buffer.chars.length (min first second),
            Text.nearest engine.buffer.chars.length (max first second)⟩ := rfl
      rw [SourcePart.evaluate, evaluateRegion, perform_bind, perform_get]
      simp only [text]
      rw [if_pos blank]
      exact ⟨_, rfl⟩
    · contradiction
  | namespaceForm =>
    have nothing : engine.buffer.namespaceForm? = none := missing
    simp only [SourcePart.evaluate, evaluateNamespaceForm, perform_bind, perform_get, nothing]
    exact ⟨_, rfl⟩

/-- A part of the source that is there is evaluated. -/
theorem perform_part (world : World) {engine : Engine} {part : SourcePart} {evaluation : Evaluation}
    (found : Evaluation.ofPart? engine part = some evaluation) :
    engine.perform (part.evaluate world) =
      evaluation.prepared.perform (evaluation.action world) := by
  obtain ⟨span, there, same⟩ := Option.map_eq_some_iff.mp found
  subst same
  exact perform_evaluate world there

/-- A part that is not there changes only what the status and the view are told. -/
theorem view_part_missing {β : Type} {view : Engine → β}
    (told : ∀ engine status, view (showStatus engine status) = view engine) (world : World)
    {engine : Engine} (part : SourcePart) (missing : Evaluation.ofPart? engine part = none) :
    view (engine.perform (part.evaluate world)).1 = view engine := by
  obtain ⟨status, same⟩ := perform_evaluate_missing world (Option.map_eq_none_iff.mp missing)
  rw [same]
  exact told engine status

/-- Loading the source is its evaluation. -/
theorem perform_evaluateBuffer (world : World) (engine : Engine) :
    engine.perform (evaluateBuffer world) =
      engine.perform ((Evaluation.ofSource engine).action world) := by
  rw [evaluateBuffer, perform_bind, perform_get]
  rfl

/-- After a save the source is loaded if the settings say so. -/
theorem perform_saved (world : World) {engine : Engine} {evaluation : Evaluation}
    (found : Evaluation.ofSave? world.disk engine = some evaluation) :
    engine.perform (saved world) = evaluation.prepared.perform (evaluation.action world) := by
  rw [Evaluation.ofSave?] at found
  rw [saved, perform_bind]
  cases done : engine.perform (loadSource world.disk) with
  | mk loaded result =>
    rw [done] at found
    cases result with
    | error fault => contradiction
    | ok =>
      simp only [perform_bind, perform_get]
      dsimp only at found
      split at found
      · cases found
        rw [if_pos ‹_›]
        exact perform_evaluateBuffer world loaded
      · contradiction

/-- A save changes by itself only the source and what the view is told. -/
theorem Sourceless.view_saved {β : Type} {view : Engine → β} (apart : Sourceless view)
    (told : ∀ engine : Engine, view engine.notify = view engine) (world : World) {engine : Engine}
    (missing : Evaluation.ofSave? world.disk engine = none) :
    view (engine.perform (saved world)).1 = view engine := by
  have kept := apart.keeps_loadSource world.disk engine
  rw [Evaluation.ofSave?] at missing
  rw [saved, perform_bind]
  cases done : engine.perform (loadSource world.disk) with
  | mk loaded result =>
    rw [done] at kept missing
    cases result with
    | error fault => exact kept
    | ok =>
      simp only [perform_bind, perform_get]
      dsimp only at missing
      split at missing
      · contradiction
      · rw [if_neg ‹_›]
        exact (told loaded).trans kept

/-- The start marks nothing. -/
theorem start_keeps_marks (world : World) : Keeps marks (start world) := by
  refine keeps_bind (sourceless_marks.keeps_loadSource world.disk) fun _ => ?_
  refine keeps_bind (keeps_modify fun engine => ?_) fun _ => ?_
  · have asks : Keeps marks (connecting world engine) :=
      leads_connecting (Fallible.chains_view marks) (send_keeps_marks world _ rfl) fun _ => rfl
    exact (marks_connected engine _).trans (asks engine)
  · refine keeps_bind keeps_get fun _ => ?_
    refine keeps_bind (sourceless_marks.keeps_startWatching world.disk _) fun _ => ?_
    exact keeps_modify fun _ => rfl

/-- An order that starts an evaluation does nothing else. -/
theorem obey_evaluation (world : World) {engine : Engine} {order : Order} {evaluation : Evaluation}
    (found : engine.evaluation? world order = some evaluation) :
    engine.obey world order = (evaluation.prepared.perform (evaluation.action world)).1 := by
  cases order with
  | code code origin => cases found; rfl
  | topLevel offset => exact congrArg Prod.fst (@perform_part world _ (.topLevel offset) _ found)
  | last offset => exact congrArg Prod.fst (@perform_part world _ (.last offset) _ found)
  | region first second =>
    exact congrArg Prod.fst (@perform_part world _ (.region first second) _ found)
  | buffer => cases found; rfl
  | inNamespace ns => cases found; rfl
  | namespaceForm => exact congrArg Prod.fst (@perform_part world _ .namespaceForm _ found)
  | saved => exact congrArg Prod.fst (perform_saved world found)
  | changed event now =>
    simp only [evaluation?] at found
    simp only [obey, takeFileEvent, perform_bind, perform_get]
    cases watched : engine.watch with
    | none =>
      rw [watched] at found
      contradiction
    | some watch =>
      rw [watched] at found
      dsimp only at found
      split at found
      · rename_i taken told
        have loads := perform_saved world found
        simp only [perform_bind, perform_lift, told, perform_modify, ↓reduceIte, loads]
        cases evaluation.prepared.perform (evaluation.action world) with
        | mk after result => cases result <;> rfl
      · contradiction
  | start | documentation | definition | interrupt | answered => contradiction

/-- An order to evaluate something that is not there changes only the source, its watch, and what
the status and the view are told. -/
theorem Sourceless.view_obey {β : Type} {view : Engine → β} (apart : Sourceless view)
    (told : ∀ engine : Engine, view engine.notify = view engine)
    (watched : ∀ (engine : Engine) watch, view { engine with watch } = view engine)
    (world : World) {engine : Engine} {order : Order} (evaluates : order.evaluates = true)
    (missing : engine.evaluation? world order = none) :
    view (engine.obey world order) = view engine := by
  have shown : ∀ (engine : Engine) status, view (engine.showStatus status) = view engine :=
    fun engine status => (told _).trans (apart.status engine status)
  cases order with
  | topLevel offset => exact view_part_missing shown world (.topLevel offset) missing
  | last offset => exact view_part_missing shown world (.last offset) missing
  | region first second => exact view_part_missing shown world (.region first second) missing
  | namespaceForm => exact view_part_missing shown world .namespaceForm missing
  | saved => exact apart.view_saved told world missing
  | changed event now =>
    simp only [evaluation?] at missing
    simp only [obey, takeFileEvent, perform_bind, perform_get]
    cases has : engine.watch with
    | none => rfl
    | some watch =>
      simp only [perform_bind, perform_lift]
      cases taken : watch.take world.disk event now with
      | error fault => rfl
      | ok found =>
        obtain ⟨later, changes⟩ := found
        let watching := { engine with watch := some later }
        have same : view watching = view engine := watched engine (some later)
        cases changes with
        | false => exact same
        | true =>
          simp only [has, taken] at missing
          have kept : view (watching.perform (do
              saved world
              return true)).1 = view (watching.perform (saved world)).1 :=
            view_bind (fun _ => keeps_pure _) watching
          exact (kept.trans (apart.view_saved told world missing)).trans same
  | code | buffer | inNamespace => contradiction
  | start | documentation | definition | interrupt | answered => contradiction

/-- An order that starts no evaluation and brings no late answers marks nothing. -/
theorem marks_obey (world : World) {engine : Engine} {order : Order}
    (asks : ∀ id answers, order ≠ .answered id answers)
    (missing : engine.evaluation? world order = none) :
    (engine.obey world order).marks = engine.marks := by
  by_cases evaluates : order.evaluates = true
  · exact sourceless_marks.view_obey (fun _ => rfl) (fun _ _ => rfl) world evaluates missing
  · cases order with
    | start => exact start_keeps_marks world engine
    | documentation symbol => exact marks_ask world _ rfl _
    | definition symbol => exact marks_ask world _ rfl _
    | interrupt => exact marks_interrupt world engine
    | answered id answers => exact absurd rfl (asks id answers)
    | code | topLevel | last | region | buffer | inNamespace | namespaceForm | saved | changed =>
      exact absurd rfl evaluates

/-- What is marked after an order are the marks of the complaints of its cycle. -/
theorem MarkedBy.obey {complaints : List Complaint} {engine : Engine}
    (marked : engine.MarkedBy complaints) (world : World) (order : Order) :
    (engine.obey world order).MarkedBy (engine.complaintsAfter world complaints order) := by
  rcases order.late_or_early with ⟨id, answers, rfl⟩ | asks
  · refine marked.later ?_
    rw [Engine.obey, deliver, lateComplaints]
    cases engine.session.talkOf? id with
    | none => exact marked_nil_iff.mpr rfl
    | some index => exact marked_hearAll world.disk index answers engine
  · rw [complaintsAfter]
    cases started : engine.evaluation? world order with
    | some evaluation =>
      rw [obey_evaluation world started]
      exact evaluation.markedBy world
    | none =>
      have same := marks_obey world asks started
      have none_late : engine.lateComplaints world order = [] := by
        cases order <;> first | rfl | exact absurd rfl (asks _ _)
      simp only [none_late, List.append_nil]
      exact marked.of_marks same

/-! ## What a run marks -/

/-- The complaints that come back while the request of an evaluation is sent are for it. -/
theorem Evaluation.isFor_of_mem {evaluation : Evaluation} {world : World} {complaint : Complaint}
    (member : complaint ∈ evaluation.complaints world) :
    complaint.IsFor
      (evaluation.prepared.perform (evaluation.action world)).1.session.requests := by
  rw [action, perform_bind]
  rw [Evaluation.complaints] at member
  cases begun : evaluation.prepared.perform (beginCycle evaluation.code) with
  | mk after result =>
    rw [begun] at member
    cases result with
    | error fault => contradiction
    | ok =>
      obtain ⟨request, topic⟩ := mem_complaintsAtOnce member
      rw [Complaint.IsFor, request, ← topic]
      exact request_dispatch world _ _ _ true after

variable {disk : Disk} {source : String} {settings : Settings} {first engine : Engine}
  {complaints : List Complaint}

/-- The complaints of a cycle are for requests that were sent, each from the origin of its
request. -/
theorem Complained.isFor (complained : Complained first engine complaints) :
    ∀ complaint ∈ complaints, complaint.IsFor engine.session.requests := by
  induction complained with
  | start => exact fun _ member => absurd member List.not_mem_nil
  | @step engine complaints world order _ own =>
    intro complaint member
    have advances := Advances.obey world engine order
    rw [complaintsAfter] at member
    cases started : engine.evaluation? world order with
    | some evaluation =>
      rw [started] at member
      rw [obey_evaluation world started]
      exact Evaluation.isFor_of_mem member
    | none =>
      rw [started] at member
      rcases List.mem_append.mp member with earlier | late
      · exact (own complaint earlier).mono advances.requests
      · unfold lateComplaints at late
        split at late
        · split at late
          · contradiction
          · exact (mem_complaintsHeard late).2.mono advances.requests
        · contradiction
  | cleared => exact fun _ member => absurd member List.not_mem_nil
  | @stopped engine complaints _ own =>
    exact fun complaint member => (own complaint member).mono (Advances.stop engine).requests

/-- What is marked in a run of a new engine are the marks of the complaints of the cycle. -/
theorem Complained.markedBy (created : Engine.create disk source settings = .ok first)
    (complained : Complained first engine complaints) : engine.MarkedBy complaints := by
  induction complained with
  | start =>
    obtain ⟨projectRoot, rfl⟩ := exists_of_create created
    exact ⟨rfl, rfl⟩
  | step world order _ marked => exact marked.obey world order
  | cleared => exact ⟨rfl, rfl⟩
  | @stopped engine complaints _ marked =>
    exact marked.of_marks (sourceless_marks.unwatched engine)

/-- At most one value is taken from a list if and only if of any two places one gives none. -/
theorem length_filterMap_le_one_iff {α β : Type} (take : α → Option β) (values : List α) :
    (values.filterMap take).length ≤ 1 ↔
      values.Pairwise fun first second => take first = none ∨ take second = none := by
  induction values with
  | nil => simp
  | cons value rest ih =>
    rw [List.pairwise_cons, ← ih]
    cases taken : take value with
    | none => simp [taken]
    | some result =>
      have nothing : (rest.filterMap take).length = 0 ↔ ∀ other ∈ rest, take other = none := by
        rw [List.length_eq_zero_iff, List.filterMap_eq_nil_iff]
      simp only [List.filterMap_cons, taken, List.length_cons, reduceCtorEq, false_or, ← nothing]
      omega

/-- A cycle shows one decoration for each complaint that is drawn, and none besides. So it shows at
most one in all if and only if of any two complaints that came back since it began one is not
drawn. -/
theorem decorations_at_most_one_iff (created : Engine.create disk source settings = .ok first)
    (complained : Complained first engine complaints) :
    engine.decorations = complaints.filterMap Complaint.decoration? ∧
      (engine.decorations.length ≤ 1 ↔
        complaints.Pairwise fun one other =>
          one.decoration? = none ∨ other.decoration? = none) := by
  have drawn := (complained.markedBy created).decorations
  refine ⟨drawn, ?_⟩
  rw [drawn]
  exact length_filterMap_le_one_iff Complaint.decoration? complaints

/-- In a world with two forms the first one is evaluated and complained about once. -/
def complainedOnce : List Order :=
  [.start, .topLevel 0, .answered (.text "2") [complaintAnswer "1"]]

/-- One complaint draws one decoration. -/
theorem decorations_at_most_one_iff_once :
    ∃ first, Engine.create (soleWorld "(a)\n(b)").disk "/a.clj" plainSettings = .ok first ∧
      let run := ordered (soleWorld "(a)\n(b)") first complainedOnce
      Complained first run.1 run.2 ∧ run.2.length = 1 ∧ run.1.decorations.length = 1 ∧
        run.1.decorations.length ≤ 1 := by
  obtain ⟨first, created, counted⟩ := @exists_created _ (soleWorld "(a)\n(b)").disk "/a.clj"
    plainSettings (fun first =>
      let run := ordered (soleWorld "(a)\n(b)") first complainedOnce
      (run.2.length, run.1.decorations.length)) (1, 1) (by decide +kernel)
  obtain ⟨once, drawn⟩ := Prod.mk.inj counted
  have complained := complained_ordered (soleWorld "(a)\n(b)") first complainedOnce
  refine ⟨first, created, complained, once, drawn, ?_⟩
  refine (decorations_at_most_one_iff created complained).2.mpr ?_
  obtain ⟨complaint, alone⟩ := List.length_eq_one_iff.mp once
  rw [alone]
  exact List.pairwise_singleton _ _

/-- Two complaints about one evaluation draw two decorations. -/
theorem two_complaints_draw_two :
    ∃ first, Engine.create (soleWorld "(a)\n(b)").disk "/a.clj" plainSettings = .ok first ∧
      let engine := (ordered (soleWorld "(a)\n(b)") first [.start, .topLevel 0,
        .answered (.text "2") [complaintAnswer "1", complaintAnswer "1"]]).1
      Reachable first engine ∧ engine.decorations.length = 2 := by
  obtain ⟨first, created, drawn⟩ := @exists_created _ (soleWorld "(a)\n(b)").disk "/a.clj"
    plainSettings (fun first => (ordered (soleWorld "(a)\n(b)") first [.start, .topLevel 0,
      .answered (.text "2") [complaintAnswer "1", complaintAnswer "1"]]).1.decorations.length) 2
    (by decide +kernel)
  exact ⟨first, created, reachable_iff_complained.mpr ⟨_, complained_ordered _ first _⟩, drawn⟩

/-- Leaving values out takes nothing away from what is taken if and only if nothing is taken from
them. -/
theorem filterMap_filter_eq_iff {α β : Type} (keep : α → Bool) (take : α → Option β)
    (values : List α) :
    (values.filter keep).filterMap take = values.filterMap take ↔
      ∀ value ∈ values, (take value).isSome → keep value := by
  induction values with
  | nil => simp
  | cons value rest ih =>
    rw [List.forall_mem_cons, ← ih]
    have shorter : ((rest.filter keep).filterMap take).length ≤ (rest.filterMap take).length :=
      (List.filter_sublist.filterMap take).length_le
    cases kept : keep value <;> cases taken : take value
    · simp [kept, taken]
    · simp only [List.filter_cons, kept, List.filterMap_cons, taken, Bool.false_eq_true, ↓reduceIte,
        Option.isSome_some, forall_const, false_and, iff_false]
      intro same
      have lengths := congrArg List.length same
      simp only [List.length_cons] at lengths
      omega
    · simp [kept, taken]
    · simp [kept, taken]

/-- An evaluation among the requests is the latest one or comes before it. -/
theorem exists_latest {session : Session Purpose} {index : Nat} {topic : Topic Purpose}
    (request : (session.requests[index]?).map (·.2) = some topic)
    (evaluates : topic.isEvaluation = true) :
    ∃ latest, session.latestEvaluation? = some latest ∧ index ≤ latest := by
  obtain ⟨known, found, rfl⟩ := Option.map_eq_some_iff.mp request
  obtain ⟨inside, _⟩ := List.getElem?_eq_some_iff.mp found
  let evaluations := (List.range session.requests.length).filter fun index =>
    (session.requests[index]?).any (·.2.isEvaluation)
  have member : index ∈ evaluations := by
    simp only [evaluations, List.mem_filter, List.mem_range, found, Option.any_some]
    exact ⟨inside, evaluates⟩
  have sorted : evaluations.Pairwise (· < ·) := List.pairwise_lt_range.filter _
  cases last : evaluations.getLast? with
  | none =>
    rw [List.getLast?_eq_none_iff.mp last] at member
    contradiction
  | some latest =>
    refine ⟨latest, last, ?_⟩
    obtain ⟨before, same⟩ := List.getLast?_eq_some_iff.mp last
    rw [same] at member sorted
    rcases List.mem_append.mp member with earlier | final
    · exact Nat.le_of_lt ((List.pairwise_append.mp sorted).2.2 index earlier latest (.head _))
    · exact Nat.le_of_eq (List.mem_singleton.mp final)

/-- Every complaint that came back since the cycle began is for an evaluation up to the latest one.
What is marked is all from complaints for the latest evaluation if and only if no complaint for an
earlier one has left a diagnostic. -/
theorem marked_by_latest_iff (created : Engine.create disk source settings = .ok first)
    (complained : Complained first engine complaints) :
    (∀ complaint ∈ complaints, complaint.IsFor engine.session.requests ∧
        ∃ latest, engine.session.latestEvaluation? = some latest ∧ complaint.request ≤ latest) ∧
      (engine.MarkedBy (complaints.filter fun complaint =>
          engine.session.latestEvaluation? = some complaint.request) ↔
        ∀ complaint ∈ complaints, complaint.diagnostic?.isSome →
          engine.session.latestEvaluation? = some complaint.request) := by
  have marked := complained.markedBy created
  constructor
  · intro complaint member
    have own := complained.isFor complaint member
    exact ⟨own, exists_latest own rfl⟩
  · let ofLatest (complaint : Complaint) : Bool :=
      engine.session.latestEvaluation? = some complaint.request
    have diagnostics := filterMap_filter_eq_iff ofLatest Complaint.diagnostic? complaints
    have decorations := filterMap_filter_eq_iff ofLatest Complaint.decoration? complaints
    simp only [ofLatest, decide_eq_true_eq] at diagnostics decorations
    constructor
    · intro of_latest
      exact diagnostics.mp (of_latest.diagnostics.symm.trans marked.diagnostics)
    · intro all
      refine ⟨marked.diagnostics.trans (diagnostics.mpr all).symm,
        marked.decorations.trans (decorations.mpr ?_).symm⟩
      exact fun complaint member drawn => all complaint member (Complaint.isSome_diagnostic? drawn)

/-- One complaint about the latest evaluation leaves all that is marked. -/
theorem marked_by_latest_iff_once :
    ∃ first, Engine.create (soleWorld "(a)\n(b)").disk "/a.clj" plainSettings = .ok first ∧
      let run := ordered (soleWorld "(a)\n(b)") first complainedOnce
      Complained first run.1 run.2 ∧ run.2.map (·.request) = [1] ∧
        run.1.session.latestEvaluation? = some 1 ∧ run.1.state.diagnostics.length = 1 ∧
        run.1.MarkedBy (run.2.filter fun complaint =>
          run.1.session.latestEvaluation? = some complaint.request) := by
  obtain ⟨first, created, counted⟩ := @exists_created _ (soleWorld "(a)\n(b)").disk "/a.clj"
    plainSettings (fun first =>
      let run := ordered (soleWorld "(a)\n(b)") first complainedOnce
      (run.2.map (·.request), run.1.session.latestEvaluation?, run.1.state.diagnostics.length))
    ([1], some 1, 1) (by decide +kernel)
  obtain ⟨requests, counted⟩ := Prod.mk.inj counted
  obtain ⟨latest, diagnostics⟩ := Prod.mk.inj counted
  have complained := complained_ordered (soleWorld "(a)\n(b)") first complainedOnce
  refine ⟨first, created, complained, requests, latest, diagnostics, ?_⟩
  refine (marked_by_latest_iff created complained).2.mpr fun complaint member _ => ?_
  have own := List.mem_map_of_mem (f := Complaint.request) member
  rw [requests] at own
  rw [latest, List.mem_singleton.mp own]

/-- A complaint about the first form that comes back after the second one was sent is marked, though
it is not for the latest evaluation. -/
theorem late_complaint_is_marked :
    ∃ first, Engine.create (soleWorld "(a)\n(b)").disk "/a.clj" plainSettings = .ok first ∧
      let run := ordered (soleWorld "(a)\n(b)") first [.start, .topLevel 0, .topLevel 5,
        .answered (.text "2") [complaintAnswer "1"]]
      Complained first run.1 run.2 ∧ run.2.map (·.request) = [1] ∧
        run.1.session.latestEvaluation? = some 2 ∧ run.1.decorations.length = 1 ∧
        ¬run.1.MarkedBy (run.2.filter fun complaint =>
          run.1.session.latestEvaluation? = some complaint.request) := by
  let orders : List Order := [.start, .topLevel 0, .topLevel 5,
    .answered (.text "2") [complaintAnswer "1"]]
  obtain ⟨first, created, counted⟩ := @exists_created _ (soleWorld "(a)\n(b)").disk "/a.clj"
    plainSettings (fun first =>
      let run := ordered (soleWorld "(a)\n(b)") first orders
      (run.2.map (·.request), run.1.session.latestEvaluation?, run.1.decorations.length))
    ([1], some 2, 1) (by decide +kernel)
  obtain ⟨requests, counted⟩ := Prod.mk.inj counted
  obtain ⟨latest, drawn⟩ := Prod.mk.inj counted
  have complained := complained_ordered (soleWorld "(a)\n(b)") first orders
  refine ⟨first, created, complained, requests, latest, drawn, fun of_latest => ?_⟩
  have nothing : ((ordered (soleWorld "(a)\n(b)") first orders).2.filter fun complaint =>
      (ordered (soleWorld "(a)\n(b)") first orders).1.session.latestEvaluation? =
        some complaint.request) = [] := by
    apply List.filter_eq_nil_iff.mpr
    intro complaint member
    have own := List.mem_map_of_mem (f := Complaint.request) member
    rw [requests] at own
    rw [latest, List.mem_singleton.mp own]
    decide
  have decorations := of_latest.decorations
  rw [nothing] at decorations
  rw [decorations] at drawn
  contradiction

end Engine
end EvalDesk
