import EvalDesk.Proofs.Engine.Cycle
import EvalDesk.Proofs.Engine.Happenings
import EvalDesk.Proofs.Engine.Holdings

/-!
# Chronicles of runs

An order sends at most one message, and the answers to it may come back at once; other answers come
back later, by an order of their own. The chronicle of a run lists all of this, over everything that
can be asked of the engine. Whatever nothing else in a run changes is found from the chronicle by
what a message and answers change of it, and the news of a run is of this kind.
-/
namespace EvalDesk

namespace Sending

/-- What comes back while it is being sent. -/
def hearings (sending : Sending) (world : World) : List Happening :=
  match (world.transport sending.message).refusal with
  | some _ => []
  | none =>
    Engine.hearingsAll world.disk sending.request sending.after
      (world.transport sending.message).answers

/-- The request of an engine that has begun to send. -/
def ofRequest (engine : Engine) (op : String) (fields : Table) (purpose : Purpose) : Sending :=
  ⟨{ engine with endedEarly := [], sending := true }, engine.session.message op fields,
    .work purpose⟩

/-- A question about a symbol. -/
def ofQuestion (engine : Engine) (code : String) (purpose : Purpose) : Sending :=
  ofRequest engine "eval" (Session.evalFields (.text code) .null .null .null) purpose

/-- The request of an evaluation, if its cycle can be started. -/
def ofEvaluation? (evaluation : Engine.Evaluation) : Option Sending :=
  match evaluation.prepared.perform (Engine.beginCycle evaluation.code) with
  | (begun, .ok _) =>
    some (ofRequest begun evaluation.op evaluation.fields (.evaluation evaluation.origin))
  | (_, .error _) => none

/-- The interruption of what is pending, if anything is. -/
def ofInterruption? (engine : Engine) : Option Sending :=
  match engine.state.pending with
  | none | some "" => none
  | some id =>
    some ⟨engine, engine.session.message "interrupt" (Session.interruptFields (.text id)),
      .work .unheard⟩

/-- The request for an identity, if the source can be read. -/
def ofStart? (world : World) (engine : Engine) : Option Sending :=
  match engine.perform (Engine.loadSource world.disk) with
  | (loaded, .ok _) => some ⟨loaded, loaded.session.identityMessage, .identity true⟩
  | (_, .error _) => none

end Sending

namespace Engine

/-- The message that an order sends, if it sends one. -/
def sending? (world : World) (engine : Engine) : Order → Option Sending
  | .start => Sending.ofStart? world engine
  | .documentation symbol =>
    some (.ofQuestion (engine.withState fun state =>
      { state with documentation := "", status := "doc " ++ symbol }) (documentationCode symbol)
      (.documentation symbol))
  | .definition symbol =>
    some (.ofQuestion (engine.withState fun state =>
      { state with definition := none, status := "locating " ++ symbol }) (definitionCode symbol)
      (.definition symbol))
  | .interrupt => Sending.ofInterruption? engine
  | order => (engine.evaluation? world order).bind Sending.ofEvaluation?

/-- What happens by an order, in order: the message is sent, and what comes back meanwhile; or
answers come back to a request that was sent before. -/
def happenings (world : World) (engine : Engine) (order : Order) : List Happening :=
  match order with
  | .answered id answers =>
    match engine.session.talkOf? id with
    | none => []
    | some index => hearingsAll world.disk index engine answers
  | _ =>
    match engine.sending? world order with
    | none => []
    | some sending => .sent sending :: sending.hearings world

/-- The engine comes to a state by anything that can be asked of it or come back, and this is what
happened on the way. -/
inductive Chronicled (first : Engine) : Engine → List Happening → Prop where
  /-- Nothing has happened. -/
  | start : Chronicled first first []
  /-- An order is carried out, or answers come back. -/
  | order {engine : Engine} {happened : List Happening} (world : World) (order : Order) :
    Chronicled first engine happened →
      Chronicled first (engine.obey world order) (happened ++ engine.happenings world order)
  /-- What was drawn is removed. -/
  | cleared {engine : Engine} {happened : List Happening} :
    Chronicled first engine happened → Chronicled first engine.clearDecorations happened
  /-- The session is ended. -/
  | stopped {engine : Engine} {happened : List Happening} :
    Chronicled first engine happened → Chronicled first engine.stop happened
  /-- The source is read again. -/
  | loaded {engine : Engine} {happened : List Happening} (disk : Disk) :
    Chronicled first engine happened →
      Chronicled first (engine.perform (loadSource disk)).1 happened
  /-- The source of a location is shown. -/
  | visited {engine : Engine} {happened : List Happening} (disk : Disk) (location : Location) :
    Chronicled first engine happened →
      Chronicled first (engine.perform (visit disk location)).1 happened
  /-- The source of a path is opened. -/
  | opened {engine : Engine} {happened : List Happening} (disk : Disk) (path : String) :
    Chronicled first engine happened →
      Chronicled first (engine.perform (openPath disk path)).1 happened
  /-- Error output of code from an origin is shown. -/
  | shown {engine : Engine} {happened : List Happening} (disk : Disk) (text : Datum)
    (origin : Origin) : Chronicled first engine happened →
      Chronicled first (engine.perform (showDiagnostic disk text origin)).1 happened

/-- Orders carried out one after another in one world, with what happens by them. -/
def chronicle (world : World) (first : Engine) (orders : List Order) : Engine × List Happening :=
  orders.foldl (fun (engine, happened) order =>
    (engine.obey world order, happened ++ engine.happenings world order)) (first, [])

/-- Orders one after another are a run. -/
theorem chronicled_chronicle (world : World) (first : Engine) (orders : List Order) :
    Chronicled first (chronicle world first orders).1 (chronicle world first orders).2 := by
  have each : ∀ (state : Engine × List Happening) (order : Order),
      Chronicled first state.1 state.2 → Chronicled first (state.1.obey world order)
        (state.2 ++ state.1.happenings world order) :=
    fun _ order chronicled => .order world order chronicled
  exact (Fallible.chains_property fun state : Engine × List Happening =>
    Chronicled first state.1 state.2).foldl each (first, []) orders .start

/-- An order to evaluate something sends the message of the evaluation it starts. -/
theorem sending?_evaluation (world : World) (engine : Engine) {order : Order}
    (evaluates : order.evaluates = true) :
    engine.sending? world order =
      (engine.evaluation? world order).bind Sending.ofEvaluation? := by
  cases order <;> first | rfl | contradiction

/-- By an order to evaluate something happens what happens by the evaluation it starts. -/
theorem happenings_evaluation (world : World) (engine : Engine) {order : Order}
    (evaluates : order.evaluates = true) :
    engine.happenings world order =
      match (engine.evaluation? world order).bind Sending.ofEvaluation? with
      | none => []
      | some sending => .sent sending :: sending.hearings world := by
  cases order <;> first | rfl | contradiction

/-- By an order that brings no late answers its message is sent, and what comes back meanwhile
happens. -/
theorem happenings_of_early (world : World) (engine : Engine) {order : Order}
    (early : ∀ id answers, order ≠ .answered id answers) :
    engine.happenings world order =
      match engine.sending? world order with
      | none => []
      | some sending => .sent sending :: sending.hearings world := by
  cases order <;> first | rfl | exact absurd rfl (early _ _)

/-- What happens by an order is that answers are heard, or that its message is sent and what comes
back meanwhile. -/
theorem happenings_cases (world : World) (engine : Engine) (order : Order) :
    (∃ index answers,
        engine.happenings world order = hearingsAll world.disk index engine answers) ∨
      engine.happenings world order =
        match engine.sending? world order with
        | none => []
        | some sending => .sent sending :: sending.hearings world := by
  rcases order.late_or_early with ⟨id, answers, rfl⟩ | early
  · rw [happenings]
    cases engine.session.talkOf? id with
    | none => exact .inl ⟨0, [], rfl⟩
    | some index => exact .inl ⟨index, answers, rfl⟩
  · exact .inr (happenings_of_early world engine early)

/-- Sending a message leaves what the answers to it leave that come back meanwhile, if the message
is taken. -/
theorem perform_send_heard (world : World) (sending : Sending) :
    (sending.engine.perform (send world sending.message sending.topic)).1 =
      match (world.transport sending.message).refusal with
      | some _ => sending.after
      | none =>
        (hearAll (hear world.disk sending.request) sending.after
          (world.transport sending.message).answers).1 := by
  rw [perform_send_exchange, hearExchange]
  cases (world.transport sending.message).refusal with
  | some fault => rfl
  | none =>
    dsimp only [Sending.request, Sending.after, recorded]
    cases hearAll (hear world.disk sending.engine.session.talks.length)
        { sending.engine.emit (.sent sending.message) with
          session := sending.engine.session.record sending.message sending.topic }
        (world.transport sending.message).answers with
    | mk after fault =>
      cases fault with
      | some fault => rfl
      | none => cases (world.transport sending.message).breakage <;> rfl

/-- What is sent by an order is its message. -/
theorem sending?_of_mem {world : World} {engine : Engine} {order : Order} {sending : Sending}
    (member : .sent sending ∈ engine.happenings world order) :
    engine.sending? world order = some sending := by
  rcases happenings_cases world engine order with ⟨index, answers, same⟩ | same
  · rw [same] at member
    exact absurd member not_sent_mem_hearingsAll
  · rw [same] at member
    cases sends : engine.sending? world order with
    | none =>
      rw [sends] at member
      contradiction
    | some other =>
      rw [sends] at member
      rcases List.mem_cons.mp member with first | later
      · cases first
        rfl
      · rw [Sending.hearings] at later
        split at later
        · contradiction
        · exact absurd later not_sent_mem_hearingsAll

/-- An interruption sends its message when something is pending, and else only shows a status. -/
theorem interrupt_cases (world : World) (engine : Engine) :
    (∃ status, engine.interrupt world = engine.showStatus status ∧
        Sending.ofInterruption? engine = none) ∨
      ∃ id, let fields := Session.interruptFields (.text id)
        engine.interrupt world = (engine.connected do
          discard (request world "interrupt" fields .unheard)
          modify (·.withStatus "interrupting")).notify ∧
        Sending.ofInterruption? engine =
          some ⟨engine, engine.session.message "interrupt" fields, .work .unheard⟩ := by
  rw [interrupt]
  split
  · rename_i nothing
    exact .inl ⟨_, rfl, by simp only [Sending.ofInterruption?, nothing]⟩
  · rename_i nothing
    exact .inl ⟨_, rfl, by simp only [Sending.ofInterruption?, nothing]⟩
  · rename_i id named pending
    exact .inr ⟨id, rfl, by simp only [Sending.ofInterruption?, pending]⟩

/-- The message of an order asks for an identity, about a symbol or to stop what is pending, or it
is that of an evaluation whose cycle was started. -/
theorem sending?_cases {world : World} {engine : Engine} {order : Order} {sending : Sending}
    (sends : engine.sending? world order = some sending) :
    (∃ loaded, engine.perform (loadSource world.disk) = (loaded, .ok ()) ∧
        sending = ⟨loaded, loaded.session.identityMessage, .identity true⟩) ∨
      (∃ symbol, sending = .ofQuestion (engine.withState fun state =>
          { state with documentation := "", status := "doc " ++ symbol })
        (documentationCode symbol) (.documentation symbol)) ∨
      (∃ symbol, sending = .ofQuestion (engine.withState fun state =>
          { state with definition := none, status := "locating " ++ symbol })
        (definitionCode symbol) (.definition symbol)) ∨
      (∃ id, sending = ⟨engine, engine.session.message "interrupt"
        (Session.interruptFields (.text id)), .work .unheard⟩) ∨
      ∃ evaluation begun, engine.evaluation? world order = some evaluation ∧
        evaluation.prepared.perform (beginCycle evaluation.code) = (begun, .ok ()) ∧
        sending = .ofRequest begun evaluation.op evaluation.fields
          (.evaluation evaluation.origin) := by
  have evaluates : (engine.evaluation? world order).bind Sending.ofEvaluation? = some sending →
      ∃ evaluation begun, engine.evaluation? world order = some evaluation ∧
        evaluation.prepared.perform (beginCycle evaluation.code) = (begun, .ok ()) ∧
        sending = .ofRequest begun evaluation.op evaluation.fields
          (.evaluation evaluation.origin) := by
    intro sends
    obtain ⟨evaluation, found, sends⟩ := Option.bind_eq_some_iff.mp sends
    rw [Sending.ofEvaluation?] at sends
    cases begun : evaluation.prepared.perform (beginCycle evaluation.code) with
    | mk after result =>
      rw [begun] at sends
      cases result with
      | error fault => contradiction
      | ok =>
        cases sends
        exact ⟨evaluation, after, found, begun, rfl⟩
  cases order with
  | start =>
    rw [sending?, Sending.ofStart?] at sends
    cases done : engine.perform (loadSource world.disk) with
    | mk loaded result =>
      rw [done] at sends
      cases result with
      | error fault => contradiction
      | ok =>
        cases sends
        exact .inl ⟨loaded, rfl, rfl⟩
  | documentation symbol =>
    cases sends
    exact .inr (.inl ⟨symbol, rfl⟩)
  | definition symbol =>
    cases sends
    exact .inr (.inr (.inl ⟨symbol, rfl⟩))
  | interrupt =>
    rcases interrupt_cases world engine with ⟨_, _, nothing⟩ | ⟨id, _, own⟩
    · cases nothing.symm.trans sends
    · cases own.symm.trans sends
      exact .inr (.inr (.inr (.inl ⟨id, rfl⟩)))
  | answered id answers => contradiction
  | _ => exact .inr (.inr (.inr (.inr (evaluates sends))))

/-! ## What a run narrates -/

/-- A view that nothing but a happening changes: it shows neither the source nor how a request is
sent, neither the status nor what is drawn. -/
structure Undisturbed {β : Type} (view : Engine → β) : Prop extends Sourceless view where
  /-- It does not show that the view is told. -/
  told : ∀ engine : Engine, view engine.notify = view engine
  /-- It does not show what is watched. -/
  watching : ∀ (engine : Engine) watch, view { engine with watch } = view engine
  /-- It does not show that the connection is closed. -/
  closed : ∀ engine : Engine, view (engine.emit .closed) = view engine
  /-- It does not show that a request is being sent. -/
  sending : ∀ (engine : Engine) sending, view { engine with sending } = view engine
  /-- It shows neither the connection nor what is pending. -/
  connected : ∀ (engine : Engine) connected status pending,
    view (engine.withState fun state => { state with connected, status, pending }) = view engine
  /-- It does not show what is drawn. -/
  drawn : ∀ (engine : Engine) decorations, view { engine with decorations } = view engine
  /-- It does not show the diagnostics. -/
  diagnosed : ∀ (engine : Engine) diagnostics,
    view (engine.withState fun state => { state with diagnostics }) = view engine

namespace Undisturbed

variable {β : Type} {view : Engine → β} (undisturbed : Undisturbed view)
include undisturbed

/-- What needs the connection shows what the action shows. -/
theorem view_connected (engine : Engine) (action : Action Unit) :
    view (engine.connected action) = view (engine.perform action).1 :=
  connected_leads (Fallible.chains_view view) (fun engine _ => undisturbed.connected engine _ _ _)
    engine action

/-- A message that is sent when there is a connection is all that is shown. -/
theorem view_connected_send (world : World) {engine : Engine} {message : Message}
    {topic : Topic Purpose} {action : Action String}
    (sends : engine.perform action = engine.perform (send world message topic))
    {change : Engine → Engine} (same : ∀ engine, view (change engine) = view engine) :
    view (engine.connected do
      discard action
      modify change) = view (engine.perform (send world message topic)).1 := by
  have changed : view (engine.perform do
      discard action
      modify change).1 = view (engine.perform (discard action)).1 :=
    perform_leads_from (Fallible.chains_view view) (discard action)
      (fun _ => keeps_modify same) engine
  have discarded : (engine.perform (discard action)).1 = (engine.perform action).1 := by
    rw [perform_discard]
    cases engine.perform action with
    | mk after result => cases result <;> rfl
  rw [undisturbed.view_connected, changed, discarded, sends]

/-- An evaluation is one of code or of the whole source, and is prepared without being shown. -/
theorem evaluation?_cases {world : World} {engine : Engine} {order : Order}
    {evaluation : Evaluation} (found : engine.evaluation? world order = some evaluation) :
    ∃ prepared : Engine, view prepared = view engine ∧
      ((∃ code origin, evaluation = .ofCode prepared code origin) ∨
        evaluation = .ofSource prepared) := by
  have part : ∀ part : SourcePart, Evaluation.ofPart? engine part = some evaluation →
      ∃ code origin, evaluation = .ofCode engine code origin := by
    intro part found
    obtain ⟨span, _, rfl⟩ := Option.map_eq_some_iff.mp found
    exact ⟨_, _, rfl⟩
  have save : ∀ {now : Engine}, view now = view engine →
      Evaluation.ofSave? world.disk now = some evaluation →
      ∃ prepared : Engine, view prepared = view engine ∧ evaluation = .ofSource prepared := by
    intro now same found
    have kept := undisturbed.keeps_loadSource world.disk now
    rw [Evaluation.ofSave?] at found
    cases done : now.perform (loadSource world.disk) with
    | mk loaded result =>
      rw [done] at found kept
      cases result with
      | error fault => contradiction
      | ok =>
        dsimp only at found
        split at found
        · cases found
          exact ⟨loaded, kept.trans same, rfl⟩
        · contradiction
  cases order with
  | topLevel offset => exact ⟨engine, rfl, .inl (part (.topLevel offset) found)⟩
  | last offset => exact ⟨engine, rfl, .inl (part (.last offset) found)⟩
  | region first second => exact ⟨engine, rfl, .inl (part (.region first second) found)⟩
  | namespaceForm => exact ⟨engine, rfl, .inl (part .namespaceForm found)⟩
  | code | inNamespace =>
    cases found
    exact ⟨engine, rfl, .inl ⟨_, _, rfl⟩⟩
  | buffer =>
    cases found
    exact ⟨engine, rfl, .inr rfl⟩
  | saved =>
    obtain ⟨prepared, same, loads⟩ := save rfl found
    exact ⟨prepared, same, .inr loads⟩
  | changed event now =>
    simp only [evaluation?] at found
    split at found
    · contradiction
    · split at found
      · obtain ⟨prepared, same, loads⟩ := save (undisturbed.watching engine _) found
        exact ⟨prepared, same, .inr loads⟩
      · contradiction
  | start | documentation | definition | interrupt | answered => contradiction

/-- An evaluation is prepared without being shown. -/
theorem view_prepared {world : World} {engine : Engine} {order : Order} {evaluation : Evaluation}
    (found : engine.evaluation? world order = some evaluation) :
    view evaluation.prepared = view engine := by
  obtain ⟨prepared, same, ⟨_, _, rfl⟩ | rfl⟩ := undisturbed.evaluation?_cases found <;> exact same

end Undisturbed

/-- A relation from an engine by what happens to the engine behind it, which holds over a whole run
as soon as it holds over each message and over answers. -/
structure Narrates {β : Type} (view : Engine → β)
    (relation : Engine → List Happening → Engine → Prop) : Prop where
  /-- Nothing else changes the view. -/
  undisturbed : Undisturbed view
  /-- Nothing happens. -/
  quiet : ∀ {before after}, view after = view before → relation before [] after
  /-- One part happens after another. -/
  trans : ∀ {before middle after earlier later}, relation before earlier middle →
    relation middle later after → relation before (earlier ++ later) after
  /-- A message is sent. -/
  sent : ∀ {world engine order sending}, engine.sending? world order = some sending →
    relation engine [.sent sending] sending.after
  /-- The cycle of an evaluation cannot be started. -/
  failed : ∀ {engine begun code fault}, engine.perform (beginCycle code) = (begun, .error fault) →
    relation engine [] begun
  /-- Answers are heard. -/
  heard : ∀ disk index answers engine, relation engine (hearingsAll disk index engine answers)
    (hearAll (hear disk index) engine answers).1

namespace Narrates

variable {β : Type} {view : Engine → β} {relation : Engine → List Happening → Engine → Prop}
  (narrates : Narrates view relation) {world : World}
include narrates

/-- What is not shown may come first. -/
theorem of_view {first before after : Engine} {happened : List Happening}
    (related : relation before happened after) (same : view before = view first) :
    relation first happened after :=
  narrates.trans (narrates.quiet same) related

/-- What is not shown may follow. -/
theorem then_quiet {before middle after : Engine} {happened : List Happening}
    (related : relation before happened middle) (same : view after = view middle) :
    relation before happened after := by
  have both := narrates.trans related (narrates.quiet same)
  rwa [List.append_nil] at both

/-- A message is followed by what comes back meanwhile. -/
theorem send (sending : Sending) :
    relation sending.after (sending.hearings world)
      (sending.engine.perform (Engine.send world sending.message sending.topic)).1 := by
  rw [perform_send_heard, Sending.hearings]
  cases (world.transport sending.message).refusal with
  | some fault => exact narrates.quiet rfl
  | none => exact narrates.heard world.disk sending.request _ sending.after

/-- The message of an order is followed by what comes back meanwhile, and then by what is not
shown. -/
theorem sending {engine after : Engine} {order : Order} {sending : Sending}
    (sends : engine.sending? world order = some sending)
    (settled : view after =
      view (sending.engine.perform (Engine.send world sending.message sending.topic)).1) :
    relation engine (.sent sending :: sending.hearings world) after :=
  narrates.then_quiet (narrates.trans (narrates.sent sends) (narrates.send sending)) settled

/-- A request shows its message and what comes back meanwhile. -/
theorem view_dispatch (op : String) (fields : Table) (purpose : Purpose) (tracked : Bool)
    (engine : Engine) :
    let sending := Sending.ofRequest engine op fields purpose
    view (engine.dispatch world op fields purpose tracked) =
      view (sending.engine.perform (Engine.send world sending.message sending.topic)).1 := by
  obtain ⟨asked, same, told⟩ := dispatch_leads (Fallible.chains_view view)
    (fun engine _ => narrates.undisturbed.connected engine _ _ _)
    (fun engine _ => narrates.undisturbed.connected engine _ _ _)
    (fun engine => narrates.undisturbed.sending engine false) op fields purpose tracked engine
  rw [told]
  exact (narrates.undisturbed.told asked).trans same

/-- An order to evaluate something narrates its message, if it starts an evaluation. -/
theorem evaluation {engine : Engine} {order : Order} {evaluation : Evaluation}
    (evaluates : order.evaluates = true)
    (found : engine.evaluation? world order = some evaluation) :
    relation engine (engine.happenings world order) (engine.obey world order) := by
  have sends : engine.sending? world order = Sending.ofEvaluation? evaluation := by
    rw [sending?_evaluation world engine evaluates, found]
    rfl
  have prepared := narrates.undisturbed.view_prepared found
  rw [happenings_evaluation world engine evaluates, found, obey_evaluation world found,
    Evaluation.action, perform_bind, Option.bind_some]
  rw [Sending.ofEvaluation?] at sends ⊢
  cases begun : evaluation.prepared.perform (beginCycle evaluation.code) with
  | mk after result =>
    rw [begun] at sends
    cases result with
    | error fault => exact narrates.of_view (narrates.failed begun) prepared
    | ok => exact narrates.sending sends (narrates.view_dispatch ..)

/-- The start narrates its message, if the source can be read. -/
theorem start (engine : Engine) :
    relation engine (engine.happenings world .start) (engine.obey world .start) := by
  have kept := narrates.undisturbed.keeps_loadSource world.disk engine
  have sends : engine.sending? world .start = Sending.ofStart? world engine := rfl
  have happens : engine.happenings world .start =
      match Sending.ofStart? world engine with
      | none => []
      | some sending => .sent sending :: sending.hearings world := rfl
  rw [happens, Engine.obey, start_eq, perform_bind]
  rw [Sending.ofStart?] at sends ⊢
  cases done : engine.perform (loadSource world.disk) with
  | mk loaded result =>
    rw [done] at kept sends
    cases result with
    | error fault => exact narrates.quiet kept
    | ok =>
      have watches : Keeps view (do
          startWatching world.disk (← get).state.sourcePath
          modify notify) := by
        refine keeps_bind keeps_get fun now => ?_
        exact keeps_bind (narrates.undisturbed.keeps_startWatching world.disk _) fun _ =>
          keeps_modify narrates.undisturbed.told
      have asks : view (loaded.connected (connecting world loaded)) =
          view (loaded.perform
            (Engine.send world loaded.session.identityMessage (.identity true))).1 :=
        narrates.undisturbed.view_connected_send world rfl fun now =>
          narrates.undisturbed.connected now true "connected" now.state.pending
      exact narrates.sending sends ((watches _).trans asks)

/-- An interruption narrates its message, if something is pending. -/
theorem interrupt (engine : Engine) :
    relation engine (engine.happenings world .interrupt) (engine.obey world .interrupt) := by
  have sends : engine.sending? world .interrupt = Sending.ofInterruption? engine := rfl
  have happens : engine.happenings world .interrupt =
      match Sending.ofInterruption? engine with
      | none => []
      | some sending => .sent sending :: sending.hearings world := rfl
  rw [happens, Engine.obey]
  rcases interrupt_cases world engine with ⟨status, shown, nothing⟩ | ⟨id, asked, found⟩
  · rw [shown, nothing]
    exact narrates.quiet ((narrates.undisturbed.told _).trans
      (narrates.undisturbed.status engine status))
  · rw [asked, found]
    have asks := narrates.undisturbed.view_connected_send world (perform_request engine "interrupt"
      (Session.interruptFields (.text id)) .unheard) fun now =>
        narrates.undisturbed.status now "interrupting"
    exact narrates.sending (sends.trans found) ((narrates.undisturbed.told _).trans asks)

/-- An order narrates what happens by it. -/
theorem obey (engine : Engine) (order : Order) :
    relation engine (engine.happenings world order) (engine.obey world order) := by
  by_cases evaluates : order.evaluates = true
  · cases found : engine.evaluation? world order with
    | none =>
      rw [happenings_evaluation world engine evaluates, found]
      exact narrates.quiet (narrates.undisturbed.view_obey narrates.undisturbed.told
        narrates.undisturbed.watching world evaluates found)
    | some evaluation => exact narrates.evaluation evaluates found
  · cases order with
    | start => exact narrates.start engine
    | documentation symbol =>
      have sends : engine.sending? world (.documentation symbol) = some _ := rfl
      exact narrates.sending sends (narrates.view_dispatch ..)
    | definition symbol =>
      have sends : engine.sending? world (.definition symbol) = some _ := rfl
      exact narrates.sending sends (narrates.view_dispatch ..)
    | interrupt => exact narrates.interrupt engine
    | answered id answers =>
      rw [happenings, Engine.obey, deliver]
      cases engine.session.talkOf? id with
      | none => exact narrates.quiet rfl
      | some index => exact narrates.heard world.disk index answers engine
    | code | topLevel | last | region | buffer | inNamespace | namespaceForm | saved | changed =>
      exact absurd rfl evaluates

/-- A run narrates what happened in it. -/
theorem chronicled {first engine : Engine} {happened : List Happening}
    (chronicled : Chronicled first engine happened) : relation first happened engine := by
  have undisturbed := narrates.undisturbed
  induction chronicled with
  | start => exact narrates.quiet rfl
  | order world order _ ih => exact narrates.trans ih (narrates.obey _ order)
  | @cleared engine _ _ ih =>
    refine narrates.then_quiet ih ((undisturbed.told _).trans ?_)
    have undrawn := undisturbed.drawn engine []
    have undiagnosed := undisturbed.diagnosed { engine with decorations := [] } []
    exact (undisturbed.connected _ _ _ none).trans (undiagnosed.trans undrawn)
  | @stopped engine _ _ ih =>
    refine narrates.then_quiet ih ?_
    have ended := (undisturbed.closed engine.stopWatching).trans (undisturbed.unwatched engine)
    exact (undisturbed.connected _ false _ _).trans ended
  | loaded disk _ ih => exact narrates.then_quiet ih (undisturbed.keeps_loadSource disk _)
  | visited disk location _ ih =>
    exact narrates.then_quiet ih (undisturbed.keeps_visit disk location _)
  | opened disk path _ ih =>
    exact narrates.then_quiet ih (keeps_openPath undisturbed.opened disk path _)
  | shown disk text origin _ ih =>
    exact narrates.then_quiet ih (keeps_showDiagnostic
      (fun engine _ => undisturbed.diagnosed engine _) undisturbed.opened
      (fun engine _ => undisturbed.drawn engine _) disk text origin _)

end Narrates

/-! ## The news of a run -/

/-- Sources are no news. -/
theorem sourceless_news : Sourceless news where
  status _ _ := rfl
  opened _ _ := rfl
  projectRoot _ _ := rfl
  unwatched engine := by
    have sends : engine.stopWatching.messages = engine.messages :=
      congrArg Tracking.messages (tracking_stopWatching engine)
    unfold stopWatching at sends ⊢
    split
    · rename_i watched
      rw [if_pos watched] at sends
      simp only [news, sends]
      rfl
    · rfl
  watched engine path directory watch := by
    have sends : (engine.emit (.watched path directory)).messages = engine.messages :=
      congrArg Tracking.messages (tracking_emit rfl engine)
    simp only [messages] at sends
    simp only [news, messages, sends]
    rfl
  reloaded _ _ _ := rfl
  shown _ _ := rfl

/-- Only what happens is news. -/
theorem undisturbed_news : Undisturbed news where
  toSourceless := sourceless_news
  told := news_notify
  watching _ _ := rfl
  closed engine := by
    have sends : (engine.emit .closed).messages = engine.messages :=
      congrArg Tracking.messages (tracking_emit rfl engine)
    simp only [news, sends]
    rfl
  sending _ _ := rfl
  connected _ _ _ _ := rfl
  drawn _ _ := rfl
  diagnosed _ _ := rfl

/-- The start of a cycle is no news. -/
theorem beginCycle_keeps_news (code : String) : Keeps news (beginCycle code) := by
  refine keeps_bind (keeps_modify fun _ => rfl) fun _ => ?_
  refine keeps_bind (keeps_modify fun _ => rfl) fun _ => ?_
  exact keeps_bind (fun _ => rfl) fun _ => keeps_modify fun _ => rfl

/-- Messages are prepared without news, but for what is forgotten before a question. -/
theorem news_of_sending? {world : World} {engine : Engine} {order : Order} {sending : Sending}
    (sends : engine.sending? world order = some sending) :
    sending.engine.news = engine.news.cleared sending.topic := by
  rcases sending?_cases sends with ⟨loaded, done, rfl⟩ | ⟨symbol, rfl⟩ | ⟨symbol, rfl⟩ |
    ⟨id, rfl⟩ | ⟨evaluation, begun, found, done, rfl⟩
  · have kept := sourceless_news.keeps_loadSource world.disk engine
    rwa [done] at kept
  · rfl
  · rfl
  · rfl
  · have kept := beginCycle_keeps_news evaluation.code evaluation.prepared
    rw [done] at kept
    exact kept.trans (undisturbed_news.view_prepared found)

/-- Runs narrate their news. -/
theorem narrates_unfolds : Narrates news Unfolds where
  undisturbed := undisturbed_news
  quiet := .quiet
  trans := Unfolds.trans
  sent sends := .sent _ (news_of_sending? sends) (.quiet rfl)
  failed {engine begun code fault} failed := by
    have kept := beginCycle_keeps_news code engine
    rw [failed] at kept
    exact .quiet kept
  heard := unfolds_hearAll

/-- What happened in a run unfolds. -/
theorem Chronicled.unfolds {first engine : Engine} {happened : List Happening}
    (chronicled : Chronicled first engine happened) : Unfolds first happened engine :=
  narrates_unfolds.chronicled chronicled

/-- What comes back while a message is sent sends no other. -/
theorem filterMap_message?_sent (world : World) (sends : Option Sending) :
    List.filterMap Happening.message? (match sends with
      | none => []
      | some sending => .sent sending :: sending.hearings world) =
        (sends.map (·.message)).toList := by
  cases sends with
  | none => rfl
  | some sending =>
    have quiet : (sending.hearings world).filterMap Happening.message? = [] := by
      refine List.filterMap_eq_nil_iff.mpr fun happening member => ?_
      cases happening with
      | heard hearing => rfl
      | sent other =>
        rw [Sending.hearings] at member
        split at member
        · contradiction
        · exact absurd member not_sent_mem_hearingsAll
    have first : Happening.message? (.sent sending) = some sending.message := rfl
    rw [List.filterMap_cons_some first, quiet]
    rfl

/-- An order sends its message and no other. -/
theorem messages_obey (world : World) (engine : Engine) (order : Order) :
    (engine.obey world order).messages =
      engine.messages ++ ((engine.sending? world order).map (·.message)).toList := by
  rw [(narrates_unfolds.obey engine order).messages]
  congr 1
  cases order with
  | answered id answers =>
    refine List.filterMap_eq_nil_iff.mpr fun happening member => ?_
    cases happening with
    | heard hearing => rfl
    | sent sending => cases sending?_of_mem member
  | documentation symbol =>
    exact filterMap_message?_sent world (engine.sending? world (.documentation symbol))
  | definition symbol =>
    exact filterMap_message?_sent world (engine.sending? world (.definition symbol))
  | _ => exact filterMap_message?_sent world _

end Engine
end EvalDesk
