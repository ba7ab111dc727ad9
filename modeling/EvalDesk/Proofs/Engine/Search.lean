import EvalDesk.Proofs.Engine.Announce

/-!
# Searching a definition

A request for a definition is answered twice: first with a location, which is known from then on,
and then with the end, at which the source of the location is shown. Nothing else of the location
is looked up before the end. Evaluations in between change neither the definition that is known nor
the source.
-/
namespace EvalDesk.Engine

open Fallible

/-! ## What requests cannot change -/

section Requestless

variable {β : Type} {view : Engine → β}

/-- A view that shows nothing of requests: neither the session and what is told outside, nor what
is pending and the status. -/
structure Requestless (view : Engine → β) : Prop where
  /-- It does not show what is told. -/
  emitted : ∀ engine effect, view (emit engine effect) = view engine
  /-- It does not show the session. -/
  session : ∀ (engine : Engine) session, view { engine with session } = view engine
  /-- It does not show that a request is being sent. -/
  sending : ∀ (engine : Engine) sending names,
    view { engine with sending, endedEarly := names } = view engine
  /-- It does not show how far requests have come. -/
  progress : ∀ (engine : Engine) pending connected status,
    view (engine.withState fun state => { state with pending, connected, status }) = view engine

variable (apart : Requestless view)
include apart

/-- Events for a purpose change nothing when none of them does. -/
theorem Requestless.takeNotices {disk : Disk} {purpose : Purpose}
    (events : ∀ event, Keeps view (purposeEvent disk purpose event)) (told : List Event)
    (engine : Engine) :
    view ((told.map (Notice.event purpose)).foldl (takeNotice disk) engine) = view engine := by
  have own : ∀ (now : Engine) (event : Event),
      view (takeNotice disk now (.event purpose event)) = view now := by
    intro now event
    by_cases heard : purpose = .unheard
    · rw [heard]
      rfl
    · rw [takeNotice_heard disk heard]
      exact view_reporting (events event) (fun engine status => apart.progress engine _ _ status)
        (fun engine => apart.emitted engine _) now
  rw [List.foldl_map]
  exact (chains_view view).foldl own engine told

/-- An answer to a request changes nothing when no event for its purpose does. -/
theorem Requestless.hear {disk : Disk} {purpose : Purpose} {index : Nat}
    (events : ∀ event, Keeps view (purposeEvent disk purpose event)) {engine : Engine}
    (request : (engine.session.requests[index]?).map (·.2) = some (.work purpose))
    (answer : Table) : view (hear disk index engine answer).1 = view engine := by
  obtain ⟨talk, known, topic⟩ := Session.exists_talk request
  cases read : Event.statuses answer with
  | error fault => rw [hear_unread disk known topic read]
  | ok words =>
    obtain ⟨session, statuses, received, _, _⟩ := receive_work known topic read
    simp only [Engine.hear, received]
    exact (apart.takeNotices events _ _).trans (apart.session engine session)

/-- A message changes nothing when no event for its purpose does. -/
theorem Requestless.keeps_send {world : World} {purpose : Purpose}
    (events : ∀ event, Keeps view (purposeEvent world.disk purpose event)) (message : Message) :
    Keeps view (send world message (.work purpose)) := by
  intro engine
  let index := engine.session.talks.length
  let asks (now : Engine) : Prop :=
    (now.session.requests[index]?).map (·.2) = some (.work purpose)
  have each : ∀ (now : Engine) (answer : Table),
      asks now → asks (Engine.hear world.disk index now answer).1 ∧
        view (Engine.hear world.disk index now answer).1 = view now := by
    intro now answer request
    refine ⟨?_, apart.hear events request answer⟩
    simp only [asks, requests_hear]
    exact request
  have chains : Chains fun before after : Engine => asks before →
      asks after ∧ view after = view before :=
    ⟨fun _ request => ⟨request, rfl⟩, fun first second request =>
      ⟨(second (first request).1).1, (second (first request).1).2.trans (first request).2⟩⟩
  have heard := send_leads chains each message (.work purpose) (by
    simp only [asks, recorded, Session.requests_record]
    simp [index, Session.requests])
  have begun : view (engine.recorded message (.work purpose)) = view engine :=
    (apart.session _ _).trans (apart.emitted engine _)
  exact heard.2.trans begun

/-- A request changes nothing when no event for its purpose does. -/
theorem Requestless.dispatch {world : World} {purpose : Purpose}
    (events : ∀ event, Keeps view (purposeEvent world.disk purpose event)) (op : String)
    (fields : Table) (tracked : Bool) (engine : Engine) :
    view (engine.dispatch world op fields purpose tracked) = view engine := by
  obtain ⟨asked, same, told⟩ := dispatch_leads (chains_view view)
    (fun engine _ => apart.progress engine _ _ _) (fun engine _ => apart.progress engine _ _ _)
    (fun engine => apart.sending engine false _) op fields purpose tracked engine
  have sent := (apart.keeps_send events (engine.session.message op fields) _).trans
    (apart.sending engine true [])
  rw [told]
  exact (apart.emitted asked _).trans (same.trans sent)

end Requestless

/-! ## What is known of a definition -/

/-- The definition that is known and the source. -/
structure Outlook where
  /-- The definition that is known. -/
  definition : Option Definition
  /-- The source that is known. -/
  source : String × String
  /-- The source that was read. -/
  buffer : Buffer

/-- What is known of definition and source. -/
def outlook (engine : Engine) : Outlook := ⟨engine.state.definition, engine.source, engine.buffer⟩

/-- Requests cannot change it by themselves. -/
theorem requestless_outlook : Requestless outlook :=
  ⟨fun _ _ => rfl, fun _ _ => rfl, fun _ _ _ => rfl, fun _ _ _ _ => rfl⟩

/-- What keeps all that advances keeps the definition and the source. -/
theorem keeps_outlook {α : Type} {action : Action α} (keeps : Keeps course action) :
    Keeps outlook action :=
  keeps_part keeps fun course : Course =>
    (⟨course.definition, (course.scene.sourcePath, course.sourceText), course.scene.buffer⟩ :
      Outlook)

/-- Evaluating code keeps the definition and the source. -/
theorem evaluate_keeps_outlook (world : World) (code : String) (origin : Origin) :
    Keeps outlook (evaluate world code origin) := by
  refine keeps_bind (keeps_outlook (beginCycle_keeps_course code)) fun _ => ?_
  refine keeps_modify fun engine => requestless_outlook.dispatch (fun event => ?_) _ _ _ engine
  exact keeps_outlook (evaluationEvent_keeps_course world.disk origin event)

/-- Evaluating code that comes from nowhere in the source keeps them as well. -/
theorem evaluateCode_keeps_outlook (world : World) (code : String) :
    Keeps outlook (evaluateCode world code) :=
  keeps_bind keeps_get fun _ => evaluate_keeps_outlook world code _

/-! ## Where a location leads -/

/-- What the source of a location is looked up with. -/
structure Library where
  /-- The settings. -/
  settings : Settings
  /-- The directory of the project. -/
  projectRoot : Path
  /-- The path of the source that is shown. -/
  sourcePath : String
  /-- This source. -/
  buffer : Buffer
  /-- The other sources that were opened. -/
  opened : List (String × Buffer)

/-- What the source of a location is looked up with. -/
def library (engine : Engine) : Library :=
  ⟨engine.settings, engine.projectRoot, engine.state.sourcePath, engine.buffer, engine.opened⟩

/-- The location names a source that exists: the path under which it is shown, and the source. -/
inductive Finds (engine : Engine) (disk : Disk) (location : Location) : String → Buffer → Prop where
  /-- It is the file that is shown. -/
  | same {path : Path} : location.archive = none ∨ location.archive = some "" →
    engine.resolvePath disk location.path = .ok (some path) →
    path.text = engine.state.sourcePath → Finds engine disk location path.text engine.buffer
  /-- It is another file, which can be read, and its project can be found. -/
  | file {path root : Path} {buffer : Buffer} :
    location.archive = none ∨ location.archive = some "" →
    engine.resolvePath disk location.path = .ok (some path) →
    path.text ≠ engine.state.sourcePath → Source.ofFile disk path.text = .ok buffer →
    Discovery.projectRoot disk path.text = .ok root → Finds engine disk location path.text buffer
  /-- It is an entry of an archive, which can be opened. -/
  | entry {archive : String} {buffer : Buffer} {opened : List (String × Buffer)} :
    location.archive = some archive → archive ≠ "" →
    engine.openBuffer disk (Source.entryPath archive location.path) = .ok (buffer, opened) →
    Finds engine disk location location.path buffer

section Library

variable {engine after : Engine} {disk : Disk}

/-- What a path stands for depends only on what it is looked up with. -/
theorem resolvePath_of_library (same : after.library = engine.library) (path : String) :
    after.resolvePath disk path = engine.resolvePath disk path := by
  have settings : after.settings = engine.settings := congrArg Library.settings same
  have root : after.projectRoot = engine.projectRoot := congrArg Library.projectRoot same
  simp only [resolvePath, bases, settings, root]

/-- So does the buffer of a path. -/
theorem openBuffer_of_library (same : after.library = engine.library) (path : String) :
    after.openBuffer disk path = engine.openBuffer disk path := by
  have shown : after.state.sourcePath = engine.state.sourcePath := congrArg Library.sourcePath same
  have source : after.buffer = engine.buffer := congrArg Library.buffer same
  have opened : after.opened = engine.opened := congrArg Library.opened same
  simp only [openBuffer, otherBuffer?, readOther, resolvePath_of_library same, shown, source,
    opened]

/-- So does where a location leads. -/
theorem Finds.of_library {location : Location} {path : String} {buffer : Buffer}
    (finds : engine.Finds disk location path buffer) (same : after.library = engine.library) :
    after.Finds disk location path buffer := by
  have shown : after.state.sourcePath = engine.state.sourcePath := congrArg Library.sourcePath same
  have source : after.buffer = engine.buffer := congrArg Library.buffer same
  have resolves := fun path => @resolvePath_of_library _ _ disk same path
  cases finds with
  | same plain found own =>
    rw [← source]
    exact .same plain ((resolves _).trans found) (own.trans shown.symm)
  | file plain found other read project =>
    exact .file plain ((resolves _).trans found) (shown ▸ other) read project
  | entry inside there opens =>
    exact .entry inside there ((openBuffer_of_library same _).trans opens)

end Library

/-- A location in an archive is visited by opening the path of the entry. -/
theorem visit_archived {disk : Disk} {location : Location} {archive : String}
    (inside : location.archive = some archive) (filled : archive ≠ "") :
    visit disk location = (do
      let buffer ← openPath disk (Source.entryPath archive location.path)
      modify fun engine => engine.stopWatching.showBuffer buffer
      return location) := by
  unfold visit
  split
  · rename_i none_such
    cases inside.symm.trans none_such
  · rename_i empty
    exact absurd (Option.some.inj (inside.symm.trans empty)) filled
  · rename_i own
    cases inside.symm.trans own
    rfl

/-- The source that a location names is shown. -/
theorem perform_visit {engine : Engine} {disk : Disk} {location : Location} {path : String}
    {buffer : Buffer} (finds : engine.Finds disk location path buffer) :
    ∃ after, engine.perform (visit disk location) = (after, .ok { location with path }) ∧
      after.buffer = buffer := by
  have plainly : location.archive = none ∨ location.archive = some "" →
      visit disk location = visitFile disk location := by
    rintro (plain | plain) <;> simp only [visit, plain]
  cases finds with
  | same plain found own =>
    refine ⟨engine, ?_, rfl⟩
    rw [plainly plain]
    simp only [visitFile, perform_bind, perform_get, perform_lift, found, own, ne_eq,
      not_true_eq_false, ↓reduceIte, perform_pure]
  | @file path root buffer plain found other read project =>
    have clean : ¬path.text.toList.contains '\x00' = true := by
      intro null
      cases (ofFile_null null).symm.trans read
    obtain ⟨resolved, resolves⟩ := exists_resolve disk clean
    have watches := startWatching_succeeds resolves { engine with projectRoot := root }
    rw [plainly plain]
    simp only [visitFile, perform_bind, perform_get, perform_lift, found, other, ne_eq,
      not_false_eq_true, ↓reduceIte, read, project, perform_modify]
    revert watches
    cases perform { engine with projectRoot := root } (startWatching disk path.text) with
    | mk after result =>
      intro watches
      cases watches
      exact ⟨after.showBuffer buffer, rfl, rfl⟩
  | @entry archive buffer opened inside there opens =>
    rw [visit_archived inside there]
    simp only [openPath, perform_bind, perform_get, perform_lift, opens, perform_modify,
      perform_pure]
    exact ⟨_, rfl, rfl⟩

/-! ## Answers -/

/-- An answer that tells a location and nothing else. -/
structure TellsLocation (location : Location) (answer : Table) : Prop where
  /-- Its value is the location. -/
  told : ∃ result ns id, Event.goingOn answer = [.value result ns id] ∧
    Location.ofDatum? result = .ok (some location)
  /-- The request has not ended. -/
  goes_on : ∃ words, Event.statuses answer = .ok words ∧ words.contains Event.doneStatus = false

/-- An answer that tells the end of a request and nothing else. -/
structure TellsEnd (answer : Table) : Prop where
  /-- Nothing goes on. -/
  quiet : Event.goingOn answer = []
  /-- The request has ended. -/
  ends : ∃ words, Event.statuses answer = .ok words ∧ words.contains Event.doneStatus = true
  /-- It carries an identity. -/
  named : ∃ name, answer.get "id" = .text name

section Answers

variable (disk : Disk) {engine : Engine} {index : Nat} {symbol : String} {answer : Table}

/-- A location that comes back is known from then on. -/
theorem hear_location {location : Location}
    (request : (engine.session.requests[index]?).map (·.2) = some (.work (.definition symbol)))
    (tells : TellsLocation location answer) :
    ∃ session, hear disk index engine answer =
      (({ engine with session }.setDefinition (some location)).notify, none) := by
  obtain ⟨talk, known, topic⟩ := Session.exists_talk request
  obtain ⟨result, ns, id, going, located⟩ := tells.told
  obtain ⟨words, read, goes_on⟩ := tells.goes_on
  obtain ⟨session, statuses, received, _, _⟩ := receive_work known topic read
  refine ⟨session, ?_⟩
  simp only [hear, received, going, goes_on, Bool.false_eq_true, ↓reduceIte, List.append_nil,
    List.map_cons, List.map_nil, List.foldl_cons, List.foldl_nil, takeNotice, purposeEvent,
    reporting, definitionEvent, perform_bind, perform_lift, located, perform_modify]

/-- At the end of the request the source of the location that is known is shown, if there is one,
and the view is told. -/
theorem hear_end {found : Definition} {path : String} {buffer : Buffer}
    (request : (engine.session.requests[index]?).map (·.2) = some (.work (.definition symbol)))
    (ends : TellsEnd answer) (known : engine.state.definition = some found)
    (finds : engine.Finds disk found.location path buffer) :
    ∃ shown : Engine, hear disk index engine answer = (shown.notify, none) ∧
      Advances engine shown ∧
      shown.state.definition = some { found with location := { found.location with path } } ∧
      shown.buffer = buffer := by
  obtain ⟨talk, talked, topic⟩ := Session.exists_talk request
  obtain ⟨words, read, done⟩ := ends.ends
  obtain ⟨name, named⟩ := ends.named
  obtain ⟨session, statuses, received, requests, _⟩ := receive_work talked topic read
  let begun := { engine with session }
  have begins : Advances engine begun := by
    apply Advances.of_course
    simp only [course, begun, requests, scene]
  obtain ⟨ended, completes, _⟩ := perform_complete begun statuses name
  have kept : ended.outlook = begun.outlook ∧ ended.library = begun.library := by
    have keeps : Keeps (fun engine : Engine => (engine.outlook, engine.library))
        (complete statuses (.text name)) :=
      complete_keeps (fun _ _ => rfl) (fun _ _ _ _ => rfl) statuses (.text name)
    have same := keeps begun
    rw [completes] at same
    exact Prod.mk.inj same
  have still : ended.state.definition = some found :=
    (congrArg Outlook.definition kept.1).trans known
  obtain ⟨visited, visits, source⟩ := perform_visit (finds.of_library kept.2)
  let status := symbol ++ " -> " ++ path ++ ":" ++ toString found.location.line
  let location := { found.location with path }
  let shown := visited.withState fun state =>
    { state with definition := some { found with location }, status }
  have shows : begun.perform (definitionEvent disk symbol (.completed statuses (.text name))) =
      (shown, .ok ()) := by
    simp only [definitionEvent, perform_bind, completes, perform_get, still, showDefinition,
      perform_tryCatch, visits, perform_modify, shown, status, location]
  have advances : Advances begun shown := by
    have leads := Advances.perform
      (definitionEvent_advances disk symbol (.completed statuses (.text name))) begun
    rwa [shows] at leads
  refine ⟨shown, ?_, begins.trans advances, rfl, source⟩
  simp only [hear, received, ends.quiet, done, ↓reduceIte, List.nil_append, List.map_cons,
    List.map_nil, List.foldl_cons, List.foldl_nil, takeNotice, purposeEvent, reporting, named]
  rw [shows]

end Answers

/-! ## Searches -/

/-- A search for a definition that succeeds: what is asked for, what comes back, and the source that
it leads to, which has the line of the definition. -/
structure Search where
  /-- The symbol whose definition is asked for. -/
  symbol : String
  /-- The location that comes back. -/
  location : Location
  /-- The path under which its source is shown. -/
  path : String
  /-- Its source. -/
  buffer : Buffer
  /-- The answer with the location. -/
  told : Table
  /-- The answer with the end. -/
  done : Table
  /-- The one tells the location. -/
  tells : TellsLocation location told
  /-- The other tells the end. -/
  ends : TellsEnd done
  /-- The line of the location is one of the source. -/
  inside : buffer.hasLine location.line = true

/-- The engine expects the answers of a search that have not come, and until the last one it shows
the source from which it was asked. -/
inductive Expects (engine : Engine) (search : Search) (asked : Buffer) : List Table → Prop where
  /-- Nothing has come back. -/
  | both : engine.state.definition = none → engine.buffer = asked →
    Expects engine search asked [search.told, search.done]
  /-- The location has come back. -/
  | last (answer : Nat) : engine.state.definition = some ⟨search.location, answer⟩ →
    engine.buffer = asked → Expects engine search asked [search.done]
  /-- Everything has come back, and the source of the location is shown. -/
  | nothing (answer : Nat) :
    engine.state.definition = some ⟨{ search.location with path := search.path }, answer⟩ →
    engine.buffer = search.buffer → Expects engine search asked []

/-- The engine finds the source that the search leads to. -/
def Locates (engine : Engine) (disk : Disk) (search : Search) : Prop :=
  engine.Finds disk search.location search.path search.buffer

section Searches

variable {disk : Disk} {search : Search} {asked : Buffer} {index : Nat} {engine : Engine}

/-- What is expected depends only on the definition that is known and the source. -/
theorem Expects.of_outlook {after : Engine} {rest : List Table}
    (expects : engine.Expects search asked rest) (same : after.outlook = engine.outlook) :
    after.Expects search asked rest := by
  have definition : after.state.definition = engine.state.definition :=
    congrArg Outlook.definition same
  have buffer : after.buffer = engine.buffer := congrArg Outlook.buffer same
  cases expects with
  | both unknown source => exact .both (definition.trans unknown) (buffer.trans source)
  | last answer known source => exact .last answer (definition.trans known) (buffer.trans source)
  | nothing answer known source =>
    exact .nothing answer (definition.trans known) (buffer.trans source)

/-- What an answer of a search changes: one answer less is expected, the definition keeps its
number, and at the end the view is told. -/
structure Heard (search : Search) (asked : Buffer) (rest : List Table) (before after : Engine) :
    Prop where
  /-- The rest is expected. -/
  expects : after.Expects search asked rest
  /-- The number of the definition stays. -/
  answer : ∀ answer, before.answer? = some answer → after.answer? = some answer
  /-- The view is told of the end. -/
  told : rest = [] → before.Tells after

/-- The next answer of a search is heard; before the last one nothing else is looked up. -/
theorem Expects.hear {answer : Table} {rest : List Table}
    (expects : engine.Expects search asked (answer :: rest))
    (request : (engine.session.requests[index]?).map (·.2) =
      some (.work (.definition search.symbol)))
    (locates : rest = [] → engine.Locates disk search) :
    ∃ after, hear disk index engine answer = (after, none) ∧ Heard search asked rest engine after ∧
      (rest ≠ [] → after.library = engine.library) := by
  cases expects with
  | both unknown source =>
    obtain ⟨session, heard⟩ := hear_location disk request search.tells
    refine ⟨_, heard, ⟨.last engine.locations rfl source, fun answer known => ?_,
      fun nothing => absurd nothing (List.cons_ne_nil _ _)⟩, fun _ => rfl⟩
    rw [answer?, unknown] at known
    contradiction
  | last answer known source =>
    obtain ⟨shown, heard, advances, located, there⟩ :=
      hear_end disk request search.ends known (locates rfl)
    refine ⟨_, heard, ⟨.nothing answer located there, fun other same => ?_,
      fun _ => tells_notify advances.effects⟩, fun more => absurd rfl more⟩
    rw [answer?, known] at same
    exact (congrArg (Option.map Definition.answer) located).trans same

/-- Further answers of a search are heard one after another. -/
theorem Expects.hearAll {answers rest : List Table}
    (expects : engine.Expects search asked (answers ++ rest))
    (request : (engine.session.requests[index]?).map (·.2) =
      some (.work (.definition search.symbol)))
    (some_answer : answers ≠ []) (locates : rest = [] → engine.Locates disk search) :
    ∃ after, hearAll (Engine.hear disk index) engine answers = (after, none) ∧
      Heard search asked rest engine after := by
  induction answers generalizing engine with
  | nil => contradiction
  | cons answer more ih =>
    obtain ⟨next, heard, first, kept⟩ := Expects.hear expects request fun nothing =>
      locates (List.append_eq_nil_iff.mp nothing).2
    by_cases alone : more = []
    · subst alone
      exact ⟨next, by rw [EvalDesk.hearAll, heard]; rfl, first⟩
    · have still : (next.session.requests[index]?).map (·.2) =
          some (.work (.definition search.symbol)) := by
        have same := requests_hear disk index engine answer
        rw [heard] at same
        rw [same]
        exact request
      have library := kept fun nothing => alone (List.append_eq_nil_iff.mp nothing).1
      obtain ⟨after, finishes, second⟩ := ih first.expects still alone fun nothing =>
        (locates nothing).of_library library
      have effects := (Advances.hear disk index engine answer).effects
      rw [heard] at effects
      refine ⟨after, by rw [EvalDesk.hearAll, heard]; exact finishes, second.expects,
        fun number known => second.answer number (first.answer number known), fun nothing => ?_⟩
      exact (second.told nothing).earlier effects

/-- A message that is taken, and whose answers at once are all heard, is sent. -/
theorem perform_send_answered {world : World} {message : Message} {topic : Topic Purpose}
    {answers : List Table} {after : Engine}
    (exchange : world.transport message = ⟨none, answers, none⟩)
    (heard : EvalDesk.hearAll (Engine.hear world.disk engine.session.talks.length)
      (engine.recorded message topic) answers = (after, none)) :
    engine.perform (send world message topic) = (after, .ok engine.session.nextId) := by
  rw [recorded] at heard
  rw [perform_send_exchange, hearExchange, exchange]
  simp only [heard]
  rfl

/-- The request for a definition. -/
def definitionRequest (engine : Engine) (symbol : String) : Message :=
  engine.session.message "eval"
    (Session.evalFields (.text (definitionCode symbol)) .null .null .null)

/-- When a definition is asked for, some of the answers may come back at once. -/
theorem expects_ask (world : World) {answers rest : List Table}
    (split : answers ++ rest = [search.told, search.done])
    (exchange : world.transport (engine.definitionRequest search.symbol) = ⟨none, answers, none⟩)
    (locates : rest = [] → engine.Locates world.disk search) :
    (engine.askDefinition world search.symbol).Expects search engine.buffer rest := by
  let cleared := engine.withState fun state =>
    { state with definition := none, status := "locating " ++ search.symbol }
  let started := { cleared with endedEarly := [], sending := true }
  let topic : Topic Purpose := .work (.definition search.symbol)
  let index := engine.session.talks.length
  let sent := started.recorded (engine.definitionRequest search.symbol) topic
  have expects : sent.Expects search engine.buffer (answers ++ rest) := by
    rw [split]
    exact .both rfl rfl
  have heard : ∃ after, hearAll (Engine.hear world.disk index) sent answers = (after, none) ∧
      after.Expects search engine.buffer rest := by
    by_cases alone : answers = []
    · subst alone
      exact ⟨sent, rfl, expects⟩
    · have request : (sent.session.requests[index]?).map (·.2) = some topic := by
        simp only [sent, recorded, Session.requests_record]
        simp [index, started, cleared, withState, Session.requests]
      obtain ⟨after, finishes, heard⟩ := expects.hearAll request alone fun nothing =>
        (locates nothing).of_library rfl
      exact ⟨after, finishes, heard.expects⟩
  obtain ⟨after, finishes, expected⟩ := heard
  have sends : started.perform (send world (engine.definitionRequest search.symbol) topic) =
      (after, .ok engine.session.nextId) := perform_send_answered exchange finishes
  have requests : started.perform (request world "eval" (Session.evalFields
      (.text (definitionCode search.symbol)) .null .null .null) (.definition search.symbol)) =
        (after, .ok engine.session.nextId) := (perform_request started _ _ _).trans sends
  refine expected.of_outlook ?_
  rw [askDefinition, ask, dispatch, connected, perform_bind, requests]
  rfl

/-- When a definition is asked for the view is told, and a definition that is known then has come
back since. -/
theorem tells_ask (world : World) (engine : Engine) (symbol : String) :
    Tells engine (engine.askDefinition world symbol) ∧
      ∀ answer, (engine.askDefinition world symbol).answer? = some answer →
        engine.locations ≤ answer := by
  let cleared := engine.withState fun state =>
    { state with definition := none, status := "locating " ++ symbol }
  have clears : Advances engine cleared := .undefine engine ("locating " ++ symbol)
  obtain ⟨asked, advances, same⟩ := exists_dispatch world "eval"
    (Session.evalFields (.text (definitionCode symbol)) .null .null .null) (.definition symbol)
    false cleared
  have asks : Advances cleared asked := (Advances.asked world _ _ cleared).trans advances
  have ends : engine.askDefinition world symbol = asked.notify := same
  rw [ends]
  refine ⟨tells_notify (clears.trans asks).effects, fun answer known => ?_⟩
  rcases asks.answers answer known with unknown | ⟨least, _⟩
  · cases unknown
  · exact least

end Searches

end EvalDesk.Engine
