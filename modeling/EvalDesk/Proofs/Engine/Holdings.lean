import EvalDesk.Proofs.Engine.Search
import EvalDesk.Proofs.Placement.Landing

/-!
# What the engine holds of sources

The engine holds the source that is shown, the other sources that were opened, and what a path is
looked up with. Only four things change any of this: the source is read again, another source takes
its place, its project is found, and a further source is opened. So whatever can be put together
from steps and holds over these four holds over everything that can be asked of the engine and
everything that comes back.
-/
namespace EvalDesk

namespace Engine

open Fallible

/-- What the engine holds of sources. -/
structure Holdings where
  /-- The sources, and what they are looked up with. -/
  library : Library
  /-- The text of the source that is known. -/
  text : String
  /-- The lines of the source that are known. -/
  lines : List String

/-- What the engine holds. -/
def holdings (engine : Engine) : Holdings :=
  ⟨engine.library, engine.state.sourceText, engine.state.sourceLines⟩

/-- A relation that holds over everything that can happen to what the engine holds. -/
structure SourceLaw (relation : Engine → Engine → Prop) : Prop where
  /-- It can be put together from steps. -/
  chains : Chains relation
  /-- It holds where nothing of it changes. -/
  same : ∀ {before after : Engine}, after.holdings = before.holdings → relation before after
  /-- It holds over a source that is read again. -/
  reloads : ∀ {engine : Engine} {buffer : Buffer}, buffer.path = engine.state.sourcePath →
    relation engine { engine with
      buffer
      opened := engine.opened.filter (·.1 ≠ engine.state.sourcePath)
      state := engine.state.updateSource buffer.text }
  /-- It holds over a source that takes the place of another. -/
  shows : ∀ (engine : Engine) buffer, relation engine (engine.showBuffer buffer)
  /-- It holds over a project that is found. -/
  settles : ∀ (engine : Engine) projectRoot, relation engine { engine with projectRoot }
  /-- It holds over a further source that is opened. -/
  opens : ∀ {engine : Engine} {disk path buffer opened},
    engine.openBuffer disk path = .ok (buffer, opened) → relation engine { engine with opened }

/-- The engine comes to a state by anything that can be asked of it or come back, whatever the
world is at that time. What has failed counts as well. -/
inductive Attained (first : Engine) : Engine → Prop where
  /-- Nothing has happened. -/
  | start : Attained first first
  /-- An order is carried out, or answers come back. -/
  | order {engine : Engine} (world : World) (order : Order) :
    Attained first engine → Attained first (engine.obey world order)
  /-- What was drawn is removed. -/
  | cleared {engine : Engine} : Attained first engine → Attained first engine.clearDecorations
  /-- The session is ended. -/
  | stopped {engine : Engine} : Attained first engine → Attained first engine.stop
  /-- The source is read again. -/
  | loaded {engine : Engine} (disk : Disk) :
    Attained first engine → Attained first (engine.perform (loadSource disk)).1
  /-- The source of a location is shown. -/
  | visited {engine : Engine} (disk : Disk) (location : Location) :
    Attained first engine → Attained first (engine.perform (visit disk location)).1
  /-- The source of a path is opened. -/
  | opened {engine : Engine} (disk : Disk) (path : String) :
    Attained first engine → Attained first (engine.perform (openPath disk path)).1
  /-- Error output of code from an origin is shown. -/
  | shown {engine : Engine} (disk : Disk) (text : Datum) (origin : Origin) :
    Attained first engine → Attained first (engine.perform (showDiagnostic disk text origin)).1

namespace SourceLaw

variable {relation : Engine → Engine → Prop} (law : SourceLaw relation)
include law

/-- Actions that keep what the engine holds. -/
theorem leads_of_keeps {α : Type} {action : Action α} (keeps : Keeps holdings action) :
    Leads relation action := fun engine => law.same (keeps engine)

/-- Opening a source. -/
theorem leads_openPath (disk : Disk) (path : String) : Leads relation (openPath disk path) := by
  intro engine
  show relation engine (engine.perform (openPath disk path)).1
  simp only [openPath, perform_bind, perform_get, perform_lift]
  cases opens : engine.openBuffer disk path with
  | error fault => exact law.chains.refl engine
  | ok found => exact law.opens opens

/-- Ending a watch. -/
theorem stopWatching (engine : Engine) : relation engine engine.stopWatching := by
  refine law.same ?_
  unfold Engine.stopWatching
  split <;> rfl

/-- Watching a file. -/
theorem leads_startWatching (disk : Disk) (path : String) :
    Leads relation (startWatching disk path) := by
  refine leads_bind law.chains (leads_lift law.chains _) fun resolved => ?_
  split
  · refine leads_bind law.chains (leads_lift law.chains _) fun watch => ?_
    exact leads_modify fun engine => law.chains.trans (law.stopWatching engine) (law.same rfl)
  · exact leads_pure law.chains _

/-- Reading the source again. -/
theorem leads_loadSource (disk : Disk) : Leads relation (loadSource disk) := by
  intro engine
  show relation engine (engine.perform (loadSource disk)).1
  simp only [loadSource, perform_bind, perform_get]
  cases read : Source.ofFile disk engine.state.sourcePath with
  | ok buffer => exact law.reloads (path_of_ofFile read)
  | error fault =>
    cases fault with
    | source problem =>
      have told : relation engine (engine.withStatus problem.message) := law.same rfl
      exact law.chains.trans told (law.reloads rfl)
    | _ => exact law.chains.refl engine

/-- Showing the source of a location in a file. -/
theorem leads_visitFile (disk : Disk) (location : Location) :
    Leads relation (visitFile disk location) := by
  refine leads_bind law.chains (leads_get law.chains) fun engine => ?_
  refine leads_bind law.chains (leads_lift law.chains _) fun found => ?_
  split
  · exact leads_throw law.chains _
  · refine leads_bind law.chains (leads_get law.chains) fun now => ?_
    dsimp only
    split
    · refine leads_bind law.chains (leads_lift law.chains _) fun buffer => ?_
      refine leads_bind law.chains (leads_lift law.chains _) fun root => ?_
      refine leads_bind law.chains (leads_modify fun now => law.settles now root) fun _ => ?_
      refine leads_bind law.chains (law.leads_startWatching disk _) fun _ => ?_
      refine leads_bind law.chains (leads_modify fun now => law.shows now buffer) fun _ => ?_
      exact leads_pure law.chains _
    · exact leads_pure law.chains _

/-- Showing the source of a location. -/
theorem leads_visit (disk : Disk) (location : Location) :
    Leads relation (visit disk location) := by
  unfold visit
  split
  · exact law.leads_visitFile disk location
  · exact law.leads_visitFile disk location
  · refine leads_bind law.chains (law.leads_openPath disk _) fun buffer => ?_
    refine leads_bind law.chains (leads_modify fun now => ?_) fun _ => leads_pure law.chains _
    exact law.chains.trans (law.stopWatching now) (law.shows _ buffer)

/-- Drawing a diagnostic opens its target. -/
theorem leads_addDiagnostic (disk : Disk) (diagnostic : Diagnostic) (origin : Origin) :
    Leads relation (addDiagnostic disk diagnostic origin) := by
  refine leads_bind law.chains (leads_modify fun engine => law.same rfl) fun _ => ?_
  refine leads_get_bind fun engine => ?_
  rw [Fallible.perform_bind, Fallible.perform_lift]
  cases placed : place diagnostic origin (engine.openBuffer disk) with
  | error fault => exact law.chains.refl engine
  | ok found =>
    obtain ⟨placement, left⟩ := found
    have opens : relation engine { engine with opened := left.getD engine.opened } := by
      cases left with
      | none => exact law.same rfl
      | some opened =>
        obtain ⟨buffer, opens⟩ := exists_of_place placed
        exact law.opens opens
    cases placement with
    | none => exact opens
    | some placement => exact law.chains.trans opens (law.same rfl)

/-- Showing error output. -/
theorem leads_showDiagnostic (disk : Disk) (text : Datum) (origin : Origin) :
    Leads relation (showDiagnostic disk text origin) := by
  refine leads_bind law.chains (leads_lift law.chains _) fun lines => ?_
  split
  · exact leads_pure law.chains _
  · exact law.leads_addDiagnostic disk _ origin

/-- The end of a request. -/
theorem leads_complete (statuses : List String) (id : Datum) :
    Leads relation (complete statuses id) :=
  law.leads_of_keeps (complete_keeps (fun _ _ => rfl) (fun _ _ _ _ => rfl) statuses id)

/-- Events of an evaluation. -/
theorem leads_evaluationEvent (disk : Disk) (origin : Origin) (event : Event) :
    Leads relation (evaluationEvent disk origin event) := by
  have apart : Resultless holdings :=
    ⟨fun _ _ _ => rfl, fun _ _ => rfl, fun _ _ => rfl, fun _ _ _ _ => rfl⟩
  by_cases complains : ∃ text id, event = .errorOutput text id
  · obtain ⟨text, id, rfl⟩ := complains
    exact leads_bind law.chains (law.leads_of_keeps (apart.added _ _)) fun _ =>
      law.leads_showDiagnostic disk text origin
  · exact law.leads_of_keeps
      (apart.keeps_quiet disk origin fun text id same => complains ⟨text, id, same⟩)

/-- Events of a request for a definition. -/
theorem leads_definitionEvent (disk : Disk) (symbol : String) (event : Event) :
    Leads relation (definitionEvent disk symbol event) := by
  cases event with
  | value result ns id =>
    refine leads_bind law.chains (leads_lift law.chains _) fun location => ?_
    exact leads_modify fun engine => law.same rfl
  | output text id => exact leads_pure law.chains _
  | errorOutput text id => exact law.leads_of_keeps fun _ => rfl
  | completed statuses id =>
    refine leads_bind law.chains (law.leads_complete statuses id) fun _ => ?_
    refine leads_bind law.chains (leads_get law.chains) fun engine => ?_
    split
    · exact leads_modify fun engine => law.same rfl
    · refine leads_tryCatch law.chains ?_ fun fault => ?_
      · exact leads_bind law.chains (law.leads_visit disk _) fun location =>
          leads_modify fun engine => law.same rfl
      · split
        · exact leads_modify fun engine => law.same rfl
        · exact leads_throw law.chains _

/-- Events of a request. -/
theorem leads_purposeEvent (disk : Disk) (purpose : Purpose) (event : Event) :
    Leads relation (purposeEvent disk purpose event) := by
  cases purpose with
  | evaluation origin => exact law.leads_evaluationEvent disk origin event
  | documentation symbol =>
    exact law.leads_of_keeps
      (keeps_documentationEvent (fun _ _ => rfl) (fun _ _ => rfl) (fun _ _ _ _ => rfl) symbol event)
  | definition symbol => exact law.leads_definitionEvent disk symbol event
  | unheard => exact leads_pure law.chains _

/-- A notice of the session. -/
theorem takeNotice (disk : Disk) (engine : Engine) (notice : Notice Purpose) :
    relation engine (takeNotice disk engine notice) := by
  cases notice with
  | ready identity => exact law.same rfl
  | event purpose event =>
    by_cases heard : purpose = .unheard
    · rw [heard]
      exact law.chains.refl engine
    · rw [takeNotice_heard disk heard]
      have led : relation engine (engine.perform (purposeEvent disk purpose event)).1 :=
        law.leads_purposeEvent disk purpose event engine
      refine law.chains.trans led (law.same ?_)
      rw [reporting]
      cases engine.perform (purposeEvent disk purpose event) with
      | mk after result => cases result <;> rfl

/-- An answer. -/
theorem hear (disk : Disk) (index : Nat) (engine : Engine) (answer : Table) :
    relation engine (hear disk index engine answer).1 := by
  rw [Engine.hear]
  cases engine.session.receive index answer with
  | error fault => exact law.chains.refl engine
  | ok result =>
    obtain ⟨session, notices⟩ := result
    have same : relation engine { engine with session } := law.same rfl
    exact law.chains.trans same (law.chains.foldl (law.takeNotice disk) _ notices)

variable (world : World)

/-- A message and what comes back meanwhile. -/
theorem leads_send (message : Message) (topic : Topic Purpose) :
    Leads relation (send world message topic) := by
  intro engine
  have recorded : relation engine (engine.recorded message topic) := law.same rfl
  exact law.chains.trans recorded (send_leads law.chains (law.hear world.disk _) message topic)

/-- What needs the connection. -/
theorem connected {action : Action Unit} (leads : Leads relation action) (engine : Engine) :
    relation engine (engine.connected action) :=
  law.chains.trans (leads engine)
    (connected_leads law.chains (fun _ _ => law.same rfl) engine action)

/-- A request. -/
theorem dispatch (op : String) (fields : Table) (purpose : Purpose) (tracked : Bool)
    (engine : Engine) : relation engine (engine.dispatch world op fields purpose tracked) := by
  obtain ⟨asked, sent, told⟩ := dispatch_leads law.chains (fun _ _ => law.same rfl)
    (fun _ _ => law.same rfl) (fun _ => law.same rfl) op fields purpose tracked engine
  have started : relation engine { engine with endedEarly := [], sending := true } := law.same rfl
  have sends := law.leads_send world (engine.session.message op fields) (.work purpose)
  rw [told]
  refine law.chains.trans (law.chains.trans started (sends _)) ?_
  exact law.chains.trans sent (law.same rfl)

/-- An evaluation. -/
theorem leads_evaluation (code op : String) (fields : Table) (origin : Origin) :
    Leads relation (do
      beginCycle code
      modify (Engine.dispatch world op fields (.evaluation origin) true)) := by
  refine leads_bind law.chains (law.leads_of_keeps ?_) fun _ => ?_
  · refine keeps_bind (keeps_modify fun _ => rfl) fun _ => ?_
    refine keeps_bind (keeps_modify fun _ => rfl) fun _ => ?_
    exact keeps_bind (fun _ => rfl) fun _ => keeps_modify fun _ => rfl
  · exact leads_modify fun engine => law.dispatch world op fields _ true engine

/-- The start. -/
theorem leads_start : Leads relation (Engine.start world) := by
  rw [start_eq]
  refine leads_bind law.chains (law.leads_loadSource world.disk) fun _ => ?_
  refine leads_bind law.chains (leads_modify fun engine => ?_) fun _ => ?_
  · exact law.connected (leads_connecting law.chains (law.leads_send world _ _)
      fun _ => law.same rfl) engine
  · refine leads_bind law.chains (leads_get law.chains) fun _ => ?_
    refine leads_bind law.chains (law.leads_startWatching world.disk _) fun _ => ?_
    exact leads_modify fun engine => law.same rfl

/-- An interruption. -/
theorem interrupt (engine : Engine) : relation engine (engine.interrupt world) := by
  refine interrupt_leads law.chains (fun _ _ => law.same rfl) (fun _ _ => law.same rfl)
    (fun _ => law.same rfl) (fun fields => ?_) engine
  exact leads_bind law.chains (leads_get law.chains) fun _ => law.leads_send world _ _

/-- An order, and answers that come back. -/
theorem obey (engine : Engine) (order : Order) : relation engine (engine.obey world order) := by
  have told : ∀ (now : Engine) status, relation now (now.showStatus status) :=
    fun _ _ => law.same rfl
  have evaluates : ∀ code origin, Leads relation (evaluate world code origin) :=
    fun code origin => law.leads_evaluation world code "eval" _ origin
  have loads : Leads relation (evaluateBuffer world) :=
    leads_bind law.chains (leads_get law.chains) fun _ => law.leads_evaluation world _ _ _ _
  have saves : Leads relation (saved world) :=
    leads_saved law.chains (law.leads_loadSource world.disk) loads fun _ => law.same rfl
  have found := leads_found law.chains told evaluates
  cases order with
  | start => exact law.leads_start world engine
  | code code origin => exact evaluates code _ engine
  | topLevel offset =>
    exact found (fun engine => engine.buffer.topLevelAt offset) (·.start) _ engine
  | last offset =>
    exact found (fun engine => engine.buffer.lastBefore offset) (fun _ => offset) _ engine
  | region first second => exact leads_region law.chains told evaluates first second engine
  | buffer => exact loads engine
  | inNamespace ns =>
    exact leads_bind law.chains (leads_get law.chains) (fun _ => evaluates _ _) engine
  | namespaceForm =>
    exact found (fun engine => engine.buffer.namespaceForm?) (·.start) _ engine
  | documentation symbol =>
    have asked : relation engine (engine.withState fun state =>
      { state with documentation := "", status := "doc " ++ symbol }) := law.same rfl
    exact law.chains.trans asked (law.dispatch world _ _ _ false _)
  | definition symbol =>
    have asked : relation engine (engine.withState fun state =>
      { state with definition := none, status := "locating " ++ symbol }) := law.same rfl
    exact law.chains.trans asked (law.dispatch world _ _ _ false _)
  | interrupt => exact law.interrupt world engine
  | saved => exact saves engine
  | changed event now =>
    exact leads_takeFileEvent law.chains (fun _ _ => law.same rfl) saves event now engine
  | answered id answers =>
    rw [Engine.obey, deliver]
    split
    · exact law.chains.refl engine
    · exact hearAll_leads law.chains (law.hear world.disk _) engine answers

omit world

/-- Everything that can be asked of the engine, and everything that comes back. -/
theorem attained {first engine : Engine} (attained : Attained first engine) :
    relation first engine := by
  induction attained with
  | start => exact law.chains.refl first
  | @order engine world order _ led => exact law.chains.trans led (law.obey world engine order)
  | cleared _ led => exact law.chains.trans led (law.same rfl)
  | @stopped engine _ led =>
    exact law.chains.trans led (law.chains.trans (law.stopWatching engine) (law.same rfl))
  | @loaded engine disk _ led => exact law.chains.trans led (law.leads_loadSource disk engine)
  | @visited engine disk location _ led =>
    exact law.chains.trans led (law.leads_visit disk location engine)
  | @opened engine disk path _ led =>
    exact law.chains.trans led (law.leads_openPath disk path engine)
  | @shown engine disk text origin _ led =>
    exact law.chains.trans led (law.leads_showDiagnostic disk text origin engine)

end SourceLaw

end Engine
end EvalDesk
