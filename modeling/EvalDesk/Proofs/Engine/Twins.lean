import EvalDesk.Proofs.Engine.Search

/-!
# Engines that differ in nothing that answers read

Two engines may differ in what is pending, in what is remembered while a request is being sent, and
in what was done outside, and be the same otherwise. Answers are then heard in the same way by both:
they fail at the same places and leave them the same in all else, as long as the end of a request
carries an identity that can be remembered, or none. What becomes of their sources is compared for
every relation of engines that look up sources with the same.
-/
namespace EvalDesk

/-- The identity can be remembered, or there is none. -/
def Datum.IsName (id : Datum) : Prop := id = .null ∨ ∃ name, id = .text name

/-- If the event is the end of a request, its identity can be remembered. -/
def Event.EndsByName : Event → Prop
  | .completed _ id => id.IsName
  | _ => True

namespace Engine

open Fallible

/-! ## Engines with the same sources -/

/-- A relation of engines that look up sources with the same, and go on to do so when the same
becomes of their sources. -/
structure Compatible (relation : Engine → Engine → Prop) : Prop where
  /-- They look up sources with the same. -/
  library : ∀ {first second}, relation first second → second.library = first.library
  /-- The same sources are open from now on. -/
  opened : ∀ {first second}, relation first second → ∀ opened,
    relation { first with opened } { second with opened }
  /-- The project is in the same directory from now on. -/
  projectRoot : ∀ {first second}, relation first second → ∀ projectRoot,
    relation { first with projectRoot } { second with projectRoot }
  /-- Nothing is watched from now on. -/
  unwatched : ∀ {first second}, relation first second →
    relation first.stopWatching second.stopWatching
  /-- The same file is watched from now on. -/
  watched : ∀ {first second}, relation first second → ∀ path directory watch,
    relation { first.emit (.watched path directory) with watch }
      { second.emit (.watched path directory) with watch }
  /-- The same source is shown from now on. -/
  shown : ∀ {first second}, relation first second → ∀ buffer,
    relation (first.showBuffer buffer) (second.showBuffer buffer)

namespace Compatible

variable {relation : Engine → Engine → Prop} (compatible : Compatible relation)
include compatible

/-- Opening a source. -/
theorem tallies_openPath (disk : Disk) (path : String) :
    Tallies relation (openPath disk path) := by
  refine tallies_get_bind (fun first second related => ?_) fun engine => ?_
  · rw [openBuffer_of_library (compatible.library related)]
  · refine tallies_bind (tallies_lift _) fun found => ?_
    exact tallies_bind (tallies_modify fun _ _ related => compatible.opened related found.2)
      fun _ => tallies_pure _

/-- Watching a file. -/
theorem tallies_startWatching (disk : Disk) (path : String) :
    Tallies relation (startWatching disk path) := by
  refine tallies_bind (tallies_lift _) fun resolved => ?_
  split
  · refine tallies_bind (tallies_lift _) fun watch => tallies_modify fun _ _ related => ?_
    exact compatible.watched (compatible.unwatched related) _ _ _
  · exact tallies_pure _

/-- Showing the source of a location in a file. -/
theorem tallies_visitFile (disk : Disk) (location : Location) :
    Tallies relation (visitFile disk location) := by
  refine tallies_get_bind (fun first second related => ?_) fun engine => ?_
  · rw [resolvePath_of_library (compatible.library related)]
  · refine tallies_bind (tallies_lift _) fun found => ?_
    split
    · exact tallies_throw _
    · refine tallies_get_bind (fun first second related => ?_) fun now => ?_
      · have path : second.state.sourcePath = first.state.sourcePath :=
          congrArg Library.sourcePath (compatible.library related)
        rw [path]
      · dsimp only
        split
        · refine tallies_bind (tallies_lift _) fun buffer => ?_
          refine tallies_bind (tallies_lift _) fun root => ?_
          refine tallies_bind
            (tallies_modify fun _ _ related => compatible.projectRoot related root) fun _ => ?_
          refine tallies_bind (compatible.tallies_startWatching disk _) fun _ => ?_
          exact tallies_bind (tallies_modify fun _ _ related => compatible.shown related buffer)
            fun _ => tallies_pure _
        · exact tallies_pure _

/-- Showing the source of a location. -/
theorem tallies_visit (disk : Disk) (location : Location) :
    Tallies relation (visit disk location) := by
  unfold visit
  split
  · exact compatible.tallies_visitFile disk location
  · exact compatible.tallies_visitFile disk location
  · refine tallies_bind (compatible.tallies_openPath disk _) fun buffer => ?_
    refine tallies_bind (tallies_modify fun _ _ related => ?_) fun _ => tallies_pure _
    exact compatible.shown (compatible.unwatched related) buffer

end Compatible

/-! ## Twins -/

/-- The engines are the same but for what is pending, what is remembered while a request is being
sent, and what was done outside. -/
def Twins (first second : Engine) : Prop :=
  ∃ sending endedEarly effects pending, second =
    { first with sending, endedEarly, effects, state := { first.state with pending } }

/-- An engine is the same as itself. -/
theorem Twins.refl (engine : Engine) : Twins engine engine := ⟨_, _, _, _, rfl⟩

/-- If one engine is the same as another, so is this one as the first. -/
theorem Twins.symm {first second : Engine} : Twins first second → Twins second first := by
  rintro ⟨_, _, _, _, rfl⟩
  exact ⟨first.sending, first.endedEarly, first.effects, first.state.pending, rfl⟩

/-- What is the same as the same is the same. -/
theorem Twins.trans {first second third : Engine} :
    Twins first second → Twins second third → Twins first third := by
  rintro ⟨_, _, _, _, rfl⟩ ⟨sending, endedEarly, effects, pending, rfl⟩
  exact ⟨sending, endedEarly, effects, pending, rfl⟩

/-- Telling the view makes no difference. -/
theorem Twins.notify {first second : Engine} :
    Twins first second → Twins first.notify second.notify := by
  rintro ⟨sending, endedEarly, effects, pending, rfl⟩
  exact ⟨sending, endedEarly, effects ++ [.updated first.state.status], pending, rfl⟩

/-- Ending a watch. -/
theorem Twins.stopWatching {first second : Engine} :
    Twins first second → Twins first.stopWatching second.stopWatching := by
  rintro ⟨sending, endedEarly, effects, pending, rfl⟩
  unfold Engine.stopWatching
  split
  · exact ⟨sending, endedEarly, effects ++ [.unwatched], pending, rfl⟩
  · exact ⟨sending, endedEarly, effects, pending, rfl⟩

/-- A change of what is known that neither reads nor changes what is pending. -/
theorem tallies_withState {change : DeskState → DeskState}
    (apart : ∀ state pending, change { state with pending } = { change state with pending }) :
    Tallies Twins (modify (·.withState change) : Action Unit) := by
  refine tallies_modify ?_
  rintro first _ ⟨sending, endedEarly, effects, pending, rfl⟩
  refine ⟨sending, endedEarly, effects, pending, ?_⟩
  show { first with sending, endedEarly, effects, state := change { first.state with pending } } =
    { first with sending, endedEarly, effects, state := { change first.state with pending } }
  rw [apart]

/-- Adding an entry to the transcript. -/
theorem tallies_append (kind : Transcript.Kind) (text : Datum) :
    Tallies Twins (append kind text) := by
  rintro first _ ⟨sending, endedEarly, effects, pending, rfl⟩
  exact ⟨⟨sending, endedEarly, effects, pending, rfl⟩, rfl⟩

/-- Showing another source. -/
theorem Twins.showBuffer {first second : Engine} (buffer : Buffer) :
    Twins first second → Twins (first.showBuffer buffer) (second.showBuffer buffer) := by
  rintro ⟨sending, endedEarly, effects, pending, rfl⟩
  exact ⟨sending, endedEarly, effects, pending, rfl⟩

/-- They show and find the same sources. -/
theorem compatible_twins : Compatible Twins where
  library := by
    rintro first _ ⟨_, _, _, _, rfl⟩
    rfl
  opened := by
    rintro first _ ⟨sending, endedEarly, effects, pending, rfl⟩ opened
    exact ⟨sending, endedEarly, effects, pending, rfl⟩
  projectRoot := by
    rintro first _ ⟨sending, endedEarly, effects, pending, rfl⟩ projectRoot
    exact ⟨sending, endedEarly, effects, pending, rfl⟩
  unwatched := Twins.stopWatching
  watched := by
    rintro first _ ⟨sending, endedEarly, effects, pending, rfl⟩ path directory watch
    exact ⟨sending, endedEarly, effects ++ [.watched path directory], pending, rfl⟩
  shown twins buffer := twins.showBuffer buffer

/-! ## Answers to twins -/

/-- Drawing a diagnostic. -/
theorem tallies_addDiagnostic (disk : Disk) (diagnostic : Diagnostic) (origin : Origin) :
    Tallies Twins (addDiagnostic disk diagnostic origin) := by
  refine tallies_bind (tallies_withState fun _ _ => rfl) fun _ => ?_
  refine tallies_get_bind ?_ fun engine => ?_
  · rintro first _ ⟨_, _, _, _, rfl⟩
    rfl
  · refine tallies_bind (tallies_lift _) fun found => ?_
    obtain ⟨placement, opened⟩ := found
    refine tallies_bind (tallies_modify ?_) fun _ => ?_
    · rintro first _ ⟨sending, endedEarly, effects, pending, rfl⟩
      exact ⟨sending, endedEarly, effects, pending, rfl⟩
    · split
      · exact tallies_pure _
      · refine tallies_modify ?_
        rintro first _ ⟨sending, endedEarly, effects, pending, rfl⟩
        exact ⟨sending, endedEarly, effects, pending, rfl⟩

/-- Showing error output. -/
theorem tallies_showDiagnostic (disk : Disk) (text : Datum) (origin : Origin) :
    Tallies Twins (showDiagnostic disk text origin) := by
  refine tallies_bind (tallies_lift _) fun lines => ?_
  split
  · exact tallies_pure _
  · exact tallies_addDiagnostic disk _ origin

/-- An identity that can be remembered is, without a failure. -/
theorem perform_rememberEnd {id : Datum} (named : id.IsName) (engine : Engine) :
    ∃ endedEarly, engine.perform (rememberEnd id) = ({ engine with endedEarly }, .ok ()) := by
  unfold rememberEnd
  rw [perform_bind, perform_get]
  dsimp only
  by_cases sending : engine.sending = true
  · rw [if_pos sending]
    rcases named with rfl | ⟨name, rfl⟩
    · exact ⟨engine.endedEarly, rfl⟩
    · exact ⟨engine.endedEarly ++ [name], rfl⟩
  · rw [if_neg sending]
    exact ⟨engine.endedEarly, rfl⟩

/-- The end of a request. -/
theorem tallies_complete (statuses : List String) {id : Datum} (named : id.IsName) :
    Tallies Twins (complete statuses id) := by
  refine tallies_bind ?_ fun _ => tallies_modify ?_
  · rintro first second ⟨sending, endedEarly, effects, pending, rfl⟩
    obtain ⟨ended, one⟩ := perform_rememberEnd named first
    obtain ⟨endedTwin, other⟩ := perform_rememberEnd named { first with
      sending, endedEarly, effects, state := { first.state with pending } }
    simp only [← perform_eq, one, other, and_true]
    exact ⟨sending, endedTwin, effects, pending, rfl⟩
  · rintro first _ ⟨sending, endedEarly, effects, pending, rfl⟩
    exact ⟨sending, endedEarly, effects, _, rfl⟩

/-- Events of an evaluation. -/
theorem tallies_evaluationEvent (disk : Disk) (origin : Origin) {event : Event}
    (named : event.EndsByName) : Tallies Twins (evaluationEvent disk origin event) := by
  cases event with
  | value result ns id =>
    refine tallies_bind (tallies_withState fun _ _ => rfl) fun _ => ?_
    refine tallies_bind (tallies_append _ _) fun _ => ?_
    split
    · exact tallies_withState fun _ _ => rfl
    · exact tallies_pure _
  | output text id => exact tallies_append _ _
  | errorOutput text id =>
    exact tallies_bind (tallies_append _ _) fun _ => tallies_showDiagnostic disk text origin
  | completed statuses id => exact tallies_complete statuses named

/-- Adding to the documentation. -/
theorem tallies_addDocumentation (text : Datum) : Tallies Twins (addDocumentation text) := by
  unfold addDocumentation
  split
  · exact tallies_withState fun _ _ => rfl
  · exact tallies_throw _

/-- Events of a request for documentation. -/
theorem tallies_documentationEvent (symbol : String) {event : Event} (named : event.EndsByName) :
    Tallies Twins (documentationEvent symbol event) := by
  cases event with
  | value result ns id => exact tallies_pure _
  | output text id => exact tallies_addDocumentation text
  | errorOutput text id => exact tallies_addDocumentation text
  | completed statuses id =>
    refine tallies_bind (tallies_complete statuses named) fun _ => tallies_withState ?_
    intro state pending
    dsimp only
    split <;> rfl

/-- Showing the source of a definition. -/
theorem tallies_showDefinition (disk : Disk) (symbol : String) (found : Definition) :
    Tallies Twins (showDefinition disk symbol found) := by
  refine tallies_tryCatch ?_ fun fault => ?_
  · exact tallies_bind (compatible_twins.tallies_visit disk _) fun location =>
      tallies_withState fun _ _ => rfl
  · split
    · exact tallies_withState fun _ _ => rfl
    · exact tallies_throw _

/-- Events of a request for a definition. -/
theorem tallies_definitionEvent (disk : Disk) (symbol : String) {event : Event}
    (named : event.EndsByName) : Tallies Twins (definitionEvent disk symbol event) := by
  cases event with
  | value result ns id =>
    refine tallies_bind (tallies_lift _) fun location => tallies_modify ?_
    rintro first _ ⟨sending, endedEarly, effects, pending, rfl⟩
    exact ⟨sending, endedEarly, effects, pending, rfl⟩
  | output text id => exact tallies_pure _
  | errorOutput text id => exact tallies_append _ _
  | completed statuses id =>
    refine tallies_bind (tallies_complete statuses named) fun _ => ?_
    refine tallies_get_bind ?_ fun engine => ?_
    · rintro first _ ⟨_, _, _, _, rfl⟩
      rfl
    · split
      · exact tallies_withState fun _ _ => rfl
      · exact tallies_showDefinition disk symbol _

/-- Events of a request. -/
theorem tallies_purposeEvent (disk : Disk) (purpose : Purpose) {event : Event}
    (named : event.EndsByName) : Tallies Twins (purposeEvent disk purpose event) := by
  cases purpose with
  | evaluation origin => exact tallies_evaluationEvent disk origin named
  | documentation symbol => exact tallies_documentationEvent symbol named
  | definition symbol => exact tallies_definitionEvent disk symbol named
  | unheard => exact tallies_pure _

/-- What reports a failure. -/
theorem Twins.reporting {action : Action Unit} (tallies : Tallies Twins action)
    {first second : Engine} (twins : Twins first second) :
    Twins (first.reporting action) (second.reporting action) := by
  obtain ⟨still, same⟩ := tallies first second twins
  simp only [Engine.reporting, perform_eq]
  cases one : Fallible.perform first action with
  | mk middle result =>
    cases other : Fallible.perform second action with
    | mk twin answer =>
      rw [one, other] at still same
      cases same
      cases result with
      | ok => exact still.notify
      | error fault =>
        obtain ⟨sending, endedEarly, effects, pending, rfl⟩ := still
        exact Twins.notify ⟨sending, endedEarly, effects, pending, rfl⟩

/-- A notice of the session. -/
theorem Twins.takeNotice (disk : Disk) {notice : Notice Purpose}
    (named : ∀ purpose event, notice = .event purpose event → event.EndsByName)
    {first second : Engine} (twins : Twins first second) :
    Twins (takeNotice disk first notice) (takeNotice disk second notice) := by
  cases notice with
  | ready identity =>
    obtain ⟨sending, endedEarly, effects, pending, rfl⟩ := twins
    exact Twins.notify ⟨sending, endedEarly, effects, pending, rfl⟩
  | event purpose event =>
    by_cases heard : purpose = .unheard
    · rw [heard]
      exact twins
    · rw [takeNotice_heard disk heard, takeNotice_heard disk heard]
      exact twins.reporting (tallies_purposeEvent disk purpose (named purpose event rfl))

/-- Notices of the session, one after another. -/
theorem Twins.takeNotices (disk : Disk) {notices : List (Notice Purpose)}
    (named : ∀ purpose event, .event purpose event ∈ notices → event.EndsByName)
    {first second : Engine} (twins : Twins first second) :
    Twins (notices.foldl (Engine.takeNotice disk) first)
      (notices.foldl (Engine.takeNotice disk) second) := by
  induction notices generalizing first second with
  | nil => exact twins
  | cons notice rest ih =>
    refine ih (fun purpose event member => named purpose event (.tail _ member)) ?_
    exact twins.takeNotice disk fun purpose event same => named purpose event (same ▸ .head _)

/-- The end of a request carries the identity of the answer that tells it. -/
theorem endsByName_of_received {session after : Session Purpose} {index : Nat} {answer : Table}
    {notices : List (Notice Purpose)} (named : (answer.get "id").IsName)
    (received : session.receive index answer = .ok (after, notices)) :
    ∀ purpose event, .event purpose event ∈ notices → event.EndsByName := by
  intro purpose event told
  obtain ⟨_, silent | ⟨own, words, statuses, request, _, rfl⟩⟩ := receive_cases received
  · exact absurd told (silent purpose event)
  · obtain ⟨event, inside, same⟩ := List.mem_map.mp told
    cases same
    rcases List.mem_append.mp inside with going | ending
    · have goes_on := Event.isEnd_of_mem_goingOn _ going
      cases event with
      | completed statuses id => cases goes_on
      | _ => trivial
    · split at ending
      · cases List.mem_singleton.mp ending
        exact named
      · exact absurd ending List.not_mem_nil

/-- An answer. -/
theorem Twins.hear (disk : Disk) (index : Nat) {answer : Table}
    (named : (answer.get "id").IsName) {first second : Engine} (twins : Twins first second) :
    Twins (hear disk index first answer).1 (hear disk index second answer).1 ∧
      (hear disk index first answer).2 = (hear disk index second answer).2 := by
  obtain ⟨sending, endedEarly, effects, pending, rfl⟩ := twins
  simp only [Engine.hear]
  cases received : first.session.receive index answer with
  | error fault => exact ⟨⟨sending, endedEarly, effects, pending, rfl⟩, rfl⟩
  | ok result =>
    obtain ⟨session, notices⟩ := result
    have begun : Twins { first with session } { first with
        session, sending, endedEarly, effects, state := { first.state with pending } } :=
      ⟨sending, endedEarly, effects, pending, rfl⟩
    exact ⟨begun.takeNotices disk (endsByName_of_received named received), rfl⟩

/-- Answers one after another. -/
theorem Twins.hearAll (disk : Disk) (index : Nat) {answers : List Table}
    (named : ∀ answer ∈ answers, (answer.get "id").IsName) {first second : Engine}
    (twins : Twins first second) :
    Twins (hearAll (Engine.hear disk index) first answers).1
      (hearAll (Engine.hear disk index) second answers).1 := by
  induction answers generalizing first second with
  | nil => exact twins
  | cons answer rest ih =>
    obtain ⟨still, same⟩ := twins.hear disk index (named answer (.head _))
    rw [EvalDesk.hearAll, EvalDesk.hearAll]
    cases one : Engine.hear disk index first answer with
    | mk middle fault =>
      cases other : Engine.hear disk index second answer with
      | mk twin problem =>
        rw [one, other] at still same
        cases same
        cases fault with
        | some fault => exact still
        | none => exact ih (fun later member => named later (.tail _ member)) still

end Engine
end EvalDesk
