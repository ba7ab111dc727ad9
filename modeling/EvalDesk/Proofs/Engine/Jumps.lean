import EvalDesk.Proofs.Engine.Chronicle
import EvalDesk.Proofs.Engine.Recall
import EvalDesk.Proofs.Engine.Timing

/-!
# Where jumps land

One definition is known at a time, whichever request it came back for. It is forgotten when another
definition is asked for, replaced by any value of any such request, and taken by the end of any of
them. So a jump lands at its own definition only if nothing of another one is heard between its
value and its end: the main result says exactly when.
-/
namespace EvalDesk

open Engine

/-- A definition that came back for a request. -/
structure Told where
  /-- The request. -/
  request : Nat
  /-- The location that came back. -/
  location : Location
  /-- The path under which its source is known: the one that came back until the source was shown,
  and the one under which it was shown since then. -/
  path : String

/-- The location under the path by which its source is known. -/
def Told.found (told : Told) : Location := { told.location with path := told.path }

/-- The symbol whose definition is asked for, if it is. -/
def Sending.defined? (sending : Sending) : Option String :=
  match sending.topic with
  | .work (.definition symbol) => some symbol
  | _ => none

/-- The location that an event tells of a definition, or that there is none, if it tells either. -/
def Hearing.located? (hearing : Hearing) : Option (Option Location) :=
  match hearing.purpose, hearing.event with
  | .definition _, .value result _ _ => (Location.ofDatum? result).toOption
  | _, _ => none

/-- The symbol whose jump the event ends, if it ends one. -/
def Hearing.jumped? (hearing : Hearing) : Option String :=
  match hearing.purpose, hearing.event with
  | .definition symbol, .completed _ id =>
    if hearing.engine.remembers id then some symbol else none
  | _, _ => none

/-- The path under which the source of a location is known once a jump has ended there; none when
the source cannot be shown. -/
def Hearing.pathOf? (hearing : Hearing) (location : Location) : Option String :=
  match (hearing.engine.perform (visit hearing.disk location)).2 with
  | .ok found => some found.path
  | .error (.source _) => none
  | .error _ => some location.path

/-- The definition that is known after something has happened. -/
def toldAfter (told : Option Told) : Happening → Option Told
  | .sent sending => if sending.defined?.isSome then none else told
  | .heard hearing =>
    match hearing.located? with
    | some location => location.map fun location => ⟨hearing.request, location, location.path⟩
    | none =>
      if hearing.jumped?.isSome then
        told.bind fun told => (hearing.pathOf? told.found).map fun path => { told with path }
      else told

namespace Engine

open Fallible

/-! ## What is shown of sources -/

/-- The source that is shown, and what is watched and known of sources besides. -/
def showing (engine : Engine) : Holdings × Option SaveWatch := (engine.holdings, engine.watch)

/-- When nothing is watched any more, all else that is shown stays. -/
theorem showing_stopWatching (engine : Engine) :
    engine.stopWatching.showing = (engine.holdings, none) := by
  unfold stopWatching
  split
  · rfl
  · rename_i unwatched
    rw [showing, Option.not_isSome_iff_eq_none.mp unwatched]

/-- Engines that show the same of sources look them up with the same, and show the same when the
same becomes of them. -/
theorem compatible_showing :
    Compatible fun first second => second.showing = first.showing where
  library same := congrArg (fun showing => showing.1.library) same
  opened same opened := congrArg (fun showing : Holdings × Option SaveWatch =>
    ({ showing.1 with library := { showing.1.library with opened } }, showing.2)) same
  projectRoot same projectRoot := congrArg (fun showing : Holdings × Option SaveWatch =>
    ({ showing.1 with library := { showing.1.library with projectRoot } }, showing.2)) same
  unwatched same := by
    rw [showing_stopWatching, showing_stopWatching]
    exact congrArg (fun showing => (showing.1, none)) same
  watched same path directory watch :=
    congrArg (fun showing : Holdings × Option SaveWatch => (showing.1, watch)) same
  shown same buffer := congrArg (fun showing : Holdings × Option SaveWatch =>
    ((⟨{ showing.1.library with sourcePath := buffer.path, buffer }, buffer.text,
      Text.outputLines buffer.text⟩ : Holdings), showing.2)) same

/-- A visit shows the same of engines that show the same, and comes to the same result. -/
theorem visit_of_showing (disk : Disk) (location : Location) {first second : Engine}
    (same : second.showing = first.showing) :
    (second.perform (visit disk location)).1.showing =
        (first.perform (visit disk location)).1.showing ∧
      (second.perform (visit disk location)).2 = (first.perform (visit disk location)).2 := by
  obtain ⟨still, result⟩ := compatible_showing.tallies_visit disk location first second same
  exact ⟨still, result.symm⟩

/-! ## Visits -/

/-- A visit gives the location with the path under which its source is shown. -/
theorem gives_visit (disk : Disk) (location : Location) :
    Gives (fun found => found = { location with path := found.path }) (visit disk location) := by
  have file : Gives (fun found => found = { location with path := found.path })
      (visitFile disk location) := by
    refine gives_bind fun engine => gives_bind fun found => ?_
    split
    · exact gives_throw _
    · refine gives_bind fun now => ?_
      dsimp only
      split
      · refine gives_bind fun buffer => gives_bind fun root => gives_bind fun _ => ?_
        exact gives_bind fun _ => gives_bind fun _ => gives_pure rfl
      · exact gives_pure rfl
  unfold visit
  split
  · exact file
  · exact file
  · exact gives_bind fun buffer => gives_bind fun _ => gives_pure rfl

/-- A visit keeps the definition that is known. -/
theorem visit_keeps_definition (disk : Disk) (location : Location) :
    Keeps (fun engine => engine.state.definition) (visit disk location) :=
  (sourceless_news.part News.definition).keeps_visit disk location

/-! ## The end of a jump -/

/-- At the end of a jump, if it can be taken, the source of the definition that is known is shown,
if one is. -/
theorem perform_jump_end (disk : Disk) (symbol : String) (statuses : List String) {id : Datum}
    {engine : Engine} (can : engine.remembers id = true) :
    ∃ ended : Engine, ended.showing = engine.showing ∧
      ended.state.definition = engine.state.definition ∧
      engine.perform (definitionEvent disk symbol (.completed statuses id)) =
        match engine.state.definition with
        | none => (ended.withStatus ("Symbol not found: " ++ symbol), .ok ())
        | some found => ended.perform (showDefinition disk symbol found) := by
  have completes : ∃ ended : Engine, ended.showing = engine.showing ∧
      ended.state.definition = engine.state.definition ∧
      engine.perform (complete statuses id) = (ended, .ok ()) := by
    rcases complete_cases engine statuses id with ⟨_, _, _, done⟩ | ⟨cannot, _⟩
    · refine ⟨_, ?_, ?_, done⟩ <;> rfl
    · exact Bool.noConfusion (can.symm.trans cannot)
  obtain ⟨ended, shown, known, done⟩ := completes
  refine ⟨ended, shown, known, ?_⟩
  rw [definitionEvent, perform_bind, done, ← known]
  dsimp only
  rw [perform_bind, perform_get]
  dsimp only
  cases ended.state.definition <;> rfl

/-- Showing the source of a definition. -/
theorem perform_showDefinition (disk : Disk) (symbol : String) (found : Definition)
    (engine : Engine) :
    let left := (engine.perform (visit disk found.location)).1
    engine.perform (showDefinition disk symbol found) =
      match (engine.perform (visit disk found.location)).2 with
      | .ok location =>
        (left.withState fun state =>
          { state with
            definition := some { found with location }
            status := symbol ++ " -> " ++ location.path ++ ":" ++ toString location.line }, .ok ())
      | .error (.source problem) =>
        (left.withState fun state =>
          { state with status := problem.message, definition := none }, .ok ())
      | .error fault => (left, .error fault) := by
  rw [showDefinition, perform_tryCatch, perform_bind]
  cases engine.perform (visit disk found.location) with
  | mk visited result =>
    cases result with
    | ok location => rfl
    | error fault => cases fault <;> rfl

/-- When a definition is known, a jump that can be ended ends with a visit of it. -/
theorem perform_jump_found (disk : Disk) (symbol : String) (statuses : List String) {id : Datum}
    {engine : Engine} (can : engine.remembers id = true) {found : Definition}
    (known : engine.state.definition = some found) :
    ∃ left : Engine,
      left.showing = (engine.perform (visit disk found.location)).1.showing ∧
      left.state.definition = some found ∧
      engine.perform (definitionEvent disk symbol (.completed statuses id)) =
        match (engine.perform (visit disk found.location)).2 with
        | .ok location =>
          (left.withState fun state =>
            { state with
              definition := some { found with location }
              status := symbol ++ " -> " ++ location.path ++ ":" ++ toString location.line },
            .ok ())
        | .error (.source problem) =>
          (left.withState fun state =>
            { state with status := problem.message, definition := none }, .ok ())
        | .error fault => (left, .error fault) := by
  obtain ⟨ended, shown, same, told⟩ := perform_jump_end disk symbol statuses can
  obtain ⟨still, result⟩ := visit_of_showing disk found.location shown
  have kept := visit_keeps_definition disk found.location ended
  refine ⟨_, still, kept.trans (same.trans known), ?_⟩
  rw [told, known]
  dsimp only
  rw [perform_showDefinition, result]

end Engine

/-- What an event leaves behind: a status, the location of the definition that is known, and what is
shown of sources. -/
structure Hearing.Leaves (hearing : Hearing) (status : String) (location : Option Location)
    (showing : Holdings × Option SaveWatch) : Prop where
  /-- The status. -/
  status : hearing.after.state.status = status
  /-- The location of the definition. -/
  location : hearing.after.state.definition.map (·.location) = location
  /-- What is shown. -/
  showing : hearing.after.showing = showing

/-- The jump to a symbol ends at a location: its source is shown if it can be, and the status tells
where the symbol is defined or why its source cannot be shown. -/
def Hearing.Lands (hearing : Hearing) (symbol : String) : Option Location → Prop
  | none => hearing.Leaves ("Symbol not found: " ++ symbol) none hearing.engine.showing
  | some location =>
    match hearing.engine.perform (visit hearing.disk location) with
    | (visited, .ok found) =>
      hearing.Leaves (symbol ++ " -> " ++ found.path ++ ":" ++ toString found.line) (some found)
        visited.showing
    | (visited, .error (.source problem)) =>
      hearing.Leaves problem.message none visited.showing
    | (visited, .error fault) =>
      hearing.Leaves ("Internal Engine Error: " ++ fault.message) (some location) visited.showing

namespace Engine

/-- An event that is taken leaves behind what its action does. -/
theorem leaves_done (hearing : Hearing) {left : Engine} (heard : hearing.purpose ≠ .unheard)
    (done : hearing.engine.perform
      (purposeEvent hearing.disk hearing.purpose hearing.event) = (left, .ok ())) :
    hearing.Leaves left.state.status (left.state.definition.map (·.location)) left.showing := by
  have after : hearing.after = left.notify := by
    rw [Hearing.after, takeNotice_heard hearing.disk heard, reporting, done]
  constructor <;> rw [after] <;> rfl

/-- An event that fails leaves behind what its action has done by then, and the status tells the
failure. -/
theorem leaves_failed (hearing : Hearing) {left : Engine} {fault : Fault}
    (heard : hearing.purpose ≠ .unheard)
    (failed : hearing.engine.perform
      (purposeEvent hearing.disk hearing.purpose hearing.event) = (left, .error fault)) :
    hearing.Leaves ("Internal Engine Error: " ++ fault.message)
      (left.state.definition.map (·.location)) left.showing := by
  have after : hearing.after =
      (left.withStatus ("Internal Engine Error: " ++ fault.message)).notify := by
    rw [Hearing.after, takeNotice_heard hearing.disk heard, reporting, failed]
  constructor <;> rw [after] <;> rfl

/-- A jump ends at the location of the definition that is known. -/
theorem lands_at_definition {hearing : Hearing} {symbol : String}
    (ends : hearing.jumped? = some symbol) :
    hearing.Lands symbol (hearing.engine.state.definition.map (·.location)) := by
  obtain ⟨index, purpose, event, disk, engine⟩ := hearing
  have own : ∃ statuses id, purpose = .definition symbol ∧ event = .completed statuses id ∧
      engine.remembers id = true := by
    cases purpose <;> cases event <;> try contradiction
    obtain ⟨can, same⟩ := Option.ite_none_right_eq_some.mp ends
    cases same
    exact ⟨_, _, rfl, rfl, can⟩
  obtain ⟨statuses, id, rfl, rfl, can⟩ := own
  have heard : Purpose.definition symbol ≠ .unheard := fun same => nomatch same
  let hearing : Hearing := ⟨index, .definition symbol, .completed statuses id, disk, engine⟩
  show hearing.Lands symbol (engine.state.definition.map (·.location))
  cases definition : engine.state.definition with
  | none =>
    obtain ⟨ended, shown, known, told⟩ := perform_jump_end disk symbol statuses can
    rw [definition] at known told
    obtain ⟨status, location, showing⟩ := leaves_done hearing heard told
    exact ⟨status, location.trans (congrArg _ known), showing.trans shown⟩
  | some found =>
    obtain ⟨left, shown, known, told⟩ := perform_jump_found disk symbol statuses can definition
    rw [Option.map_some, Hearing.Lands]
    revert shown told
    cases engine.perform (visit disk found.location) with
    | mk visited result =>
      intro shown told
      have failed : ∀ {fault}, engine.perform (purposeEvent disk hearing.purpose hearing.event) =
            (left, .error fault) →
          hearing.Leaves ("Internal Engine Error: " ++ fault.message) (some found.location)
            visited.showing := by
        intro fault told
        obtain ⟨status, location, showing⟩ := leaves_failed hearing heard told
        exact ⟨status, location.trans (congrArg _ known), showing.trans shown⟩
      have done : ∀ {change}, engine.perform (purposeEvent disk hearing.purpose hearing.event) =
            (left.withState change, .ok ()) →
          (left.withState change).showing = left.showing →
          hearing.Leaves (left.withState change).state.status
            ((left.withState change).state.definition.map (·.location)) visited.showing := by
        intro change told apart
        obtain ⟨status, location, showing⟩ := leaves_done hearing heard told
        exact ⟨status, location, showing.trans (apart.trans shown)⟩
      cases result with
      | ok location => exact done told rfl
      | error fault =>
        cases fault with
        | source problem => exact done told rfl
        | _ => exact failed told

/-! ## What is known of definitions -/

/-- The location of the definition that is known after a jump has ended at a location. -/
theorem definition_of_lands {hearing : Hearing} {symbol : String} {target : Option Location}
    (lands : hearing.Lands symbol target) :
    hearing.after.state.definition.map (·.location) = target.bind fun location =>
      (hearing.pathOf? location).map fun path => { location with path } := by
  cases target with
  | none => exact lands.location
  | some location =>
    have given := gives_visit hearing.disk location hearing.engine
    rw [Option.bind_some, Hearing.pathOf?]
    simp only [Hearing.Lands, perform_eq] at lands given ⊢
    revert lands given
    cases Fallible.perform hearing.engine (visit hearing.disk location) with
    | mk visited result =>
      intro lands given
      cases result with
      | ok found => exact lands.location.trans (congrArg some (given found rfl))
      | error fault => cases fault <;> exact lands.location

/-- The definition that is known after an event is what its action leaves. -/
theorem definition_after (hearing : Hearing) : hearing.after.state.definition =
    (hearing.engine.perform
      (purposeEvent hearing.disk hearing.purpose hearing.event)).1.state.definition :=
  congrArg News.definition (news_after hearing)

/-- A location that comes back is known from then on. -/
theorem definition_of_located {hearing : Hearing} {location : Option Location}
    (tells : hearing.located? = some location) :
    hearing.after.state.definition.map (·.location) = location := by
  rw [definition_after]
  obtain ⟨index, purpose, event, disk, engine⟩ := hearing
  cases purpose <;> cases event <;> try contradiction
  rename_i symbol result ns id
  have read : Location.ofDatum? result = .ok location := by
    simp only [Hearing.located?] at tells
    cases reads : Location.ofDatum? result with
    | error fault =>
      rw [reads] at tells
      cases tells
    | ok known =>
      rw [reads] at tells
      cases tells
      rfl
  have done : engine.perform (purposeEvent disk (.definition symbol) (.value result ns id)) =
      (engine.setDefinition location, .ok ()) := by
    simp only [purposeEvent, definitionEvent, perform_bind, perform_lift, read, perform_modify]
  rw [done]
  cases location <;> rfl

/-- All other events keep the definition that is known. -/
theorem definition_of_other {hearing : Hearing} (other : hearing.located? = none)
    (going : hearing.jumped? = none) :
    hearing.after.state.definition = hearing.engine.state.definition := by
  rw [definition_after]
  obtain ⟨index, purpose, event, disk, engine⟩ := hearing
  have kept : ∀ {action : Action Unit}, Keeps (fun engine => engine.state.definition) action →
      (engine.perform action).1.state.definition = engine.state.definition :=
    fun keeps => keeps engine
  cases purpose with
  | unheard => rfl
  | evaluation origin =>
    have apart : Resultless fun engine => engine.state.definition :=
      ⟨fun _ _ _ => rfl, fun _ _ => rfl, fun _ _ => rfl, fun _ _ _ _ => rfl⟩
    exact kept (apart.keeps_event (fun _ _ => rfl) (fun _ _ => rfl) (fun _ _ => rfl)
      disk origin event)
  | documentation symbol =>
    exact kept (keeps_documentationEvent (fun _ _ => rfl) (fun _ _ => rfl) (fun _ _ _ _ => rfl)
      symbol event)
  | definition symbol =>
    cases event with
    | value result ns id =>
      simp only [Hearing.located?] at other
      cases read : Location.ofDatum? result with
      | ok location =>
        rw [read] at other
        cases other
      | error fault =>
        simp only [purposeEvent, definitionEvent, perform_bind, perform_lift, read]
    | output text id => rfl
    | errorOutput text id => rfl
    | completed statuses id =>
      rcases complete_cases engine statuses id with ⟨can, _⟩ | ⟨_, fault, failed⟩
      · simp [Hearing.jumped?, can] at going
      · simp only [purposeEvent, definitionEvent, perform_bind, failed]

/-- What happens decides which definition is known. -/
theorem accounts_toldAfter :
    Accounts (fun news told => news.definition.map (·.location) = told.map Told.found)
      toldAfter where
  sent := by
    intro before sending told prepared agree
    obtain ⟨engine, message, topic⟩ := sending
    have cleared : engine.state.definition = (before.cleared topic).definition :=
      congrArg News.definition prepared
    rw [news_sent]
    show engine.state.definition.map _ = _
    rw [cleared]
    cases topic with
    | identity told => exact agree
    | work purpose =>
      cases purpose with
      | definition symbol => rfl
      | _ => exact agree
  heard := by
    intro before hearing told followed agree
    have same : hearing.engine.state.definition.map (·.location) = told.map Told.found :=
      (congrArg (fun news => news.definition.map (·.location)) followed).trans agree
    show hearing.after.state.definition.map (·.location) = _
    rw [toldAfter]
    cases tells : hearing.located? with
    | some location =>
      rw [definition_of_located tells]
      cases location <;> rfl
    | none =>
      cases ends : hearing.jumped? with
      | some symbol =>
        have lands := lands_at_definition ends
        rw [same] at lands
        rw [definition_of_lands lands]
        cases told with
        | none => rfl
        | some told =>
          dsimp only [Option.map_some, Option.bind_some, Option.isSome_some]
          rw [if_pos rfl, Option.map_map]
          rfl
      | none =>
        rw [definition_of_other tells ends]
        exact same

end Engine

/-! ## What comes between the value and the end -/

/-- The happening forgets the definition that is known or puts another in its place. -/
def Happening.displaces : Happening → Bool
  | .sent sending => sending.defined?.isSome
  | .heard hearing => hearing.located?.isSome ||
      (hearing.jumped?.isSome && hearing.after.state.definition.isNone)

/-- The happening tells no location for a request. -/
def Happening.SilentFor (request : Nat) : Happening → Prop
  | .sent _ => True
  | .heard hearing => hearing.located?.isSome → hearing.request ≠ request

/-- The definition that is known, if one is, came back for another request. -/
def Elsewhere (request : Nat) (told : Option Told) : Prop := ∀ known ∈ told, known.request ≠ request

/-- What came back for other requests stays so when no location comes back for this one. -/
theorem Elsewhere.step {request : Nat} {told : Option Told} {happening : Happening}
    (elsewhere : Elsewhere request told) (silent : happening.SilentFor request) :
    Elsewhere request (toldAfter told happening) := by
  intro known member
  cases happening with
  | sent sending =>
    simp only [toldAfter] at member
    split at member
    · contradiction
    · exact elsewhere known member
  | heard hearing =>
    simp only [toldAfter] at member
    split at member
    · rename_i location tells
      obtain ⟨_, _, rfl⟩ := Option.map_eq_some_iff.mp member
      exact silent (by rw [tells, Option.isSome_some])
    · split at member
      · obtain ⟨earlier, before, taken⟩ := Option.bind_eq_some_iff.mp member
        obtain ⟨_, _, rfl⟩ := Option.map_eq_some_iff.mp taken
        exact elsewhere earlier before
      · exact elsewhere known member

/-- It stays so over all that happens. -/
theorem Elsewhere.foldl {request : Nat} {told : Option Told} {happened : List Happening}
    (elsewhere : Elsewhere request told)
    (silent : ∀ happening ∈ happened, happening.SilentFor request) :
    Elsewhere request (happened.foldl toldAfter told) := by
  induction happened generalizing told with
  | nil => exact elsewhere
  | cons happening rest ih =>
    exact ih (elsewhere.step (silent happening (.head _))) fun other member =>
      silent other (.tail _ member)

namespace Engine

/-- Nothing is known from elsewhere when nothing is known. -/
theorem elsewhere_none (request : Nat) : Elsewhere request none := fun _ member => nomatch member

/-- What does not displace the definition that is known changes at most the path of its source, and
when it is displaced, what is known came back for another request. -/
theorem displaces_cases {told : Told} {happening : Happening}
    (agree : ∀ hearing, happening = .heard hearing →
      hearing.after.state.definition.map (·.location) =
        (toldAfter (some told) happening).map Told.found)
    (silent : happening.SilentFor told.request) :
    (happening.displaces = false ∧
        ∃ path, toldAfter (some told) happening = some { told with path }) ∨
      (happening.displaces = true ∧ Elsewhere told.request (toldAfter (some told) happening)) := by
  cases happening with
  | sent sending =>
    rw [Happening.displaces, toldAfter]
    cases sending.defined? with
    | none => exact .inl ⟨rfl, told.path, rfl⟩
    | some symbol => exact .inr ⟨rfl, elsewhere_none _⟩
  | heard hearing =>
    have agree := agree hearing rfl
    simp only [Happening.displaces, toldAfter] at agree ⊢
    cases tells : hearing.located? with
    | some location =>
      refine .inr ⟨rfl, fun known member => ?_⟩
      obtain ⟨_, _, rfl⟩ := Option.map_eq_some_iff.mp member
      exact silent (by rw [tells, Option.isSome_some])
    | none =>
      rw [tells] at agree
      cases ends : hearing.jumped? with
      | none => exact .inl ⟨rfl, told.path, rfl⟩
      | some symbol =>
        simp only [ends, Option.isSome_some, ↓reduceIte, Option.bind_some] at agree ⊢
        cases shown : hearing.pathOf? told.found with
        | none =>
          rw [shown] at agree
          have forgotten := Option.map_eq_none_iff.mp agree
          exact .inr ⟨by rw [forgotten]; rfl, elsewhere_none _⟩
        | some path =>
          rw [shown] at agree
          obtain ⟨found, known, _⟩ := Option.map_eq_some_iff.mp agree
          exact .inl ⟨by rw [known]; rfl, path, rfl⟩

/-- What came back for a request is still known after all that happens if the first of it does not
displace it and nothing else does. -/
theorem still_told_cons {told : Told} {happening : Happening} {rest : List Happening}
    (silent : ∀ other ∈ happening :: rest, other.SilentFor told.request)
    (agree : ∀ hearing, happening = .heard hearing →
      hearing.after.state.definition.map (·.location) =
        (toldAfter (some told) happening).map Told.found)
    (others : ∀ path, toldAfter (some told) happening = some { told with path } →
      ((∃ last, rest.foldl toldAfter (some { told with path }) = some { told with path := last }) ↔
        ∀ other ∈ rest, other.displaces = false)) :
    (∃ last, (happening :: rest).foldl toldAfter (some told) = some { told with path := last }) ↔
      ∀ other ∈ happening :: rest, other.displaces = false := by
  rw [List.foldl_cons, List.forall_mem_cons]
  rcases displaces_cases agree (silent happening (.head _)) with ⟨stays, path, same⟩ | ⟨lost, away⟩
  · rw [same, and_iff_right stays]
    exact others path same
  · refine iff_of_false ?_ fun both => Bool.noConfusion (lost.symm.trans both.1)
    rintro ⟨last, own⟩
    exact away.foldl (fun other member => silent other (.tail _ member)) _ own rfl

/-- What came back for a request is still known after all that happens if and only if nothing of it
displaces it. -/
theorem still_told_iff {before after : Engine} {happened : List Happening}
    (unfolds : Unfolds before happened after) {told : Told}
    (known : before.news.definition.map (·.location) = (some told).map Told.found)
    (silent : ∀ happening ∈ happened, happening.SilentFor told.request) :
    (∃ path, happened.foldl toldAfter (some told) = some { told with path }) ↔
      ∀ happening ∈ happened, happening.displaces = false := by
  induction unfolds generalizing told with
  | quiet => exact iff_of_true ⟨told.path, rfl⟩ fun _ member => nomatch member
  | sent sending prepared _ ih =>
    refine still_told_cons silent (fun hearing same => nomatch same) fun path same => ?_
    have agree := accounts_toldAfter.sent prepared known
    rw [same] at agree
    exact ih agree fun other member => silent other (.tail _ member)
  | heard hearing own followed _ ih =>
    have agree := accounts_toldAfter.heard followed known
    refine still_told_cons silent (fun other same => by cases same; exact agree) fun path same => ?_
    rw [same] at agree
    exact ih agree fun other member => silent other (.tail _ member)

/-- A jump ends at the definition that is known then: of all that came back since a location, the
last happening that displaced it decides. The jump ends at this location, under the path by which
its source is known, if and only if nothing displaced it. So two jumps at one time do not take each
other's definitions exactly when no value of another jump is heard between the value of a jump and
its end, no definition is asked for meanwhile, and no jump ends meanwhile at a source that cannot be
shown. -/
theorem jump_lands_on_answer_iff {first engine : Engine} {before between later : List Happening}
    {own ending : Hearing} {location : Location} {symbol : String}
    (chronicled : Chronicled first engine
      (before ++ .heard own :: (between ++ .heard ending :: later)))
    (answered : own.located? = some (some location)) (ends : ending.jumped? = some symbol)
    (alone : ∀ happening ∈ between, happening.SilentFor own.request) :
    let told := between.foldl toldAfter (some ⟨own.request, location, location.path⟩)
    ending.Lands symbol (told.map Told.found) ∧
      ((∃ path, told = some ⟨own.request, location, path⟩) ↔
        ∀ happening ∈ between, happening.displaces = false) := by
  intro told
  obtain ⟨start, _, unfolds⟩ := chronicled.unfolds.exists_middle
  cases unfolds with
  | heard _ _ _ behind =>
    obtain ⟨middle, between, rest⟩ := behind.exists_middle
    have known : own.after.news.definition.map (·.location) =
        (some ⟨own.request, location, location.path⟩).map Told.found :=
      definition_of_located answered
    refine ⟨?_, still_told_iff between known alone⟩
    have agree := accounts_toldAfter.foldl between known
    cases rest with
    | heard _ _ followed _ =>
      have same : ending.engine.state.definition.map (·.location) = told.map Told.found :=
        (congrArg (fun news => news.definition.map (·.location)) followed).trans agree
      rw [← same]
      exact lands_at_definition ends

/-- An answer to a request for a definition that stands at the start of a source. -/
def locationAnswer (id path : String) : Table :=
  [("id", .text id), ("value", .text ("[\"" ++ path ++ "\" 1 1]"))]

/-- A world with two sources, in which no request is answered at once. -/
def twoSourceWorld : World := ⟨twoSources "(b)", silentWorld.transport⟩

/-- Two definitions are asked for, and one request is answered after the other. -/
def orderlyJumps : List Order :=
  [.start, .definition "x", .definition "y",
    .answered (.text "2") [locationAnswer "2" "/b.clj", doneAnswer (.text "2")],
    .answered (.text "3") [locationAnswer "3" "/a.clj", doneAnswer (.text "3")]]

/-- Then the first jump lands at its own definition. -/
theorem jump_lands_on_answer_iff_orderly :
    ∃ first, Engine.create twoSourceWorld.disk "/a.clj" plainSettings = .ok first ∧
      let run := chronicle twoSourceWorld first orderlyJumps
      ∃ before own ending later,
        Chronicled first run.1 (before ++ .heard own :: ([] ++ .heard ending :: later)) ∧
        own.located? = some (some ⟨"/b.clj", 1, some 1, none⟩) ∧ ending.jumped? = some "x" ∧
        ending.request = own.request ∧
        ending.Lands "x" (some ⟨"/b.clj", 1, some 1, none⟩) ∧
        ending.after.state.status = "x -> /b.clj:1" := by
  obtain ⟨first, created, value⟩ := @exists_created _ twoSourceWorld.disk "/a.clj" plainSettings
    (fun first => ((chronicle twoSourceWorld first orderlyJumps).2[3]?.bind Happening.hearing?).map
      fun own => (own.request, own.located?))
    (some (1, some (some ⟨"/b.clj", 1, some 1, none⟩))) (by decide +kernel)
  have done := @of_created _ _ _ _ _ (fun first =>
    (((chronicle twoSourceWorld first orderlyJumps).2.drop 4)[0]?.bind Happening.hearing?).map
      fun ending => (ending.request, ending.jumped?, ending.after.state.status))
    (some (1, some "x", "x -> /b.clj:1")) created (by decide +kernel)
  obtain ⟨own, told, same⟩ := Option.map_eq_some_iff.mp value
  obtain ⟨request, located⟩ := Prod.mk.inj same
  obtain ⟨ending, ended, same⟩ := Option.map_eq_some_iff.mp done
  obtain ⟨again, same⟩ := Prod.mk.inj same
  obtain ⟨jumped, status⟩ := Prod.mk.inj same
  have chronicled := chronicled_chronicle twoSourceWorld first orderlyJumps
  rw [split_at_hearing told, split_at_hearing ended] at chronicled
  obtain ⟨lands, _⟩ := jump_lands_on_answer_iff chronicled located jumped
    fun _ member => nomatch member
  exact ⟨first, created, _, own, ending, _, chronicled, located, jumped, again.trans request.symm,
    lands, status⟩

/-- Two definitions are asked for, and the second location comes back between the first one and the
end of its request. -/
def crossingJumps : List Order :=
  [.start, .definition "x", .definition "y",
    .answered (.text "2") [locationAnswer "2" "/a.clj"],
    .answered (.text "3") [locationAnswer "3" "/b.clj"],
    .answered (.text "2") [doneAnswer (.text "2")],
    .answered (.text "3") [doneAnswer (.text "3")]]

/-- Then the first jump lands at the definition of the second symbol. -/
theorem crossing_jump_lands_elsewhere :
    ∃ first, Engine.create twoSourceWorld.disk "/a.clj" plainSettings = .ok first ∧
      let run := chronicle twoSourceWorld first crossingJumps
      Chronicled first run.1 run.2 ∧ ∃ own ending,
        run.2[3]?.bind Happening.hearing? = some own ∧
        run.2[5]?.bind Happening.hearing? = some ending ∧ ending.request = own.request ∧
        own.located? = some (some ⟨"/a.clj", 1, some 1, none⟩) ∧ ending.jumped? = some "x" ∧
        ending.after.state.sourcePath = "/b.clj" ∧
        ending.after.state.status = "x -> /b.clj:1" ∧
        ending.after.state.status ≠ "x -> /a.clj:1" := by
  obtain ⟨first, created, value⟩ := @exists_created _ twoSourceWorld.disk "/a.clj" plainSettings
    (fun first => ((chronicle twoSourceWorld first crossingJumps).2[3]?.bind Happening.hearing?).map
      fun own => (own.request, own.located?))
    (some (1, some (some ⟨"/a.clj", 1, some 1, none⟩))) (by decide +kernel)
  have done := @of_created _ _ _ _ _ (fun first =>
    ((chronicle twoSourceWorld first crossingJumps).2[5]?.bind Happening.hearing?).map
      fun ending => (ending.request, ending.jumped?, ending.after.state.sourcePath,
        ending.after.state.status))
    (some (1, some "x", "/b.clj", "x -> /b.clj:1")) created (by decide +kernel)
  obtain ⟨own, told, same⟩ := Option.map_eq_some_iff.mp value
  obtain ⟨request, located⟩ := Prod.mk.inj same
  obtain ⟨ending, ended, same⟩ := Option.map_eq_some_iff.mp done
  obtain ⟨again, same⟩ := Prod.mk.inj same
  obtain ⟨jumped, same⟩ := Prod.mk.inj same
  obtain ⟨source, status⟩ := Prod.mk.inj same
  refine ⟨first, created, chronicled_chronicle _ _ _, own, ending, told, ended,
    again.trans request.symm, located, jumped, source, status, ?_⟩
  rw [status]
  decide

end Engine
end EvalDesk
