import EvalDesk.Proofs.Engine.Search
import EvalDesk.Proofs.Engine.SourceParts
import EvalDesk.Proofs.Engine.Twins

/-!
# Answers at once and answers later

The answers to a request may come while it is being sent or after that. Either way they are heard in
the same order by engines that differ in nothing they read, so they leave the same engine, whatever
was asked. Only what is pending is found in two ways: while the request is being sent its end is
remembered by its identity, and later its end is held against what is pending. The two agree unless
the request is ended by answers without an identity only.
-/
namespace EvalDesk

/-- What may be asked about code. -/
inductive Inquiry where
  /-- Evaluate code that comes from an origin, or from nowhere in the source. -/
  | code (code : String) (origin : Option Origin)
  /-- Load the whole source. -/
  | buffer
  /-- Show the documentation of a symbol. -/
  | documentation (symbol : String)
  /-- Show the definition of a symbol. -/
  | definition (symbol : String)

namespace Inquiry

/-- The order to ask it. -/
def order : Inquiry → Order
  | .code text origin => .code text origin
  | .buffer => .buffer
  | .documentation symbol => .documentation symbol
  | .definition symbol => .definition symbol

/-- It is pending until it ends. -/
def isTracked : Inquiry → Bool
  | .code .. | .buffer => true
  | .documentation _ | .definition _ => false

end Inquiry

/-- An answer to the request of a name: it carries the name or no identity, and its status, if it
has one, is a text or a list of texts. -/
def Event.Answers (name : String) (answer : Table) : Prop :=
  IsAnswerTo (.text name) answer ∨ IsAnswerTo .null answer

/-- The identity of an answer can be remembered. -/
theorem Event.Answers.isName {name : String} {answer : Table} (answers : Answers name answer) :
    (answer.get "id").IsName := by
  rcases answers with own | nameless
  · exact .inr ⟨name, own.own⟩
  · exact .inl nameless.own

namespace Engine

open Fallible

/-- A world that gives the same answers to every message at once. -/
def answering (disk : Disk) (answers : List Table) : World := ⟨disk, fun _ => ⟨none, answers, none⟩⟩

/-! ## What answers end -/

/-- What is pending after an answer. -/
def pendingAfter (pending : Option String) (answer : Table) : Option String :=
  if Event.saysDone answer && endsPending pending (answer.get "id") then none else pending

/-- An answer says that the request of a name is done, and carries the name. -/
def EndsByName (name : String) (answer : Table) : Prop :=
  Event.saysDone answer = true ∧ answer.get "id" = .text name

/-- What answers to the request of a name change of what runs. -/
structure Tracking.Closed (name : String) (answers : List Table) (before after : Tracking) :
    Prop where
  /-- The session keeps its requests. -/
  requests : after.session.requests = before.session.requests
  /-- Sending goes on. -/
  sending : after.sending = before.sending
  /-- What they end is no longer pending. -/
  pending : after.pending = answers.foldl pendingAfter before.pending
  /-- The end is remembered by its name while a request is being sent. -/
  endedEarly : name ∈ after.endedEarly ↔
    name ∈ before.endedEarly ∨ before.sending = true ∧ ∃ answer ∈ answers, EndsByName name answer

/-- Where nothing is pending nothing is after answers. -/
theorem foldl_pendingAfter_none (answers : List Table) :
    answers.foldl pendingAfter none = none := by
  induction answers with
  | nil => rfl
  | cons answer rest ih =>
    have still : pendingAfter none answer = none := ite_self none
    rw [List.foldl_cons, still, ih]

/-- A request is pending until one of the answers to it says that it is done. -/
theorem foldl_pendingAfter_own {name : String} {answers : List Table}
    (own : ∀ answer ∈ answers, Event.Answers name answer) :
    answers.foldl pendingAfter (some name) =
      if answers.any Event.saysDone then none else some name := by
  induction answers with
  | nil => rfl
  | cons answer rest ih =>
    have ends : endsPending (some name) (answer.get "id") = true := by
      rcases own answer (.head _) with named | nameless
      · simp [named.own, endsPending]
      · simp [nameless.own, endsPending]
    rw [List.foldl_cons, pendingAfter, ends, Bool.and_true, List.any_cons]
    cases Event.saysDone answer with
    | true => exact foldl_pendingAfter_none rest
    | false => exact ih fun later member => own later (.tail _ member)

/-- A request of which it is remembered whether it was ended by its name is pending as if its
answers came later exactly if none of them says that it is done, or one does by its name. -/
theorem remembered_agrees_iff {name : String} {answers : List Table} {remembered : Bool}
    (own : ∀ answer ∈ answers, Event.Answers name answer)
    (early : remembered = true ↔ ∃ answer ∈ answers, EndsByName name answer) :
    (if !remembered then some name else none) = answers.foldl pendingAfter (some name) ↔
      (∀ answer ∈ answers, Event.saysDone answer = false) ∨
        ∃ answer ∈ answers, EndsByName name answer := by
  have ended : answers.any Event.saysDone = false ↔
      ∀ answer ∈ answers, Event.saysDone answer = false := by simp
  rw [foldl_pendingAfter_own own, ← early, ← ended]
  have told : remembered = true → answers.any Event.saysDone = true := fun known => by
    obtain ⟨answer, member, closes, _⟩ := early.mp known
    exact List.any_eq_true.mpr ⟨answer, member, closes⟩
  cases remembered with
  | false => cases answers.any Event.saysDone <;> simp
  | true => simp [told rfl]

section Hearing

variable (disk : Disk) {index : Nat} {engine : Engine} {purpose : Purpose} {name : String}
  (heard : purpose ≠ .unheard)
include heard

/-- An answer to a request that is heard. -/
theorem hear_closed
    (request : (engine.session.requests[index]?).map (·.2) = some (.work purpose)) {answer : Table}
    (answers : Event.Answers name answer) :
    (hear disk index engine answer).2 = none ∧
      Tracking.Closed name [answer] engine.tracking (hear disk index engine answer).1.tracking := by
  obtain ⟨talk, known, topic⟩ := Session.exists_talk request
  rcases answers with own | nameless
  · obtain ⟨words, read, done⟩ := own.statuses
    obtain ⟨session, requests, _, succeeds, changed⟩ := tracking_hear_work disk
      (Tracking.ended · name) known topic heard read fun now statuses => by
        rw [own.own]
        exact perform_complete now statuses name
    refine ⟨succeeds, ?_⟩
    rw [changed, done]
    cases ends : Event.saysDone answer with
    | false =>
      exact ⟨requests, rfl, by simp [pendingAfter, ends], by simp [EndsByName, ends]⟩
    | true =>
      refine ⟨requests, rfl, ?_, ?_⟩
      · simp [Tracking.ended, pendingAfter, ends, own.own, endsPending]
      · cases sending : engine.tracking.sending <;>
          simp [Tracking.ended, sending, EndsByName, ends, own.own]
  · obtain ⟨words, read, done⟩ := nameless.statuses
    obtain ⟨session, requests, _, succeeds, changed⟩ := tracking_hear_work disk
      ({ · with pending := none }) known topic heard read fun now statuses => by
        rw [nameless.own]
        exact perform_complete_nameless now statuses
    refine ⟨succeeds, ?_⟩
    rw [changed, done]
    cases ends : Event.saysDone answer with
    | false =>
      exact ⟨requests, rfl, by simp [pendingAfter, ends], by simp [EndsByName, ends]⟩
    | true =>
      refine ⟨requests, rfl, ?_, ?_⟩
      · simp [pendingAfter, ends, nameless.own, endsPending]
      · simp [EndsByName, nameless.own]

/-- Answers to a request that is heard, one after another. -/
theorem hearAll_closed
    (request : (engine.session.requests[index]?).map (·.2) = some (.work purpose))
    {answers : List Table} (own : ∀ answer ∈ answers, Event.Answers name answer) :
    ∃ after, hearAll (hear disk index) engine answers = (after, none) ∧
      Tracking.Closed name answers engine.tracking after.tracking := by
  induction answers generalizing engine with
  | nil => exact ⟨engine, rfl, rfl, rfl, rfl, by simp⟩
  | cons answer rest ih =>
    obtain ⟨succeeds, first⟩ := hear_closed disk heard request (own answer (.head _))
    cases done : hear disk index engine answer with
    | mk middle fault =>
      rw [done] at succeeds first
      cases succeeds
      have still : (middle.session.requests[index]?).map (·.2) = some (.work purpose) :=
        (congrArg (fun requests => (requests[index]?).map (·.2)) first.requests).trans request
      obtain ⟨after, finishes, second⟩ := ih still fun later member => own later (.tail _ member)
      refine ⟨after, by rw [hearAll, done]; exact finishes, second.requests.trans first.requests,
        second.sending.trans first.sending, ?_, ?_⟩
      · rw [second.pending, first.pending]
        rfl
      · rw [second.endedEarly, first.endedEarly, first.sending]
        simp only [List.mem_cons, List.not_mem_nil, or_false, exists_eq_left, exists_eq_or_imp]
        rw [or_assoc, ← and_or_left]

end Hearing

/-! ## Requests -/

/-- The end of sending the request of a name, which may be pending from then on. -/
def settled (engine : Engine) (name : String) (pends : Bool) : Engine :=
  { (if pends then engine.withState fun state => { state with pending := some name }
    else engine) with sending := false }.notify

/-- The end of sending makes no difference to answers. -/
theorem twins_settled (engine : Engine) (name : String) (pends : Bool) :
    Twins engine (engine.settled name pends) := by
  cases pends <;> exact ⟨_, _, _, _, rfl⟩

/-- The end of sending leaves the session as it is. -/
theorem session_settled (engine : Engine) (name : String) (pends : Bool) :
    (engine.settled name pends).session = engine.session := by
  cases pends <;> rfl

/-- What is pending at the end of sending. -/
theorem pending_settled (engine : Engine) (name : String) (pends : Bool) :
    (engine.settled name pends).state.pending =
      if pends then some name else engine.state.pending := by
  cases pends <;> rfl

/-- What was asked leaves the same engine whether its answers came at once or come later, and none
of them fails. What is pending is the same as well exactly if what was asked is not tracked, if
nothing was sent, if no answer says that the request is done, or if one does by the name of the
request. -/
def Agrees (disk : Disk) (engine : Engine) (answers : List Table) (tracked : Bool)
    (now asked : Engine) : Prop :=
  ∃ later, hearAll (hear disk engine.session.talks.length) asked answers = (later, none) ∧
    Twins now later ∧
    (now.state.pending = later.state.pending ↔
      tracked = false ∨ asked.session.talks.length = engine.session.talks.length ∨
        (∀ answer ∈ answers, Event.saysDone answer = false) ∨
        ∃ answer ∈ answers, EndsByName engine.session.nextId answer)

/-- The engine when a request was sent, and nothing has come back. -/
def sentBy (engine : Engine) (message : Message) (purpose : Purpose) : Engine :=
  recorded { engine with endedEarly := [], sending := true } message (.work purpose)

/-- What comes back to the request that was sent is for its purpose. -/
theorem sentBy_listens (engine : Engine) (message : Message) (purpose : Purpose) :
    ((engine.sentBy message purpose).session.requests[engine.session.talks.length]?).map (·.2) =
      some (.work purpose) := by
  simp only [sentBy, recorded, Session.requests_record]
  simp [Session.requests]

section Requests

variable (disk : Disk) {purpose : Purpose} (heard : purpose ≠ .unheard) {engine : Engine}
  (op : String) (fields : Table)
include heard

/-- A request whose answers come at once is pending after that if it is tracked and was not ended
by its name. -/
theorem dispatch_answering {answers : List Table}
    (own : ∀ answer ∈ answers, Event.Answers engine.session.nextId answer) (tracked : Bool) :
    ∃ after,
      hearAll (hear disk engine.session.talks.length)
          (engine.sentBy (engine.session.message op fields) purpose) answers = (after, none) ∧
        Tracking.Closed engine.session.nextId answers
          (engine.sentBy (engine.session.message op fields) purpose).tracking after.tracking ∧
        engine.dispatch (answering disk answers) op fields purpose tracked =
          after.settled engine.session.nextId
            (tracked && !after.endedEarly.contains engine.session.nextId) := by
  let started := { engine with endedEarly := [], sending := true }
  let message := engine.session.message op fields
  obtain ⟨after, hears, closed⟩ := hearAll_closed disk heard (sentBy_listens engine message purpose)
    own
  refine ⟨after, hears, closed, ?_⟩
  have sends : started.perform (send (answering disk answers) message (.work purpose)) =
      (after, .ok engine.session.nextId) := perform_send_answered rfl hears
  have asks : started.perform (request (answering disk answers) op fields purpose) =
      (after, .ok engine.session.nextId) := (perform_request started op fields purpose).trans sends
  rw [dispatch, connected, perform_bind, asks]
  cases tracked with
  | false => rfl
  | true =>
    simp only [↓reduceIte, perform_modify, Bool.true_and, settled]
    simp

/-- A request that nothing comes back to while it is sent is pending after that if it is tracked. -/
theorem dispatch_silent (tracked : Bool) :
    engine.dispatch (answering disk []) op fields purpose tracked =
      (engine.sentBy (engine.session.message op fields) purpose).settled engine.session.nextId
        tracked := by
  obtain ⟨_, same, _, silent⟩ := dispatch_answering disk heard op fields (List.forall_mem_nil _)
    tracked
  cases same
  rw [silent]
  exact congrArg (settled _ _) (Bool.and_true tracked)

/-- A request leaves the same engine whether its answers come at once or later. -/
theorem dispatch_agrees {answers : List Table}
    (own : ∀ answer ∈ answers, Event.Answers engine.session.nextId answer) (tracked : Bool)
    (idle : tracked = true → engine.state.pending = none) :
    Agrees disk engine answers tracked
      (engine.dispatch (answering disk answers) op fields purpose tracked)
      (engine.dispatch (answering disk []) op fields purpose tracked) := by
  let now := engine.dispatch (answering disk answers) op fields purpose tracked
  let asked := engine.dispatch (answering disk []) op fields purpose tracked
  let sent := engine.sentBy (engine.session.message op fields) purpose
  obtain ⟨after, hears, closed, atOnce⟩ := dispatch_answering disk heard op fields own
    tracked
  have told : now = after.settled engine.session.nextId
      (tracked && !after.endedEarly.contains engine.session.nextId) := atOnce
  have asks : asked = sent.settled engine.session.nextId tracked :=
    dispatch_silent disk heard op fields tracked
  have session : asked.session = sent.session := by rw [asks, session_settled]
  have request : (asked.session.requests[engine.session.talks.length]?).map (·.2) =
      some (.work purpose) := by
    rw [session]
    exact sentBy_listens engine _ purpose
  obtain ⟨later, delivers, ends⟩ := hearAll_closed disk heard request own
  have still : Twins after later := by
    have begun : Twins sent asked := asks ▸ twins_settled sent _ tracked
    have named : ∀ answer ∈ answers, (answer.get "id").IsName :=
      fun answer member => (own answer member).isName
    have both := begun.hearAll disk engine.session.talks.length named
    rwa [hears, delivers] at both
  have done : Twins after now := told ▸ twins_settled after _ _
  have sends : asked.session.talks.length ≠ engine.session.talks.length := by
    rw [session]
    simp [sent, sentBy, recorded, Session.record]
  refine ⟨later, delivers, done.symm.trans still, ?_⟩
  have before : after.state.pending = answers.foldl pendingAfter engine.state.pending :=
    closed.pending
  have behind : later.state.pending = answers.foldl pendingAfter asked.state.pending :=
    ends.pending
  have early : engine.session.nextId ∈ after.endedEarly ↔
      ∃ answer ∈ answers, EndsByName engine.session.nextId answer :=
    closed.endedEarly.trans (by simp [sentBy, recorded, tracking, emit])
  show now.state.pending = later.state.pending ↔ tracked = false ∨
    asked.session.talks.length = engine.session.talks.length ∨ _
  rw [or_iff_right sends, behind, told, pending_settled, before, asks, pending_settled]
  cases tracked with
  | false => simp [sent, sentBy, recorded, emit]
  | true =>
    rw [idle rfl, foldl_pendingAfter_none, if_pos rfl, Bool.true_and,
      remembered_agrees_iff own (List.contains_iff_mem.trans early)]
    simp

end Requests

/-- No answer reaches an engine that has not sent the request. -/
theorem hearAll_unsent (disk : Disk) {engine : Engine} {index : Nat}
    (unsent : engine.session.talks[index]? = none) (answers : List Table) :
    hearAll (hear disk index) engine answers = (engine, none) := by
  induction answers with
  | nil => rfl
  | cons answer rest ih =>
    have same : hear disk index engine answer = (engine, none) := by
      rw [hear, Session.receive, unsent]
      rfl
    rw [hearAll, same]
    exact ih

/-- An evaluation leaves the same engine whether its answers come at once or later. -/
theorem evaluation_agrees (disk : Disk) {engine : Engine} (code op : String) (fields : Table)
    (origin : Origin) {answers : List Table}
    (own : ∀ answer ∈ answers, Event.Answers engine.session.nextId answer) :
    let evaluates (world : World) : Action Unit := do
      beginCycle code
      modify (dispatch world op fields (.evaluation origin) true)
    Agrees disk engine answers true (engine.perform (evaluates (answering disk answers))).1
      (engine.perform (evaluates (answering disk []))).1 := by
  intro evaluates
  obtain ⟨begun, result, begins, reset, _, _⟩ := perform_beginCycle engine code
  have session : begun.session = engine.session := congrArg Tracking.session reset
  have idle : begun.state.pending = none := congrArg Tracking.pending reset
  simp only [evaluates, perform_bind, begins]
  cases result with
  | error fault =>
    -- The transcript does not take the code, so nothing is sent.
    refine ⟨begun, hearAll_unsent disk (by simp [session]) answers, .refl begun, ?_⟩
    simp [session]
  | ok =>
    rw [← session] at own
    have heard : Purpose.evaluation origin ≠ .unheard := by simp
    have agrees := dispatch_agrees disk heard op fields own true fun _ => idle
    simp only [perform_modify]
    simpa only [Agrees, session] using agrees

/-- Whatever is asked about code, in every state of the engine, it makes no difference whether the
answers to it come while it is sent or after that, but for what is pending: no answer fails, and all
else that the engine knows and shows is the same. What is pending is the same, too, exactly if
documentation or a definition was asked for, if nothing was sent, since the transcript did not take
the code, if no answer says that the request is done, or if one of those that do carries the name of
the request. -/
theorem timing_agrees_iff (disk : Disk) (engine : Engine) (inquiry : Inquiry)
    {answers : List Table}
    (own : ∀ answer ∈ answers, Event.Answers engine.session.nextId answer) :
    let now := engine.obey (answering disk answers) inquiry.order
    let asked := engine.obey (answering disk []) inquiry.order
    ∃ later, hearAll (hear disk engine.session.talks.length) asked answers = (later, none) ∧
      Twins now later ∧
      (now.state.pending = later.state.pending ↔
        inquiry.isTracked = false ∨
          asked.session.talks.length = engine.session.talks.length ∨
          (∀ answer ∈ answers, Event.saysDone answer = false) ∨
          ∃ answer ∈ answers, EndsByName engine.session.nextId answer) := by
  cases inquiry with
  | code text origin => exact evaluation_agrees disk text "eval" _ _ own
  | buffer =>
    have loads : ∀ world, engine.perform (evaluateBuffer world) = engine.perform (do
        beginCycle ("(load-file \"" ++ engine.buffer.path ++ "\")")
        modify (dispatch world "load-file"
          (Session.loadFields engine.buffer.text engine.buffer.path)
          (.evaluation ⟨engine.buffer.path, 1⟩) true)) := fun world => by
      rw [evaluateBuffer, perform_bind, perform_get]
    simp only [Inquiry.order, obey, loads]
    exact evaluation_agrees disk _ "load-file" _ _ own
  | documentation symbol =>
    let cleared := engine.withState fun state =>
      { state with documentation := "", status := "doc " ++ symbol }
    have heard : Purpose.documentation symbol ≠ .unheard := by simp
    have own : ∀ answer ∈ answers, Event.Answers cleared.session.nextId answer := own
    exact dispatch_agrees disk heard "eval" _ own false (by simp)
  | definition symbol =>
    let cleared := engine.withState fun state =>
      { state with definition := none, status := "locating " ++ symbol }
    have heard : Purpose.definition symbol ≠ .unheard := by simp
    have own : ∀ answer ∈ answers, Event.Answers cleared.session.nextId answer := own
    exact dispatch_agrees disk heard "eval" _ own false (by simp)

/-- An answer that says that the request of an identity is done. -/
def doneAnswer (id : Datum) : Table := [("id", id), ("status", .list [.text "done"])]

/-- It is an answer to the request of a name if it carries the name, or no identity. -/
theorem answers_doneAnswer {name : String} {id : Datum} (own : id = .text name ∨ id = .null) :
    Event.Answers name (doneAnswer id) := by
  have words : (doneAnswer id).get "status" = .list (["done"].map .text) := rfl
  rcases own with rfl | rfl
  · exact .inl ⟨rfl, .inr (.inr ⟨_, words⟩)⟩
  · exact .inr ⟨rfl, .inr (.inr ⟨_, words⟩)⟩

/-- It makes no difference when an evaluation is ended by its name. -/
theorem timing_agrees_iff_named :
    ∃ first, Engine.create (soleWorld "(a)").disk "/a.clj" plainSettings = .ok first ∧
      let engine := first.obey (soleWorld "(a)") .start
      let answers := [doneAnswer (.text "2")]
      let now := engine.obey (answering (soleWorld "(a)").disk answers) (.code "1" none)
      let asked := engine.obey (answering (soleWorld "(a)").disk []) (.code "1" none)
      (∀ answer ∈ answers, Event.Answers engine.session.nextId answer) ∧
      ∃ later, hearAll (hear (soleWorld "(a)").disk engine.session.talks.length) asked answers =
          (later, none) ∧ Twins now later ∧ now.state.pending = later.state.pending := by
  obtain ⟨first, created, name⟩ := @exists_created _ (soleWorld "(a)").disk "/a.clj" plainSettings
    (fun first => (first.obey (soleWorld "(a)") .start).session.nextId) "2" (by decide +kernel)
  have own : ∀ answer ∈ [doneAnswer (.text "2")],
      Event.Answers (first.obey (soleWorld "(a)") .start).session.nextId answer := by
    rw [name]
    intro answer member
    rw [List.mem_singleton.mp member]
    exact answers_doneAnswer (.inl rfl)
  obtain ⟨later, hears, twins, pending⟩ := timing_agrees_iff (soleWorld "(a)").disk
    (first.obey (soleWorld "(a)") .start) (.code "1" none) own
  refine ⟨first, created, own, later, hears, twins, pending.mpr (.inr (.inr (.inr ?_)))⟩
  exact ⟨_, .head _, rfl, by rw [name]; rfl⟩

/-- An evaluation that is ended without an identity stays pending if that is told while it is sent,
and is not pending if it is told later. -/
theorem nameless_end_keeps_pending :
    ∃ first, Engine.create (soleWorld "(a)").disk "/a.clj" plainSettings = .ok first ∧
      let engine := first.obey (soleWorld "(a)") .start
      let answers := [doneAnswer .null]
      let now := engine.obey (answering (soleWorld "(a)").disk answers) (.code "1" none)
      let asked := engine.obey (answering (soleWorld "(a)").disk []) (.code "1" none)
      let later := hearAll (hear (soleWorld "(a)").disk engine.session.talks.length) asked answers
      (∀ answer ∈ answers, Event.Answers engine.session.nextId answer) ∧
      engine.state.pending = none ∧ now.state.pending = some "2" ∧
      later.1.state.pending = none := by
  obtain ⟨first, created, run⟩ := @exists_created _ (soleWorld "(a)").disk "/a.clj" plainSettings
    (fun first =>
      let engine := first.obey (soleWorld "(a)") .start
      let now := engine.obey (answering (soleWorld "(a)").disk [doneAnswer .null]) (.code "1" none)
      let asked := engine.obey (answering (soleWorld "(a)").disk []) (.code "1" none)
      let later := hearAll (hear (soleWorld "(a)").disk engine.session.talks.length) asked
        [doneAnswer .null]
      (engine.state.pending, now.state.pending, later.1.state.pending))
    (none, some "2", none) (by decide +kernel)
  obtain ⟨idle, more⟩ := Prod.mk.inj run
  obtain ⟨now, later⟩ := Prod.mk.inj more
  refine ⟨first, created, fun answer member => ?_, idle, now, later⟩
  rw [List.mem_singleton.mp member]
  exact answers_doneAnswer (.inr rfl)

end Engine
end EvalDesk
