import EvalDesk.Proofs.Engine.Ends

/-!
# Interrupting the evaluation that runs

An interruption stops the request that is pending, and does nothing when none is. An evaluation is
pending from the time on when its message has arrived. It stays so over everything that can happen
but four things: another evaluation is started, the message of an order is lost, an end comes back
that carries its number or none, and what was drawn is removed. The last starts no cycle, sends
nothing and ends nothing, but it clears what is pending along with the diagnostics. So among calls
that leave the evaluation running it is the only one after which it cannot be interrupted.
-/
namespace EvalDesk

/-- One thing that is asked of the engine or comes back to it. -/
inductive Turn where
  /-- An order is carried out, or answers come back. -/
  | order (world : World) (order : Order)
  /-- What was drawn is removed. -/
  | cleared
  /-- The session is ended. -/
  | stopped
  /-- The source is read again. -/
  | loaded (disk : Disk)
  /-- The source of a location is shown. -/
  | visited (disk : Disk) (location : Location)
  /-- The source of a path is opened. -/
  | opened (disk : Disk) (path : String)
  /-- Error output of code from an origin is shown. -/
  | shown (disk : Disk) (text : Datum) (origin : Origin)

/-- The number of the request at a place, as its identity tells it. -/
def requestName (request : Nat) : String := toString (request + 1)

/-- A number is not empty. -/
theorem requestName_ne_empty (request : Nat) : requestName request ≠ "" := by
  intro empty
  have digits : Nat.toDigits 10 (request + 1) = [] := String.ofList_injective empty
  exact Nat.toDigits_ne_nil digits

namespace Engine

/-- The engine after a turn. -/
def turned (engine : Engine) : Turn → Engine
  | .order world order => engine.obey world order
  | .cleared => engine.clearDecorations
  | .stopped => engine.stop
  | .loaded disk => (engine.perform (loadSource disk)).1
  | .visited disk location => (engine.perform (visit disk location)).1
  | .opened disk path => (engine.perform (openPath disk path)).1
  | .shown disk text origin => (engine.perform (showDiagnostic disk text origin)).1

/-- The engine after some turns. -/
def afterTurns (engine : Engine) (turns : List Turn) : Engine := turns.foldl turned engine

/-- A turn comes to a state. -/
theorem attained_turned {first engine : Engine} (attained : Attained first engine) (turn : Turn) :
    Attained first (engine.turned turn) := by
  cases turn with
  | order world order => exact attained.order world order
  | cleared => exact attained.cleared
  | stopped => exact attained.stopped
  | loaded disk => exact attained.loaded disk
  | visited disk location => exact attained.visited disk location
  | opened disk path => exact attained.opened disk path
  | shown disk text origin => exact attained.shown disk text origin

/-- What the engine comes to, it comes to by some turns. -/
theorem attained_iff_turns {first engine : Engine} :
    Attained first engine ↔ ∃ turns, engine = first.afterTurns turns := by
  constructor
  · have further : ∀ {engine : Engine}, (∃ turns, engine = first.afterTurns turns) →
        ∀ turn, ∃ turns, engine.turned turn = first.afterTurns turns := by
      rintro _ ⟨turns, rfl⟩ turn
      exact ⟨turns ++ [turn], by simp [afterTurns]⟩
    intro attained
    induction attained with
    | start => exact ⟨[], rfl⟩
    | order world order _ ih => exact further ih (.order world order)
    | cleared _ ih => exact further ih .cleared
    | stopped _ ih => exact further ih .stopped
    | loaded disk _ ih => exact further ih (.loaded disk)
    | visited disk location _ ih => exact further ih (.visited disk location)
    | opened disk path _ ih => exact further ih (.opened disk path)
    | shown disk text origin _ ih => exact further ih (.shown disk text origin)
  · rintro ⟨turns, rfl⟩
    exact (Fallible.chains_property (Attained first)).foldl
      (fun _ turn attained => attained_turned attained turn) first turns .start

/-! ## What stays pending -/

/-- The turn leaves alone what is pending under a name: it starts no evaluation, loses no message,
brings no end that carries the name or none, and does not remove what was drawn. -/
def Spares (name : String) (engine : Engine) : Turn → Prop
  | .order world order =>
    engine.evaluation? world order = none ∧
      (∀ sending, engine.sending? world order = some sending → sending.arrives world = true) ∧
      Outlasts name (endedAmong (engine.happenings world order))
  | .cleared => False
  | _ => True

/-- Something holds of each of some turns, one after another, at the engine as it is then. -/
def Along (property : Engine → Turn → Prop) (engine : Engine) : List Turn → Prop
  | [] => True
  | turn :: rest => property engine turn ∧ Along property (engine.turned turn) rest

section Pending

variable {engine : Engine} {request : Nat} (known : request < engine.session.count)
include known

/-- A request that was sent stays pending over a turn exactly when the turn leaves it alone. -/
theorem pending_turned_iff (turn : Turn) :
    (engine.turned turn).state.pending = some (requestName request) ↔
      engine.state.pending = some (requestName request) ∧
        engine.Spares (requestName request) turn := by
  have alone : (engine.turned turn).state.pending = engine.state.pending →
      ((engine.turned turn).state.pending = some (requestName request) ↔
        engine.state.pending = some (requestName request) ∧ True) := fun same => by
    rw [same, and_true]
  have apart : Sourceless (·.state.pending) := sourceless_tracking.part Tracking.pending
  cases turn with
  | order world order =>
    cases found : engine.evaluation? world order with
    | none =>
      rw [Spares, found, eq_self, true_and]
      exact pending_obey_iff (requestName request) found
    | some evaluation =>
      -- The number of the request is taken, so it is not the one of the new evaluation.
      simp only [Spares, found, reduceCtorEq, false_and, and_false, iff_false]
      intro waits
      obtain ⟨sending, sends, own, _⟩ :=
        (pending_evaluation_iff (requestName request) found).mp waits
      have next := congrArg Prod.fst (numbers_of_sending? sends)
      have clash : request + 1 = sending.engine.session.count + 1 := toString_injective own
      simp only [numbers] at next
      omega
  | cleared =>
    have cleared : (engine.turned .cleared).state.pending = none := rfl
    simp [cleared, Spares]
  | stopped => exact alone (apart.unwatched engine)
  | loaded disk => exact alone (apart.keeps_loadSource disk engine)
  | visited disk location => exact alone (apart.keeps_visit disk location engine)
  | opened disk path =>
    have keeps : Keeps (·.state.pending) (openPath disk path) :=
      keeps_openPath apart.opened disk path
    exact alone (keeps engine)
  | shown disk text origin =>
    have keeps : Keeps (·.state.pending) (showDiagnostic disk text origin) :=
      keeps_showDiagnostic (fun _ _ => rfl) apart.opened (fun _ _ => rfl) disk text origin
    exact alone (keeps engine)

variable (numbered : engine.Numbered)
include numbered

/-- The requests stay numbered over some turns, and the request stays one that was sent. -/
theorem numbered_afterTurns (turns : List Turn) :
    (engine.afterTurns turns).Numbered ∧ request < (engine.afterTurns turns).session.count := by
  obtain ⟨still, more⟩ := (attained_iff_turns.mpr ⟨turns, rfl⟩).numbersOn numbered
  exact ⟨still, Nat.lt_of_lt_of_le known more⟩

/-- A request that was sent stays pending over some turns exactly when each of them leaves it
alone. -/
theorem pending_afterTurns_iff (turns : List Turn) :
    (engine.afterTurns turns).state.pending = some (requestName request) ↔
      engine.state.pending = some (requestName request) ∧
        Along (Spares (requestName request)) engine turns := by
  induction turns generalizing engine with
  | nil => exact (and_true _).symm ▸ Iff.rfl
  | cons turn rest ih =>
    obtain ⟨still, later⟩ := numbered_afterTurns known numbered [turn]
    rw [Along, ← and_assoc, ← pending_turned_iff known turn]
    exact ih later still

end Pending

/-! ## Interruptions -/

/-- An interruption sends one message, which is to stop the request at a place. -/
def Interrupts (world : World) (request : Nat) (engine : Engine) : Prop :=
  ∃ message, (engine.obey world .interrupt).messages = engine.messages ++ [message] ∧
    message.get "op" = .text "interrupt" ∧ message.get "interrupt-id" = requestId request

/-- The message of an interruption names the request. -/
theorem get_interruptMessage (engine : Engine) (id : String) :
    (engine.session.message "interrupt" (Session.interruptFields (.text id))).get "interrupt-id" =
      .text id :=
  congrArg (·.getD .null) (Table.get?_put
    (engine.session.stamps "interrupt" (Session.interruptFields (.text id))) "interrupt-id"
    (.text id))

/-- A request is interrupted exactly when it is pending. -/
theorem interrupts_iff (world : World) (request : Nat) (engine : Engine) :
    engine.Interrupts world request ↔
      engine.state.pending = some (requestName request) := by
  have sent := messages_obey world engine .interrupt
  have sends : engine.sending? world .interrupt = Sending.ofInterruption? engine := rfl
  have silent : ∀ {pending}, (engine.obey world .interrupt).messages = engine.messages ++ [] →
      engine.state.pending = pending → pending ≠ some (requestName request) →
      (engine.Interrupts world request ↔
        engine.state.pending = some (requestName request)) := by
    rintro _ nothing rfl apart
    refine iff_of_false ?_ apart
    rintro ⟨message, one, _⟩
    cases List.append_cancel_left (nothing.symm.trans one)
  rw [sends, Sending.ofInterruption?] at sent
  split at sent
  · rename_i pending
    exact silent sent pending (Option.some_ne_none _).symm
  · rename_i pending
    exact silent sent pending fun same => requestName_ne_empty request (Option.some.inj same).symm
  · rename_i id named pending
    have target := get_interruptMessage engine id
    have op := engine.session.get_message_op "interrupt"
      (show ∀ entry ∈ Session.interruptFields (.text id), entry.1 ≠ "op" by
        simp [Session.interruptFields])
    constructor
    · rintro ⟨other, one, _, own⟩
      cases List.append_cancel_left (sent.symm.trans one)
      rw [pending, requestName]
      exact congrArg some (Datum.text.inj (target.symm.trans own))
    · intro waits
      cases pending.symm.trans waits
      exact ⟨_, sent, op, target⟩

/-! ## Calls that leave the evaluation running -/

/-- The answers that an order brings, at once or late, carry the identities of their requests. -/
def BringsOwn (world : World) (engine : Engine) : Order → Prop
  | .answered id answers => ∀ index talk, engine.session.talkOf? id = some index →
      engine.session.talks[index]? = some talk → ∀ answer ∈ answers, answer.get "id" = talk.id
  | order => ∀ sending, engine.sending? world order = some sending →
      ∀ answer ∈ (world.transport sending.message).answers,
        answer.get "id" = sending.message.get "id"

/-- The turn leaves the request at a place running: it starts no evaluation, loses no message,
brings only answers that carry the identities of their requests, and ends the request by none of
them. -/
def KeepsRunning (request : Nat) (engine : Engine) : Turn → Prop
  | .order world order =>
    engine.evaluation? world order = none ∧
      (∀ sending, engine.sending? world order = some sending → sending.arrives world = true) ∧
      engine.BringsOwn world order ∧
      ∀ hearing, .heard hearing ∈ engine.happenings world order → hearing.request = request →
        hearing.event.isEnd = false
  | _ => True

/-- An end among what happens comes back with its identity. -/
theorem exists_of_mem_endedAmong {happened : List Happening} {id : Datum}
    (member : id ∈ endedAmong happened) :
    ∃ hearing statuses, .heard hearing ∈ happened ∧ hearing.event = .completed statuses id := by
  obtain ⟨happening, listed, ends⟩ := List.mem_filterMap.mp member
  cases happening with
  | sent sending => contradiction
  | heard hearing =>
    refine ⟨hearing, ?_⟩
    obtain ⟨request, purpose, event, disk, engine⟩ := hearing
    cases event with
    | completed statuses own =>
      cases purpose <;> first | contradiction | exact ⟨statuses, listed, by cases ends; rfl⟩
    | _ => cases purpose <;> contradiction

section Calls

variable {engine : Engine} (numbered : engine.Numbered)
include numbered

/-- An end that comes with late answers carries the number of its request when they do. -/
theorem id_of_late_end {disk : Disk} {index : Nat} {talk : Talk Purpose}
    (there : engine.session.talks[index]? = some talk) {answers : List Table}
    (own : ∀ answer ∈ answers, answer.get "id" = talk.id) {hearing : Hearing}
    (member : .heard hearing ∈ hearingsAll disk index engine answers)
    {statuses : List String} {id : Datum} (ends : hearing.event = .completed statuses id) :
    id = requestId hearing.request := by
  obtain ⟨request, carries⟩ := heard_of_mem_hearingsAll member
  obtain ⟨answer, listed, same⟩ := carries statuses id ends
  have known : engine.session.requests[index]? = some (talk.id, talk.topic) := by
    rw [Session.requests, List.getElem?_map, there]
    rfl
  rw [← same, own answer listed, (Session.id_at numbered known).1, request]

/-- An end that comes back while a message is sent carries the number of its request when the
answers carry that of the message. -/
theorem id_of_early_end {world : World} {order : Order} {sending : Sending}
    (sends : engine.sending? world order = some sending)
    (own : ∀ answer ∈ (world.transport sending.message).answers,
      answer.get "id" = sending.message.get "id")
    {hearing : Hearing} (member : .heard hearing ∈ sending.hearings world)
    {statuses : List String} {id : Datum} (ends : hearing.event = .completed statuses id) :
    id = requestId hearing.request := by
  rw [Sending.hearings] at member
  split at member
  · contradiction
  · obtain ⟨request, carries⟩ := heard_of_mem_hearingsAll member
    obtain ⟨answer, listed, same⟩ := carries statuses id ends
    rw [← same, own answer listed, numbered.id_of_message sends, request]

/-- An end carries the number of its request when the answers carry the identities of theirs. -/
theorem id_of_end {world : World} {order : Order} (own : engine.BringsOwn world order)
    {hearing : Hearing} (member : .heard hearing ∈ engine.happenings world order)
    {statuses : List String} {id : Datum} (ends : hearing.event = .completed statuses id) :
    id = requestId hearing.request := by
  rcases order.late_or_early with ⟨asked, answers, rfl⟩ | early
  · rw [happenings] at member
    cases found : engine.session.talkOf? asked with
    | none =>
      rw [found] at member
      contradiction
    | some index =>
      rw [found] at member
      have there := List.getElem?_eq_getElem (talkOf?_lt found)
      exact id_of_late_end numbered there (own index _ found there) member ends
  · have carry : ∀ sending, engine.sending? world order = some sending →
        ∀ answer ∈ (world.transport sending.message).answers,
          answer.get "id" = sending.message.get "id" := by
      cases order <;> first | exact own | exact absurd rfl (early _ _)
    rw [happenings_of_early world engine early] at member
    cases sends : engine.sending? world order with
    | none =>
      rw [sends] at member
      contradiction
    | some sending =>
      rw [sends] at member
      have heard := (List.mem_cons.mp member).resolve_left fun same => by cases same
      exact id_of_early_end numbered sends (carry sending sends) heard ends

/-- A turn that leaves the request running leaves it pending, unless it removes what was drawn. -/
theorem spares_iff_of_keepsRunning {request : Nat} {turn : Turn}
    (keeps : engine.KeepsRunning request turn) :
    engine.Spares (requestName request) turn ↔ turn ≠ .cleared := by
  cases turn with
  | order world order =>
    obtain ⟨idle, arrive, own, runs⟩ := keeps
    refine iff_of_true ⟨idle, arrive, fun id ended => ?_⟩ nofun
    obtain ⟨hearing, statuses, member, ends⟩ := exists_of_mem_endedAmong ended
    have apart : hearing.request ≠ request := by
      intro same
      have goes_on := runs hearing member same
      rw [ends] at goes_on
      contradiction
    rw [id_of_end numbered own member ends]
    refine decide_eq_false fun same => apart ?_
    exact (requestId_injective (congrArg Datum.text (Option.some.inj same))).symm
  | cleared => exact iff_of_false id fun apart => apart rfl
  | stopped | loaded | visited | opened | shown => exact iff_of_true trivial nofun

/-- Turns that leave the request running leave it pending, unless one of them removes what was
drawn. -/
theorem along_spares_iff {request : Nat} (known : request < engine.session.count)
    {turns : List Turn} (keeps : Along (KeepsRunning request) engine turns) :
    Along (Spares (requestName request)) engine turns ↔ .cleared ∉ turns := by
  induction turns generalizing engine with
  | nil => exact iff_of_true trivial List.not_mem_nil
  | cons turn rest ih =>
    obtain ⟨still, later⟩ := numbered_afterTurns known numbered [turn]
    have others : Along (Spares (requestName request)) (engine.turned turn) rest ↔
        .cleared ∉ rest := ih still later keeps.2
    rw [Along, spares_iff_of_keepsRunning numbered keeps.1, others, List.mem_cons, not_or, ne_comm]

end Calls

/-- The message of an evaluation is sent by an order that starts one. -/
theorem exists_evaluation {world : World} {engine : Engine} {order : Order} {sending : Sending}
    (sends : engine.sending? world order = some sending)
    (evaluates : sending.topic.isEvaluation = true) :
    ∃ evaluation, engine.evaluation? world order = some evaluation := by
  rcases sending?_cases sends with ⟨loaded, _, rfl⟩ | ⟨symbol, rfl⟩ | ⟨symbol, rfl⟩ | ⟨id, rfl⟩ |
    ⟨evaluation, _, found, _⟩
  · contradiction
  · contradiction
  · contradiction
  · contradiction
  · exact ⟨evaluation, found⟩

/-- In every run from a new engine an evaluation is sent, then some turns come, and then calls that
leave it running. An interruption behind them stops the evaluation exactly when its message has
arrived and was not ended at once, each of the turns has left it pending, and no call has removed
what was drawn. -/
theorem interrupts_running_iff {disk : Disk} {source : String} {settings : Settings}
    {first engine : Engine} (created : Engine.create disk source settings = .ok first)
    (attained : Attained first engine) {world : World} {order : Order} {sending : Sending}
    (sends : engine.sending? world order = some sending)
    (evaluates : sending.topic.isEvaluation = true) (turns : List Turn) {calls : List Turn}
    (keeps : Along (KeepsRunning sending.request) ((engine.obey world order).afterTurns turns)
      calls)
    (last : World) :
    Interrupts last sending.request
        (((engine.obey world order).afterTurns turns).afterTurns calls) ↔
      sending.arrives world = true ∧
        .text (requestName sending.request) ∉ endedAmong (engine.happenings world order) ∧
        Along (Spares (requestName sending.request)) (engine.obey world order) turns ∧
        .cleared ∉ calls := by
  have numbered := attained.numbered created
  have still := (attained.order world order).numbered created
  have known := request_lt_obey numbered sends
  obtain ⟨later, there⟩ := numbered_afterTurns known still turns
  obtain ⟨evaluation, found⟩ := exists_evaluation sends evaluates
  have own : requestName sending.request = sending.engine.session.nextId :=
    Datum.text.inj ((numbered.id_of_message sends).symm.trans (id_of_sending? sends))
  have started := pending_evaluation_iff (requestName sending.request) found
  simp only [sends, Option.some.injEq, exists_eq_left', own, true_and] at started
  rw [interrupts_iff, pending_afterTurns_iff there later, pending_afterTurns_iff known still,
    along_spares_iff later there keeps, own, started, and_assoc, and_assoc]

/-- At a far end that takes all messages and answers none, an order that starts no evaluation leaves
every request running. -/
theorem keepsRunning_soleWorld (text : String) (request : Nat) {engine : Engine} {order : Order}
    (idle : engine.evaluation? (soleWorld text) order = none)
    (early : ∀ id answers, order ≠ .answered id answers) :
    engine.KeepsRunning request (.order (soleWorld text) order) := by
  refine ⟨idle, fun _ _ => rfl, ?_, fun hearing member => ?_⟩
  · cases order <;>
      first
      | exact fun _ _ _ member => absurd member List.not_mem_nil
      | exact absurd rfl (early _ _)
  · rw [happenings_of_early _ engine early] at member
    split at member
    · contradiction
    · have heard := (List.mem_cons.mp member).resolve_left fun same => by cases same
      exact absurd heard List.not_mem_nil

/-- An evaluation can be interrupted after documentation was asked for and it was interrupted
before. -/
theorem interrupts_running_iff_asked :
    ∃ first sending, Engine.create (soleWorld "(a)").disk "/a.clj" plainSettings = .ok first ∧
      let world := soleWorld "(a)"
      let started := first.obey world .start
      let running := (started.obey world (.code "(a)" none)).afterTurns []
      let calls := [Turn.order world (.documentation "map"), .order world .interrupt]
      Attained first started ∧ started.sending? world (.code "(a)" none) = some sending ∧
        sending.topic.isEvaluation = true ∧ Along (KeepsRunning sending.request) running calls ∧
        Interrupts world sending.request (running.afterTurns calls) := by
  obtain ⟨first, created, run⟩ := @exists_created _ (soleWorld "(a)").disk "/a.clj" plainSettings
    (fun first =>
      let started := first.obey (soleWorld "(a)") .start
      ((started.sending? (soleWorld "(a)") (.code "(a)" none)).map (·.topic.isEvaluation),
        (endedAmong (started.happenings (soleWorld "(a)") (.code "(a)" none))).length))
    (some true, 0) (by decide +kernel)
  obtain ⟨known, quiet⟩ := Prod.mk.inj run
  obtain ⟨sending, sends, evaluates⟩ := Option.map_eq_some_iff.mp known
  have attained : Attained first (first.obey (soleWorld "(a)") .start) := .order _ .start .start
  have keeps : Along (KeepsRunning sending.request)
      (((first.obey (soleWorld "(a)") .start).obey (soleWorld "(a)") (.code "(a)" none)).afterTurns
        [])
      [.order (soleWorld "(a)") (.documentation "map"), .order (soleWorld "(a)") .interrupt] :=
    ⟨keepsRunning_soleWorld "(a)" _ rfl nofun, keepsRunning_soleWorld "(a)" _ rfl nofun, trivial⟩
  refine ⟨first, sending, created, attained, sends, evaluates, keeps, ?_⟩
  refine (interrupts_running_iff created attained sends evaluates [] keeps _).mpr
    ⟨rfl, ?_, trivial, by simp⟩
  rw [List.length_eq_zero_iff.mp quiet]
  exact List.not_mem_nil

/-- An evaluation cannot be interrupted after what was drawn is removed: nothing is sent, and the
status tells that there is nothing to interrupt. -/
theorem clearing_loses_running :
    ∃ first sending, Engine.create (soleWorld "(a)").disk "/a.clj" plainSettings = .ok first ∧
      let world := soleWorld "(a)"
      let started := first.obey world .start
      let running := started.obey world (.code "(a)" none)
      let cleared := running.afterTurns [.cleared]
      Attained first started ∧ started.sending? world (.code "(a)" none) = some sending ∧
        sending.topic.isEvaluation = true ∧
        Along (KeepsRunning sending.request) running [.cleared] ∧
        Interrupts world sending.request running ∧ ¬Interrupts world sending.request cleared ∧
        (cleared.obey world .interrupt).state.status = "Nothing to interrupt" := by
  obtain ⟨first, created, run⟩ := @exists_created _ (soleWorld "(a)").disk "/a.clj" plainSettings
    (fun first =>
      let started := first.obey (soleWorld "(a)") .start
      let running := started.obey (soleWorld "(a)") (.code "(a)" none)
      ((started.sending? (soleWorld "(a)") (.code "(a)" none)).map fun sending =>
          (sending.topic.isEvaluation, requestName sending.request),
        running.state.pending, (running.afterTurns [.cleared]).state.pending,
        ((running.afterTurns [.cleared]).obey (soleWorld "(a)") .interrupt).state.status))
    (some (true, "2"), some "2", none, "Nothing to interrupt") (by decide +kernel)
  obtain ⟨known, more⟩ := Prod.mk.inj run
  obtain ⟨pending, more⟩ := Prod.mk.inj more
  obtain ⟨lost, told⟩ := Prod.mk.inj more
  obtain ⟨sending, sends, same⟩ := Option.map_eq_some_iff.mp known
  obtain ⟨evaluates, name⟩ := Prod.mk.inj same
  refine ⟨first, sending, created, .order _ .start .start, sends, evaluates, ⟨trivial, trivial⟩,
    ?_, ?_, told⟩
  · rw [interrupts_iff, name]
    exact pending
  · rw [interrupts_iff, lost]
    nofun

end Engine
end EvalDesk
