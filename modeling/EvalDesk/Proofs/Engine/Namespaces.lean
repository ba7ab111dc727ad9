import EvalDesk.Proofs.Engine.Chronicle
import EvalDesk.Proofs.Engine.Timing

/-!
# The namespace that is shown and the one code is evaluated in

The namespace is known twice: the session follows every value that comes back with one, and the
state shows it. What comes back for an evaluation is shown at once, and at the end of every request
that is heard the namespace of the session is shown. A value of another request, and one that the
transcript does not take, leave the state behind. The main result says exactly when code is sent to
be evaluated in the namespace that is shown.
-/
namespace EvalDesk

/-- The event brings the namespace that is shown up to that of the session: it is a value of an
evaluation with a namespace, which the transcript takes, or the end of a request that is heard. -/
def Hearing.showsNs (hearing : Hearing) : Bool :=
  match hearing.purpose, hearing.event with
  | .unheard, _ => false
  | .evaluation _, .value result ns _ =>
    ns.isPresent && (hearing.engine.state.append .value result).2.toBool
  | _, .completed _ id => hearing.engine.remembers id
  | _, _ => false

/-- The namespace of the session that is not shown yet, if there is one. -/
def unshownNs (unshown : Option Datum) : Happening → Option Datum
  | .sent _ => unshown
  | .heard hearing =>
    if hearing.showsNs then none
    else
      match hearing.event with
      | .value _ ns _ => if ns.isPresent then some ns else unshown
      | _ => unshown

namespace Engine

/-- The namespace that is shown. -/
def shownNs (engine : Engine) : Datum := engine.state.ns

/-- Sources do not change the namespace. -/
theorem sourceless_shownNs : Sourceless shownNs := sourceless_news.part News.ns

/-- At the end of a request the namespace of the session is shown, if the end can be taken. -/
theorem shownNs_complete (engine : Engine) (statuses : List String) (id : Datum) :
    (engine.perform (complete statuses id)).1.shownNs =
      if engine.remembers id then engine.session.ns else engine.shownNs := by
  rcases complete_cases engine statuses id with ⟨can, _, _, done⟩ | ⟨cannot, _, failed⟩
  · rw [done, can]
    rfl
  · rw [failed, cannot]
    rfl

/-- A value of an evaluation shows its namespace, if it has one and the transcript takes it. -/
theorem shownNs_value (disk : Disk) (origin : Origin) (result ns id : Datum) (engine : Engine) :
    (engine.perform (evaluationEvent disk origin (.value result ns id))).1.shownNs =
      if ns.isPresent && (engine.state.append .value result).2.toBool then ns
      else engine.shownNs := by
  let valued := engine.withState fun state => { state with lastValue := result }
  have taken : (valued.state.append .value result).2 = (engine.state.append .value result).2 := rfl
  simp only [evaluationEvent, perform_bind, perform_modify, perform_append]
  rw [← taken]
  cases added : (valued.state.append .value result).2 with
  | error fault =>
    rw [Except.toBool, Bool.and_false]
    rfl
  | ok =>
    rw [Except.toBool, Bool.and_true]
    dsimp only
    split <;> rfl

/-- Which namespace is shown after an event that the session has followed. -/
theorem shownNs_after {hearing : Hearing} {ns : Datum}
    (followed : hearing.engine.session.ns = Session.nsAfter ns hearing.event) :
    hearing.after.shownNs =
      if hearing.showsNs then hearing.engine.session.ns else hearing.engine.shownNs := by
  obtain ⟨index, purpose, event, disk, engine⟩ := hearing
  refine (congrArg News.ns (news_after _)).trans ?_
  show (engine.perform (purposeEvent disk purpose event)).1.shownNs = _
  have kept : ∀ {action : Action Unit}, Keeps shownNs action →
      (engine.perform action).1.shownNs = engine.shownNs := fun keeps => keeps engine
  have ended : ∀ {statuses id} {next : Unit → Action Unit},
      (∀ result, Keeps shownNs (next result)) →
      (engine.perform (complete statuses id >>= next)).1.shownNs =
        if engine.remembers id then engine.session.ns else engine.shownNs :=
    fun keeps => (view_bind keeps engine).trans (shownNs_complete engine _ _)
  cases purpose with
  | unheard => rfl
  | evaluation origin =>
    cases event with
    | value result next id =>
      refine (shownNs_value disk origin result next id engine).trans ?_
      by_cases told : next.isPresent = true
      · have moved : engine.session.ns = next := followed.trans (if_pos told)
        rw [moved]
        rfl
      · simp only [Hearing.showsNs, told, Bool.false_and]
        rfl
    | output text id => rfl
    | errorOutput text id =>
      exact kept (keeps_bind (fun _ => rfl) fun _ => keeps_showDiagnostic (fun _ _ => rfl)
        (fun _ _ => rfl) (fun _ _ => rfl) disk text origin)
    | completed statuses id => exact shownNs_complete engine statuses id
  | documentation symbol =>
    cases event with
    | value result next id => rfl
    | output text id => exact kept (keeps_addDocumentation (fun _ _ => rfl) text)
    | errorOutput text id => exact kept (keeps_addDocumentation (fun _ _ => rfl) text)
    | completed statuses id =>
      refine ended fun _ => keeps_modify fun now => ?_
      simp only [withState, shownNs]
      split <;> rfl
  | definition symbol =>
    cases event with
    | value result next id =>
      exact kept (keeps_bind (keeps_lift _) fun _ => keeps_modify fun _ => rfl)
    | output text id => rfl
    | errorOutput text id => rfl
    | completed statuses id =>
      refine ended fun _ => keeps_bind keeps_get fun now => ?_
      split
      · exact keeps_modify fun _ => rfl
      · exact sourceless_shownNs.keeps_showDefinition (fun _ _ _ => rfl) disk symbol _

/-- The session is in the namespace that is noted as not shown, or in the one that is shown. -/
theorem accounts_unshownNs :
    Accounts (fun news unshown => news.sessionNs = unshown.getD news.ns) unshownNs where
  sent := by
    intro before sending unshown prepared agree
    obtain ⟨_, _, cleared⟩ := before.exists_cleared sending.topic
    have same := prepared.trans cleared
    have session : sending.engine.session.ns = before.sessionNs := congrArg News.sessionNs same
    have shown : sending.engine.state.ns = before.ns := congrArg News.ns same
    rw [news_sent]
    exact session.trans (agree.trans (by rw [← shown]; rfl))
  heard := by
    intro before hearing unshown followed agree
    have session : hearing.engine.session.ns = Session.nsAfter before.sessionNs hearing.event :=
      congrArg News.sessionNs followed
    have shown : hearing.engine.shownNs = before.ns := congrArg News.ns followed
    have after : hearing.after.news.ns = _ := shownNs_after session
    have kept : hearing.after.news.sessionNs = hearing.engine.session.ns :=
      congrArg Session.ns (session_after hearing)
    rw [kept, after]
    simp only [unshownNs]
    by_cases shows : hearing.showsNs = true
    · rw [if_pos shows, if_pos shows]
      rfl
    · rw [if_neg shows, if_neg shows, session, shown]
      -- Only a value with a namespace moves the session, and it is not shown here.
      cases hearing.event with
      | value result ns id =>
        dsimp only [Session.nsAfter]
        split
        · rfl
        · exact agree
      | output | errorOutput | completed => exact agree

end Engine

/-! ## Messages that ask for an evaluation -/

namespace Engine

/-- A message that an order sends to be evaluated carries the namespace of the session. -/
theorem get?_ns_of_sending? {world : World} {engine : Engine} {order : Order} {sending : Sending}
    (sends : engine.sending? world order = some sending)
    (evaluates : sending.message.get? "op" = some (.text "eval")) :
    sending.message.get? "ns" = some sending.engine.session.ns := by
  have asks : ∀ code : String, ∀ entry ∈ Session.evalFields (.text code) .null .null .null,
      entry.1 ≠ "ns" := by simp [Session.evalFields]
  rcases sending?_cases sends with ⟨loaded, _, rfl⟩ | ⟨symbol, rfl⟩ | ⟨symbol, rfl⟩ | ⟨id, rfl⟩ |
    ⟨evaluation, begun, found, _, rfl⟩
  · have clones := Datum.text.inj (Option.some.inj evaluates)
    exact absurd clones (by decide : "clone" ≠ "eval")
  · exact Session.get?_ns_message _ (asks _)
  · exact Session.get?_ns_message _ (asks _)
  · have stops := Session.op_of_message (by simp [Session.interruptFields]) evaluates
    exact absurd stops (by decide : "interrupt" ≠ "eval")
  · obtain ⟨prepared, _, ⟨code, origin, rfl⟩ | rfl⟩ := undisturbed_news.evaluation?_cases found
    · exact Session.get?_ns_message _ (asks code)
    · have loads := Session.op_of_message (by simp [Evaluation.ofSource, Session.loadFields])
        evaluates
      exact absurd loads (by decide : "load-file" ≠ "eval")

/-- Every message of a run that is to be evaluated carries the namespace of the session. -/
theorem Chronicled.get?_ns {first engine : Engine} {happened : List Happening} {sending : Sending}
    (chronicled : Chronicled first engine happened) (member : .sent sending ∈ happened)
    (evaluates : sending.message.get? "op" = some (.text "eval")) :
    sending.message.get? "ns" = some sending.engine.session.ns := by
  induction chronicled with
  | start => contradiction
  | order world order _ ih =>
    rcases List.mem_append.mp member with earlier | now
    · exact ih earlier
    · exact get?_ns_of_sending? (sending?_of_mem now) evaluates
  | cleared _ ih | stopped _ ih | loaded _ _ ih | visited _ _ _ ih | opened _ _ _ ih
  | shown _ _ _ _ ih => exact ih member

/-- In a run of a new engine, every message that was sent to be evaluated carries the namespace that
the session was in, which is the latest one that came back and was not shown, if there is one, and
else the one that is shown. So it carries the one that is shown at this moment if and only if the
latest one that came back was shown, or is the same. -/
theorem evaluated_in_shown_namespace_iff {disk : Disk} {source : String} {settings : Settings}
    {first engine : Engine} {happened : List Happening}
    (created : Engine.create disk source settings = .ok first)
    (chronicled : Chronicled first engine happened) :
    engine.messages = happened.filterMap Happening.message? ∧
      ∀ earlier sending later, happened = earlier ++ .sent sending :: later →
        sending.message.get? "op" = some (.text "eval") →
        let unshown := earlier.foldl unshownNs none
        let shown := sending.engine.state.ns
        sending.message.get? "ns" = some (unshown.getD shown) ∧
          (sending.message.get? "ns" = some shown ↔ ∀ ns ∈ unshown, ns = shown) := by
  have unfolds := chronicled.unfolds
  constructor
  · rw [unfolds.messages]
    obtain ⟨projectRoot, rfl⟩ := exists_of_create created
    rfl
  · rintro earlier sending later rfl evaluates unshown shown
    obtain ⟨middle, before, behind⟩ := unfolds.exists_middle
    have fresh : first.news.sessionNs = (none : Option Datum).getD first.news.ns := by
      obtain ⟨projectRoot, rfl⟩ := exists_of_create created
      rfl
    have agree := accounts_unshownNs.foldl before fresh
    have carried := chronicled.get?_ns (List.mem_append_right earlier (.head _)) evaluates
    cases behind with
    | sent _ prepared _ =>
      obtain ⟨_, _, cleared⟩ := middle.news.exists_cleared sending.topic
      have same := prepared.trans cleared
      have session : sending.engine.session.ns = middle.session.ns := congrArg News.sessionNs same
      have known : shown = middle.state.ns := congrArg News.ns same
      have sent : sending.message.get? "ns" = some (unshown.getD shown) := by
        rw [carried, session, known]
        exact congrArg some agree
      refine ⟨sent, ?_⟩
      rw [sent, Option.some.injEq]
      cases unshown with
      | none => simp
      | some ns => simp

/-- What was sent at the end of a list, if something was. -/
def lastSending? (happened : List Happening) : Option Sending :=
  happened.getLast?.bind fun happening =>
    match happening with
    | .sent sending => some sending
    | .heard _ => none

/-- What was sent at the end stands behind all else. -/
theorem eq_of_lastSending? {happened : List Happening} {sending : Sending}
    (last : lastSending? happened = some sending) :
    happened = happened.dropLast ++ [.sent sending] := by
  obtain ⟨happening, found, same⟩ := Option.bind_eq_some_iff.mp last
  cases happening with
  | heard hearing => contradiction
  | sent other =>
    cases same
    obtain ⟨before, rfl⟩ := List.getLast?_eq_some_iff.mp found
    rw [List.dropLast_concat]

/-- An answer to a request with a value and the namespace from then on. -/
def nsAnswer (id value ns : String) : Table :=
  [("id", .text id), ("value", .text value), ("ns", .text ns)]

/-- The namespace is changed, and when this has come back code is evaluated. -/
def changedNs : List Order :=
  [.start, .inNamespace "b",
    .answered (.text "2") [nsAnswer "2" "nil" "b", doneAnswer (.text "2")], .code "1" none]

/-- Code that is evaluated behind a change of the namespace is evaluated in the one that is
shown. -/
theorem evaluated_in_shown_namespace_iff_changed :
    ∃ first, Engine.create (soleWorld "(a)").disk "/a.clj" plainSettings = .ok first ∧
      let run := chronicle (soleWorld "(a)") first changedNs
      Chronicled first run.1 run.2 ∧ ∃ sending, lastSending? run.2 = some sending ∧
        sending.message.get? "op" = some (.text "eval") ∧
        sending.engine.state.ns = .text "b" ∧
        sending.message.get? "ns" = some sending.engine.state.ns := by
  obtain ⟨first, created, known⟩ := @exists_created _ (soleWorld "(a)").disk "/a.clj"
    plainSettings (fun first =>
      let run := chronicle (soleWorld "(a)") first changedNs
      ((lastSending? run.2).map fun sending =>
        ((sending.message.get? "op").bind Datum.text?, sending.engine.state.ns.text?),
        (run.2.dropLast.foldl unshownNs none).isNone)) (some (some "eval", some "b"), true)
    (by decide +kernel)
  have chronicled := chronicled_chronicle (soleWorld "(a)") first changedNs
  obtain ⟨sent, none_unshown⟩ := Prod.mk.inj known
  obtain ⟨sending, last, same⟩ := Option.map_eq_some_iff.mp sent
  obtain ⟨evaluates, shown⟩ := Prod.mk.inj same
  obtain ⟨op, found, named⟩ := Option.bind_eq_some_iff.mp evaluates
  rw [Datum.eq_text_of_text? named] at found
  refine ⟨first, created, chronicled, sending, last, found, Datum.eq_text_of_text? shown, ?_⟩
  refine ((evaluated_in_shown_namespace_iff created chronicled).2 _ sending []
    (eq_of_lastSending? last) found).2.mpr ?_
  rw [Option.isNone_iff_eq_none.mp none_unshown]
  exact fun ns member => (nomatch member)

/-- Documentation is asked for before the change of the namespace has come back; so its value, which
comes back after it, is still in the old namespace. -/
def overtakenNs : List Order :=
  [.start, .inNamespace "b", .documentation "x",
    .answered (.text "2") [nsAnswer "2" "nil" "b", doneAnswer (.text "2")],
    .answered (.text "3") [nsAnswer "3" "nil" "user"], .code "1" none]

/-- Code that is evaluated then is evaluated in the old namespace, while the new one is shown. -/
theorem evaluated_in_overtaken_namespace :
    ∃ first, Engine.create (soleWorld "(a)").disk "/a.clj" plainSettings = .ok first ∧
      let run := chronicle (soleWorld "(a)") first overtakenNs
      Chronicled first run.1 run.2 ∧ ∃ sending, lastSending? run.2 = some sending ∧
        sending.message.get? "op" = some (.text "eval") ∧
        sending.message.get? "ns" = some (.text "user") ∧
        sending.engine.state.ns = .text "b" ∧
        sending.message.get? "ns" ≠ some sending.engine.state.ns := by
  obtain ⟨first, created, known⟩ := @exists_created _ (soleWorld "(a)").disk "/a.clj"
    plainSettings (fun first =>
      let run := chronicle (soleWorld "(a)") first overtakenNs
      (lastSending? run.2).map fun sending =>
        ((sending.message.get? "op").bind Datum.text?, (sending.message.get? "ns").bind Datum.text?,
          sending.engine.state.ns.text?)) (some (some "eval", some "user", some "b"))
    (by decide +kernel)
  obtain ⟨sending, last, same⟩ := Option.map_eq_some_iff.mp known
  obtain ⟨evaluates, same⟩ := Prod.mk.inj same
  obtain ⟨carries, shown⟩ := Prod.mk.inj same
  obtain ⟨op, found, named⟩ := Option.bind_eq_some_iff.mp evaluates
  obtain ⟨ns, carried, user⟩ := Option.bind_eq_some_iff.mp carries
  rw [Datum.eq_text_of_text? named] at found
  rw [Datum.eq_text_of_text? user] at carried
  have known := Datum.eq_text_of_text? shown
  refine ⟨first, created, chronicled_chronicle _ _ _, sending, last, found, carried, known, ?_⟩
  rw [carried, known]
  exact fun same => absurd (Datum.text.inj (Option.some.inj same)) (by decide)

end Engine
end EvalDesk
