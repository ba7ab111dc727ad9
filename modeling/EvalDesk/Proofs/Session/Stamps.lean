import EvalDesk.Proofs.Session.Runs

/-!
# Stamps of a run

The calls of a run are numbered one after another, refused ones included. A message is stamped with
what the session knows when the call is made: its identity and, for an evaluation, its namespace.
What the session knows is what the answers so far have told it, whichever requests they came to and
whatever became of the listeners that heard them.
-/
namespace EvalDesk
namespace Recorder

variable {ns identity : Datum}

/-! ## What is stamped -/

namespace Call

/-- The call is not one for an identity. -/
def IsWork (call : Call) : Prop := call.work? ≠ none

/-- The fields of the call, if they are given freely, name no operation, number or identity. -/
def IsPlain : Call → Prop
  | .request _ fields _ =>
    ∀ entry ∈ fields, entry.1 ≠ "op" ∧ entry.1 ≠ "id" ∧ entry.1 ≠ "session"
  | _ => True

/-- The call is an evaluation that leaves the namespace to the session. -/
def LeavesNs (call : Call) : Prop :=
  ∃ fields listener, call.work? = some ("eval", fields, listener) ∧ fields.has "ns" = false

variable {call : Call} {op : String} {fields : Table} {listener : Listener}
  {session : Session Listener}

/-- The fields of a plain call name no operation, number or identity. -/
theorem IsPlain.apart (plain : call.IsPlain) (works : call.work? = some (op, fields, listener)) :
    ∀ entry ∈ fields, entry.1 ≠ "op" ∧ entry.1 ≠ "id" ∧ entry.1 ≠ "session" := by
  cases call with
  | identity _ => contradiction
  | request _ _ _ =>
    cases works
    exact plain
  | evaluate _ _ _ _ _ | load _ _ _ | describe _ | interrupt _ _ =>
    cases works
    simp [Session.evalFields, Session.loadFields, Session.interruptFields]

/-- The message of a plain call has the next number. -/
theorem IsPlain.get?_id (plain : call.IsPlain) :
    (call.message session).get? "id" = some (.text session.nextId) := by
  rw [message]
  cases works : call.work? with
  | none => rfl
  | some work =>
    exact session.get?_message _ fun entry member => (plain.apart works entry member).2.1

/-- The message of a plain call that is not one for an identity has the identity of the session, if
there is one. -/
theorem IsPlain.get?_session (plain : call.IsPlain) (works : call.IsWork) :
    (call.message session).get? "session" =
      if session.identity.isPresent then some session.identity else none := by
  obtain ⟨⟨op, fields, listener⟩, works⟩ := Option.ne_none_iff_exists'.mp works
  rw [message, works]
  exact session.get?_session_message op fun entry member => (plain.apart works entry member).2.2

/-- The message of an evaluation that leaves the namespace to the session has that of the
session. -/
theorem LeavesNs.get?_ns (leaves : call.LeavesNs) :
    (call.message session).get? "ns" = some session.ns := by
  obtain ⟨fields, listener, works, unnamed⟩ := leaves
  rw [message, works]
  exact session.get?_ns_message (Table.has_eq_false_iff.mp unnamed)

end Call

/-! ## What is known -/

/-- The identity that a moment tells, if it is an answer to a request for one. -/
def Moment.toldIdentity? : Moment → Option Datum
  | .delivered ⟨_, .identity _, answer, _⟩ => Session.toldIdentity? answer
  | _ => none

/-- The namespace that a moment tells, if it is an answer to another request. -/
def Moment.toldNs? : Moment → Option Datum
  | .delivered ⟨_, .work _, answer, _⟩ => Session.toldNs? answer
  | _ => none

/-- The identity that was told last, or the one at the start. -/
def latestIdentity (identity : Datum) (moments : List Moment) : Datum :=
  (moments.filterMap Moment.toldIdentity?).getLastD identity

/-- The namespace that was told last, or the one at the start. -/
def latestNs (ns : Datum) (moments : List Moment) : Datum :=
  (moments.filterMap Moment.toldNs?).getLastD ns

/-- The last of some values with another one behind them, if there is another one. -/
theorem getLastD_filterMap_concat {Value Told : Type} (told? : Value → Option Told)
    (values : List Value) (value : Value) (first : Told) :
    ((values ++ [value]).filterMap told?).getLastD first =
      (told? value).getD ((values.filterMap told?).getLastD first) := by
  rw [List.filterMap_append]
  cases told : told? value with
  | none => simp [told]
  | some last => simp [told]

/-- What the session knows is what was told last. -/
structure Informed (ns identity : Datum) (moments : List Moment)
    (session : Session Listener) : Prop where
  /-- The namespace is the last one. -/
  ns : session.ns = latestNs ns moments
  /-- The identity is the last one. -/
  identity : session.identity = latestIdentity identity moments

/-- A moment keeps the session informed. -/
theorem Step.informed {before : List Moment} {moment : Moment} {session after : Session Listener}
    (step : Step session moment after) (informed : Informed ns identity before session) :
    Informed ns identity (before ++ [moment]) after := by
  suffices after.ns = (moment.toldNs?).getD session.ns ∧
      after.identity = (moment.toldIdentity?).getD session.identity by
    constructor
    · rw [this.1, informed.ns, latestNs, latestNs, getLastD_filterMap_concat]
    · rw [this.2, informed.identity, latestIdentity, latestIdentity, getLastD_filterMap_concat]
  cases step with
  | asked _ => exact ⟨rfl, rfl⟩
  | delivered found taken =>
    rcases Session.receive_taken found taken with
      ⟨wanted, topic, rfl, _⟩ | ⟨purpose, read, topic, _, rfl, _⟩
    · rw [topic]
      exact ⟨rfl, rfl⟩
    · rw [topic]
      exact ⟨rfl, rfl⟩

/-- The course of a new session keeps it informed. -/
theorem Course.informed {moments : List Moment} {session : Session Listener}
    (course : Course (.start ns identity) moments session) :
    Informed ns identity moments session :=
  @Course.induction_on _ _ [] _ _ course Step.informed ⟨rfl, rfl⟩

/-! ## Numbers and stamps -/

/-- The first numbers, as they are written. -/
def numbers (count : Nat) : List Datum :=
  (List.range count).map fun index => .text (toString (index + 1))

/-- Numbers are written differently. -/
theorem nodup_numbers (count : Nat) : (numbers count).Nodup := by
  refine List.Pairwise.map _ (fun first second apart same => apart ?_) List.nodup_range
  exact Nat.succ.inj (toString_injective (Datum.text.inj same))

/-- The messages of some moments carry the first numbers, if the calls are plain. -/
theorem Course.numbers {moments : List Moment} {session : Session Listener}
    (course : Course (.start ns identity) moments session)
    (plain : ∀ call ∈ calls moments, call.IsPlain) :
    (moments.filterMap Moment.message?).map (·.get "id") = numbers session.count := by
  refine @Course.induction_on _ _ [] _ (fun moments session =>
    (∀ call ∈ calls moments, call.IsPlain) →
      (moments.filterMap Moment.message?).map (·.get "id") = Recorder.numbers session.count)
    course ?_ (fun _ => rfl) plain
  intro before moment session after step same plain
  rw [calls, List.filterMap_append] at plain
  have earlier := same fun call member => plain call (List.mem_append_left _ member)
  rw [List.filterMap_append, List.map_append, earlier]
  cases step with
  | @asked call result _ =>
    have named : (call.message session).get? "id" = some (.text session.nextId) :=
      (plain call (List.mem_append_right _ (.head _))).get?_id
    simp [Moment.message?, Moment.asking?, Recorder.numbers, Session.record, List.range_succ,
      Table.get, named, Session.nextId]
  | delivered found taken =>
    have counts : after.count = session.count := by
      rcases Session.receive_taken found taken with ⟨_, _, rfl, _⟩ | ⟨_, _, _, _, rfl, _⟩ <;> rfl
    rw [counts]
    exact List.append_nil _

/-- The messages that a run has sent, refused ones included, are those of its calls. If the calls
are plain, the messages carry the numbers from one on, so none is used twice. A call has the number
behind those of the calls before it; its message carries the identity that was told last before it,
if one is present and the call is not itself for an identity; and if the call is an evaluation that
leaves the namespace to the session, the message carries the namespace that was told last. -/
theorem calls_numbered_and_stamped {recorder : Recorder} {moments : List Moment}
    (run : Run ns identity recorder moments) (plain : ∀ call ∈ calls moments, call.IsPlain) :
    recorder.sent = moments.filterMap Moment.message? ∧
      recorder.sent.map (·.get "id") = numbers (calls moments).length ∧
      (recorder.sent.map (·.get "id")).Nodup ∧
      ∀ before asking after, moments = before ++ .asked asking :: after →
        let number := toString ((calls before).length + 1)
        let known := latestIdentity identity before
        asking.message.get? "id" = some (.text number) ∧
          (∀ id, asking.result = .ok id → id = number) ∧
          (asking.call.IsWork →
            asking.message.get? "session" = if known.isPresent then some known else none) ∧
          (asking.call.LeavesNs → asking.message.get? "ns" = some (latestNs ns before)) := by
  obtain ⟨course, sent, _⟩ := run.follows
  have same : recorder.sent = moments.filterMap Moment.message? := sent
  have numbered := course.numbers plain
  rw [course.numbered.count, ← same] at numbered
  refine ⟨same, numbered, numbered ▸ nodup_numbers _, ?_⟩
  rintro before asking after rfl number known
  obtain ⟨session, course, later⟩ := course.exists_middle
  have count := course.numbered.count
  obtain ⟨lastNs, lastIdentity⟩ := course.informed
  have next : session.nextId = number := by rw [Session.nextId, count]
  cases later with
  | cons step _ =>
    cases step with
    | @asked call result named =>
      have plain : call.IsPlain := plain call (by simp [calls, Moment.asking?])
      refine ⟨?_, ?_, ?_, ?_⟩
      · exact plain.get?_id.trans (congrArg (some ∘ Datum.text) next)
      · exact fun id made => (named id made).trans next
      · intro works
        exact (plain.get?_session works).trans (by rw [lastIdentity])
      · intro leaves
        exact leaves.get?_ns.trans (congrArg some lastNs)

/-- A session asks for an identity; code tells a namespace, and the listener fails at its value; a
call is refused. -/
def beforeCode : List Turn :=
  [.call (answering [[("new-session", .text "s-1")]]) (.identity false),
    .call (answering [[("value", .text "nil"), ("ns", .text "b")]])
      (.evaluate (.text "(in-ns 'b)") .null .null .null (.recorder (some closed))),
    .call refusing (.describe .nobody)]

/-- The code that comes then has the fourth number, the identity and the namespace. -/
theorem calls_numbered_and_stamped_refused :
    let run := play (.start (.text "user") .null, [])
      (beforeCode ++ [.call (answering []) (.evaluate (.text "1") .null .null .null .nobody)])
    Run (.text "user") .null run.1 run.2 ∧ (∀ call ∈ calls run.2, call.IsPlain) ∧
      ∃ before asking, run.2 = before ++ [.asked asking] ∧
        asking.message.get? "id" = some (.text "4") ∧
        asking.message.get? "session" = some (.text "s-1") ∧
        asking.message.get? "ns" = some (.text "b") := by
  intro run
  have plain : ∀ call ∈ calls run.2, call.IsPlain := by
    have same : calls run.2 = [.identity false, .evaluate (.text "(in-ns 'b)") .null .null .null
        (.recorder (some closed)), .describe .nobody,
        .evaluate (.text "1") .null .null .null .nobody] := rfl
    rw [same]
    simp [Call.IsPlain]
  have whole : Run (.text "user") .null run.1 run.2 := run_play _ _ _
  obtain ⟨id, _, session, ns⟩ := (calls_numbered_and_stamped whole plain).2.2.2 _ _ [] rfl
  exact ⟨whole, plain, _, _, rfl, id, session (fun absent => nomatch absent), ns ⟨_, _, rfl, rfl⟩⟩

end Recorder
end EvalDesk
