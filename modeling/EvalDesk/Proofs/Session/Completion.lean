import EvalDesk.Proofs.Session.Runs

/-!
# The end of a request

An answer that says a request is done makes an event with the statuses of the request. A server may
split these over as many answers as it likes, may repeat them, and may answer other requests in
between: the event tells the statuses of all answers to the request so far, each where it appears
first, whatever the answers were that brought them.
-/
namespace EvalDesk

namespace Session

/-! ## Statuses in order of appearance -/

/-- The statuses among some words, each where it appears first; the one that says a request is done
is left out. -/
def firstStatuses (words : List String) : List String :=
  (words.filter (· ≠ Event.doneStatus)).eraseDups

/-- A word behind others is a new status unless it is known or says that the request is done. -/
theorem firstStatuses_concat (words : List String) (word : String) :
    firstStatuses (words ++ [word]) =
      if word = Event.doneStatus ∨ word ∈ words then firstStatuses words
      else firstStatuses words ++ [word] := by
  rw [firstStatuses, firstStatuses, List.filter_append]
  by_cases done : word = Event.doneStatus
  · simp [done]
  · by_cases known : word ∈ words
    · simp [done, known, List.eraseDups_append, List.removeAll]
    · simp [done, known, List.eraseDups_append, List.removeAll, List.eraseDups_cons]

/-- The first statuses of some words are among them. -/
theorem mem_firstStatuses {words : List String} {status : String} :
    status ∈ firstStatuses words ↔ status ∈ words ∧ status ≠ Event.doneStatus := by
  simp [firstStatuses]

/-- Gathering goes on with the first statuses. -/
theorem gather_firstStatuses (earlier words : List String) :
    gather (firstStatuses earlier) words = firstStatuses (earlier ++ words) := by
  induction words generalizing earlier with
  | nil => exact congrArg firstStatuses (List.append_nil earlier).symm
  | cons word rest ih =>
    have same : gather (firstStatuses earlier) (word :: rest) =
        gather (firstStatuses (earlier ++ [word])) rest := by
      rw [firstStatuses_concat, gather, List.foldl_cons]
      by_cases done : word = Event.doneStatus
      · simp [done, gather]
      · simp [done, mem_firstStatuses, gather]
    rw [same, ih, List.append_assoc]
    rfl

/-- Words that repeat earlier ones bring no statuses. -/
theorem firstStatuses_repeated {earlier repeated : List String} (later : List String)
    (known : ∀ word ∈ repeated, word ∈ earlier) :
    firstStatuses (earlier ++ repeated ++ later) = firstStatuses (earlier ++ later) := by
  have nothing : firstStatuses (earlier ++ repeated) = firstStatuses earlier := by
    induction repeated generalizing earlier with
    | nil => rw [List.append_nil]
    | cons word rest ih =>
      rw [List.append_cons, ih fun other member =>
        List.mem_append_left _ (known other (.tail _ member))]
      rw [firstStatuses_concat, if_pos (.inr (known word (.head _)))]
  rw [← gather_firstStatuses, nothing, gather_firstStatuses]

/-! ## The event of an end -/

/-- An answer whose statuses say that the request is done has the event of its end. -/
theorem mem_ofAnswer_iff {answer : Table} {read statuses : List String} {id : Datum} :
    .completed statuses id ∈ Event.ofAnswer answer read ↔
      Event.doneStatus ∈ read ∧ statuses = read ∧ id = answer.get "id" := by
  simp only [Event.ofAnswer, List.mem_filterMap, List.mem_cons, List.not_mem_nil, or_false,
    exists_eq_right, @eq_comm _ (some (Event.completed statuses id)), Option.map_eq_some_iff,
    reduceCtorEq, and_false, exists_false, false_or, List.contains_iff_mem,
    Option.ite_none_right_eq_some, Option.some.injEq, Event.completed.injEq]
  rw [@eq_comm _ read, @eq_comm _ (answer.get "id")]

/-- The event of an end tells the statuses of its request and the identity of the answer. -/
theorem mem_told_iff {answer : Table} {read gathered statuses : List String} {id : Datum} :
    .completed statuses id ∈ (Event.ofAnswer answer read).map (told gathered) ↔
      Event.doneStatus ∈ read ∧ statuses = gathered ++ [Event.doneStatus] ∧
        id = answer.get "id" := by
  constructor
  · intro member
    obtain ⟨event, among, same⟩ := List.mem_map.mp member
    cases event with
    | value | output | errorOutput => contradiction
    | completed others id =>
      obtain ⟨rfl, rfl⟩ := Event.completed.inj same
      obtain ⟨done, _, named⟩ := mem_ofAnswer_iff.mp among
      exact ⟨done, rfl, named⟩
  · rintro ⟨done, rfl, rfl⟩
    exact List.mem_map.mpr ⟨_, mem_ofAnswer_iff.mpr ⟨done, rfl, rfl⟩, rfl⟩

/-- A request has failed when one of its first statuses is that of a failure. -/
theorem failed_firstStatuses (words : List String) :
    Event.failed (firstStatuses words ++ [Event.doneStatus]) ↔
      ∃ word ∈ words, word ∈ Event.failureStatuses := by
  have undone : Event.doneStatus ∉ Event.failureStatuses := by decide
  simp only [Event.failed, List.any_append, Bool.or_eq_true, List.any_eq_true,
    List.contains_iff_mem, List.mem_singleton, mem_firstStatuses]
  constructor
  · rintro (⟨word, ⟨member, _⟩, fails⟩ | ⟨_, rfl, fails⟩)
    · exact ⟨word, member, fails⟩
    · exact absurd fails undone
  · rintro ⟨word, member, fails⟩
    exact .inl ⟨word, ⟨member, fun done => undone (done ▸ fails)⟩, fails⟩

end Session

namespace Recorder

variable {ns identity : Datum}

/-- The words of the answers to one request. -/
def wordsOf (request : Nat) (moments : List Moment) : List String :=
  (moments.filterMap Moment.delivery?).flatMap fun delivery =>
    if delivery.request = request then Session.words delivery.answer else []

/-- What reaches a listener is among the events. -/
theorem mem_of_mem_handed {listener : Listener} {event : Event} {events : List Event}
    (member : event ∈ handed (events.map (Notice.event listener))) : event ∈ events := by
  induction events with
  | nil => contradiction
  | cons first rest ih =>
    rcases listener with _ | _ | _
    · rcases List.mem_cons.mp member with rfl | later
      · exact .head _
      · exact .tail _ (ih later)
    · rcases List.mem_cons.mp member with rfl | later
      · exact .head _
      · exact .tail _ (ih later)
    · exact List.mem_singleton.mp member ▸ .head _

/-- The statuses of every request are the first ones of its answers. -/
structure Gathered (moments : List Moment) (session : Session Listener) : Prop where
  /-- Answers came to requests that were sent. -/
  sent : ∀ delivery, .delivered delivery ∈ moments → delivery.request < session.talks.length
  /-- The statuses of a request are the first ones of its answers. -/
  statuses : ∀ index talk purpose, session.talks[index]? = some talk →
    talk.topic = .work purpose → talk.statuses = Session.firstStatuses (wordsOf index moments)

/-- The words of a request with a moment behind others. -/
theorem wordsOf_concat (request : Nat) (moments : List Moment) (delivery : Delivery) :
    wordsOf request (moments ++ [.delivered delivery]) = wordsOf request moments ++
      if delivery.request = request then Session.words delivery.answer else [] := by
  simp [wordsOf, Moment.delivery?]

/-- A request without answers has no words. -/
theorem wordsOf_fresh {request : Nat} {moments : List Moment}
    (sent : ∀ delivery, .delivered delivery ∈ moments → delivery.request < request) :
    wordsOf request moments = [] := by
  refine List.flatMap_eq_nil_iff.mpr fun delivery member => if_neg ?_
  obtain ⟨moment, among, same⟩ := List.mem_filterMap.mp member
  cases moment with
  | asked _ => contradiction
  | delivered _ =>
    cases same
    exact Nat.ne_of_lt (sent delivery among)

/-- A moment keeps the statuses gathered. -/
theorem Step.gathered {before : List Moment} {moment : Moment} {session after : Session Listener}
    (step : Step session moment after) (gathered : Gathered before session) :
    Gathered (before ++ [moment]) after := by
  obtain ⟨sent, statuses⟩ := gathered
  cases step with
  | @asked call result _ =>
    constructor
    · intro delivery member
      have earlier : .delivered delivery ∈ before := by simpa using member
      simp only [Session.record, List.length_append]
      exact Nat.lt_add_right _ (sent delivery earlier)
    · intro index talk purpose found topic
      have same : wordsOf index (before ++ [.asked ⟨call, call.message session, result⟩]) =
          wordsOf index before := by simp [wordsOf, Moment.delivery?]
      rw [same]
      simp only [Session.record] at found
      by_cases old : index < session.talks.length
      · rw [List.getElem?_append_left old] at found
        exact statuses index talk purpose found topic
      · -- The new request is behind all others, and has neither answers nor statuses.
        rw [List.getElem?_append_right (Nat.le_of_not_lt old)] at found
        obtain ⟨_, rfl⟩ := List.getElem?_eq_some_iff.mp found
        rw [wordsOf_fresh fun delivery member =>
          Nat.lt_of_lt_of_le (sent delivery member) (Nat.le_of_not_lt old)]
        simp [Session.firstStatuses]
  | @delivered _ place talk answer notices found taken =>
    have inside := (List.getElem?_eq_some_iff.mp found).1
    rcases Session.receive_taken found taken with
      ⟨wanted, topic, rfl, _⟩ | ⟨purpose, read, topic, readable, rfl, _⟩
    · constructor
      · intro delivery member
        rcases List.mem_append.mp member with earlier | now
        · exact sent delivery earlier
        · cases List.mem_singleton.mp now
          exact inside
      · intro index other purpose known works
        rw [wordsOf_concat, if_neg, List.append_nil]
        · exact statuses index other purpose known works
        · rintro rfl
          cases known.symm.trans found
          cases works.symm.trans topic
    · have words : Session.words answer = read := by rw [Session.words, readable]; rfl
      constructor
      · intro delivery member
        rw [List.length_set]
        rcases List.mem_append.mp member with earlier | now
        · exact sent delivery earlier
        · cases List.mem_singleton.mp now
          exact inside
      · intro index other purpose known works
        rw [wordsOf_concat]
        by_cases same : place = index
        · subst same
          rw [List.getElem?_set_self inside] at known
          cases known
          rw [if_pos rfl, words, ← Session.gather_firstStatuses,
            ← statuses place talk _ found topic]
        · rw [if_neg same, List.append_nil]
          rw [List.getElem?_set_ne same] at known
          exact statuses index other purpose known works

/-- The course of a new session keeps the statuses gathered. -/
theorem Course.gathered {moments : List Moment} {session : Session Listener}
    (course : Course (.start ns identity) moments session) : Gathered moments session := by
  refine @Course.induction_on _ _ [] _ _ course Step.gathered ⟨?_, ?_⟩
  · exact fun _ member => absurd member List.not_mem_nil
  · exact fun _ _ _ found => absurd found (by simp [Session.start])

/-- What the listener of a request hears of an answer in a run: its events, with the first statuses
of the request at the end. An answer with an identity has none. -/
theorem Run.handed_cases {recorder : Recorder} {moments before after : List Moment}
    {delivery : Delivery} (run : Run ns identity recorder moments)
    (split : moments = before ++ .delivered delivery :: after) :
    (∃ wanted, delivery.topic = .identity wanted ∧ delivery.handed = []) ∨
      ∃ listener read, delivery.topic = .work listener ∧
        Event.statuses delivery.answer = .ok read ∧
        delivery.handed = handed (((Event.ofAnswer delivery.answer read).map
          (Session.told (Session.firstStatuses
            (wordsOf delivery.request (before ++ [.delivered delivery]))))).map
              (Notice.event listener)) := by
  subst split
  obtain ⟨session, course, later⟩ := run.follows.course.exists_middle
  cases later with
  | cons step _ =>
    have gathered := (step.gathered course.gathered).statuses
    cases step with
    | @delivered _ index talk answer _ found taken =>
      rcases Session.receive_taken found taken with
        ⟨wanted, topic, _, silent⟩ | ⟨listener, read, topic, readable, rfl, rfl⟩
      · exact .inl ⟨wanted, topic, handed_silent silent⟩
      · refine .inr ⟨listener, read, topic, readable, ?_⟩
        have own := gathered index _ listener
          (List.getElem?_set_self (List.getElem?_eq_some_iff.mp found).1) topic
        rw [← own]

/-- The end of a request in a run, as its listener is told. -/
structure Completion (moments : List Moment) where
  /-- What has happened before. -/
  before : List Moment
  /-- The answer that says so. -/
  delivery : Delivery
  /-- What happens behind it. -/
  after : List Moment
  /-- The answer comes between these. -/
  split : moments = before ++ .delivered delivery :: after
  /-- The statuses that are told. -/
  statuses : List String
  /-- The identity that is told. -/
  id : Datum
  /-- The event reaches the listener. -/
  handed : .completed statuses id ∈ delivery.handed

namespace Completion

variable {moments : List Moment}

/-- The words of the answers to the request so far, those of this answer included. -/
def words (completion : Completion moments) : List String :=
  wordsOf completion.delivery.request (completion.before ++ [.delivered completion.delivery])

/-- The first statuses of the request are told, and the identity of the answer. -/
theorem told {recorder : Recorder} (run : Run ns identity recorder moments)
    (completion : Completion moments) :
    completion.statuses = Session.firstStatuses completion.words ++ [Event.doneStatus] ∧
      completion.id = completion.delivery.answer.get "id" := by
  rcases run.handed_cases completion.split with ⟨_, _, nothing⟩ | ⟨_, _, _, _, events⟩
  · exact absurd completion.handed (nothing ▸ List.not_mem_nil)
  · exact (Session.mem_told_iff.mp (mem_of_mem_handed (events ▸ completion.handed))).2

end Completion

/-- In a run of a session, the end of a request tells the statuses of all answers to the request so
far, each where it appears first, and then that the request is done; it is a failure if and only if
one of these answers has the status of one. So two ends, in runs that need have nothing else in
common, tell the same and fail alike if the first statuses are the same; and these do not change
when words repeat earlier ones. -/
theorem completion_tells_first_statuses {ns' identity' : Datum} {recorder recorder' : Recorder}
    {moments moments' : List Moment} (run : Run ns identity recorder moments)
    (other : Run ns' identity' recorder' moments') :
    recorder.events = moments.flatMap Moment.written ∧
      (∀ completion : Completion moments,
        completion.statuses = Session.firstStatuses completion.words ++ [Event.doneStatus] ∧
          completion.id = completion.delivery.answer.get "id" ∧
          (Event.failed completion.statuses ↔
            ∃ word ∈ completion.words, word ∈ Event.failureStatuses)) ∧
      (∀ (completion : Completion moments) (again : Completion moments'),
        Session.firstStatuses completion.words = Session.firstStatuses again.words →
          completion.statuses = again.statuses ∧
            Event.failed completion.statuses = Event.failed again.statuses) ∧
      ∀ earlier repeated later : List String, (∀ word ∈ repeated, word ∈ earlier) →
        Session.firstStatuses (earlier ++ repeated ++ later) =
          Session.firstStatuses (earlier ++ later) := by
  refine ⟨run.follows.events, fun completion => ?_, fun completion again same => ?_,
    fun _ _ later known => Session.firstStatuses_repeated later known⟩
  · obtain ⟨statuses, id⟩ := completion.told run
    exact ⟨statuses, id, statuses ▸ Session.failed_firstStatuses completion.words⟩
  · have equal : completion.statuses = again.statuses := by
      rw [(completion.told run).1, (again.told other).1, same]
    exact ⟨equal, congrArg Event.failed equal⟩

/-- Two requests are answered in turn, and one of them tells its failure twice. -/
def splitAnswers : List Turn :=
  [.call (answering []) (.evaluate (.text "(f)") .null .null .null (.recorder none)),
    .call (answering []) (.evaluate (.text "(g)") .null .null .null (.recorder none)),
    .answers (.text "1") [[("status", .text "eval-error")]],
    .answers (.text "2") [[("status", .list [.text "interrupted", .text "done"])]],
    .answers (.text "1") [[("status", .list [.text "eval-error", .text "done"])]]]

/-- A request is told its failure and its end at once. -/
def joinedAnswer : List Turn :=
  [.call (answering [[("status", .list [.text "done", .text "eval-error"])]])
    (.evaluate (.text "(f)") .null .null .null (.recorder none))]

/-- Both requests end alike. -/
theorem completion_tells_first_statuses_split :
    let run := play (.start (.text "user") .null, []) splitAnswers
    let other := play (.start (.text "user") .null, []) joinedAnswer
    Run (.text "user") .null run.1 run.2 ∧ Run (.text "user") .null other.1 other.2 ∧
      ∃ (completion : Completion run.2) (again : Completion other.2),
        completion.words = ["eval-error", "eval-error", "done"] ∧
        again.words = ["done", "eval-error"] ∧
        completion.statuses = ["eval-error", "done"] ∧ again.statuses = ["eval-error", "done"] ∧
        Event.failed completion.statuses = true := by
  intro run other
  have first : Run (.text "user") .null run.1 run.2 := run_play _ _ _
  have second : Run (.text "user") .null other.1 other.2 := run_play _ _ _
  let completion : Completion run.2 :=
    ⟨run.2.dropLast, ⟨0, .work (.recorder none),
      [("status", .list [.text "eval-error", .text "done"])],
      [.completed ["eval-error", "done"] .null]⟩, [], rfl, _, _, .head _⟩
  let again : Completion other.2 :=
    ⟨other.2.dropLast, ⟨0, .work (.recorder none),
      [("status", .list [.text "done", .text "eval-error"])],
      [.completed ["eval-error", "done"] .null]⟩, [], rfl, _, _, .head _⟩
  obtain ⟨_, told, alike, _⟩ := completion_tells_first_statuses first second
  have same := (alike completion again rfl).1
  refine ⟨first, second, completion, again, rfl, rfl, (told completion).1, ?_, ?_⟩
  · exact same ▸ (told completion).1
  · exact (told completion).2.2.mpr ⟨"eval-error", .head _, .head _⟩

end Recorder
end EvalDesk
