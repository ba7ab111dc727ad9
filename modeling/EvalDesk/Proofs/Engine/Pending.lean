import EvalDesk.Proofs.Engine.Requests

/-!
# Which evaluation is pending

The evaluation that was asked for last is the one that runs, as long as no answer to it has said
that it is done. What is pending has to name it. This is kept by every request and by every answer,
in whatever order they come, because no two requests have the same identity.
-/
namespace EvalDesk

/-- A request of this kind evaluates code for the desk. -/
def Topic.isEvaluation : Topic Purpose → Bool
  | .work (.evaluation _) => true
  | _ => false

/-- A request that evaluates code does so from an origin. -/
theorem Topic.exists_of_isEvaluation {topic : Topic Purpose}
    (evaluates : topic.isEvaluation = true) : ∃ origin, topic = .work (.evaluation origin) := by
  unfold Topic.isEvaluation at evaluates
  split at evaluates
  · exact ⟨_, rfl⟩
  · cases evaluates

/-- The identity of the evaluation that was asked for last. -/
def Session.lastEvaluation? (session : Session Purpose) : Option Datum :=
  ((session.requests.filter (·.2.isEvaluation)).getLast?).map (·.1)

/-- One of the answers is to the request of the identity and says that it is done. -/
def EndedBy (answers : List Table) (id : Datum) : Prop :=
  ∃ answer ∈ answers, answer.get "id" = id ∧ Event.saysDone answer = true

/-- What is pending is the evaluation that was asked for last if no answer has ended it, and nothing
otherwise. -/
def NamesRunning (session : Session Purpose) (heard : List Table) (pending : Option String) :
    Prop :=
  match session.lastEvaluation? with
  | none => pending = none
  | some id =>
    (EndedBy heard id → pending = none) ∧ (¬EndedBy heard id → pending.map Datum.text = some id)

/-- Before the first evaluation nothing is pending. -/
theorem namesRunning_none {session : Session Purpose} (last : session.lastEvaluation? = none)
    (heard : List Table) (pending : Option String) :
    NamesRunning session heard pending ↔ pending = none := by
  rw [NamesRunning, last]

/-- After an evaluation it is pending until it has ended. -/
theorem namesRunning_some {session : Session Purpose} {id : Datum}
    (last : session.lastEvaluation? = some id) (heard : List Table) (pending : Option String) :
    NamesRunning session heard pending ↔ (EndedBy heard id → pending = none) ∧
      (¬EndedBy heard id → pending.map Datum.text = some id) := by
  rw [NamesRunning, last]

/-- The identity of the request of a number. -/
def requestId (index : Nat) : Datum := .text (toString (index + 1))

/-- Requests of different numbers have different identities. -/
theorem requestId_injective {first second : Nat} (same : requestId first = requestId second) :
    first = second := by
  have numbers := toString_injective (Datum.text.inj same)
  omega

/-- Answers in two parts have ended a request when one of the parts has. -/
theorem endedBy_append (first second : List Table) (id : Datum) :
    EndedBy (first ++ second) id ↔ EndedBy first id ∨ EndedBy second id := by
  simp only [EndedBy, List.mem_append, or_and_right, exists_or]

/-- Answers to one request end it when one of them says that it is done. -/
theorem endedBy_iff_any {answers : List Table} {id : Datum}
    (own : ∀ answer ∈ answers, Event.IsAnswerTo id answer) :
    EndedBy answers id ↔ answers.any Event.saysDone = true := by
  rw [List.any_eq_true]
  constructor
  · rintro ⟨answer, member, _, done⟩
    exact ⟨answer, member, done⟩
  · rintro ⟨answer, member, done⟩
    exact ⟨answer, member, (own answer member).own, done⟩

/-- Answers to one request do not end another. -/
theorem not_endedBy_of_ne {answers : List Table} {id other : Datum}
    (own : ∀ answer ∈ answers, Event.IsAnswerTo id answer) (apart : id ≠ other) :
    ¬EndedBy answers other := by
  rintro ⟨answer, member, same, _⟩
  exact apart ((own answer member).own.symm.trans same)

namespace Engine

/-- What holds between two steps, by the answers that were heard so far. -/
structure Tracking.Sound (tracking : Tracking) (heard : List Table) : Prop where
  /-- The requests have their numbers for identities. -/
  numbered : tracking.session.requests.map (·.1) =
    (List.range tracking.session.count).map requestId
  /-- Nothing is being sent. -/
  idle : tracking.sending = false
  /-- Answers are to requests that were sent. -/
  known : ∀ answer ∈ heard, ∃ index < tracking.session.count, answer.get "id" = requestId index
  /-- What is pending is the evaluation that runs. -/
  running : NamesRunning tracking.session heard tracking.pending
  /-- Evaluations are asked for only if the transcript takes what is sent. -/
  steady : Transcript.Takes tracking.limit ∨
    (Transcript.Refuses tracking.limit ∧ tracking.session.lastEvaluation? = none)

end Engine

namespace Session

/-- A request that is no evaluation leaves the last one as it is. -/
theorem lastEvaluation?_other {before after : Session Purpose} {id : Datum}
    {topic : Topic Purpose} (requests : after.requests = before.requests ++ [(id, topic)])
    (other : topic.isEvaluation = false) : after.lastEvaluation? = before.lastEvaluation? := by
  rw [lastEvaluation?, requests, List.filter_append]
  simp [other, lastEvaluation?]

/-- In a session whose requests are numbered, a request at a place has the number of the place. -/
theorem id_at {session : Session Purpose}
    (numbered : session.requests.map (·.1) = (List.range session.count).map requestId)
    {index : Nat} {id : Datum} {topic : Topic Purpose}
    (found : session.requests[index]? = some (id, topic)) :
    id = requestId index ∧ index < session.count := by
  have there : (session.requests.map (·.1))[index]? = some id := by
    rw [List.getElem?_map, found]
    rfl
  rw [numbered, List.getElem?_map, Option.map_eq_some_iff] at there
  obtain ⟨number, inside, rfl⟩ := there
  obtain ⟨bound, own⟩ := List.getElem?_eq_some_iff.mp inside
  rw [List.getElem_range] at own
  rw [List.length_range] at bound
  subst own
  exact ⟨rfl, bound⟩

/-- Requests stay numbered when one more takes the next number. -/
theorem numbered_next {before after : Session Purpose}
    (numbered : before.requests.map (·.1) = (List.range before.count).map requestId)
    {topic : Topic Purpose}
    (requests : after.requests = before.requests ++ [(requestId before.count, topic)])
    (count : after.count = before.count + 1) :
    after.requests.map (·.1) = (List.range after.count).map requestId := by
  rw [requests, count, List.map_append, numbered, List.range_succ, List.map_append]
  rfl

/-- The last evaluation is one of the requests. -/
theorem mem_of_lastEvaluation? {session : Session Purpose} {id : Datum}
    (found : session.lastEvaluation? = some id) :
    ∃ topic : Topic Purpose, topic.isEvaluation = true ∧ (id, topic) ∈ session.requests := by
  obtain ⟨⟨_, topic⟩, last, rfl⟩ := Option.map_eq_some_iff.mp found
  have member := List.mem_filter.mp (List.mem_of_getLast? last)
  exact ⟨topic, member.2, member.1⟩

end Session

namespace Engine.Tracking.Sound

variable {tracking : Tracking} {heard : List Table}

/-- A request at a place has the number of the place. -/
theorem id_at (sound : tracking.Sound heard) {index : Nat} {id : Datum} {topic : Topic Purpose}
    (found : tracking.session.requests[index]? = some (id, topic)) :
    id = requestId index ∧ index < tracking.session.count :=
  Session.id_at sound.numbered found

/-- Every request has a number. -/
theorem id_of_mem (sound : tracking.Sound heard) {id : Datum} {topic : Topic Purpose}
    (member : (id, topic) ∈ tracking.session.requests) :
    ∃ index < tracking.session.count, tracking.session.requests[index]? = some (id, topic) ∧
      id = requestId index := by
  obtain ⟨index, found⟩ := List.mem_iff_getElem?.mp member
  obtain ⟨own, bound⟩ := sound.id_at found
  exact ⟨index, bound, found, own⟩

/-- What is pending is one of the requests. -/
theorem id_of_pending (sound : tracking.Sound heard) {name : String}
    (pending : tracking.pending = some name) :
    tracking.session.lastEvaluation? = some (.text name) := by
  have running := sound.running
  cases last : tracking.session.lastEvaluation? with
  | none =>
    rw [namesRunning_none last, pending] at running
    contradiction
  | some id =>
    rw [namesRunning_some last, pending] at running
    by_cases ended : EndedBy heard id
    · have gone := running.1 ended
      contradiction
    · exact (running.2 ended).symm

/-- What is pending is no request that is not sent yet. -/
theorem fresh (sound : tracking.Sound heard) :
    tracking.pending ≠ some tracking.session.nextId := by
  intro pending
  obtain ⟨topic, _, member⟩ := Session.mem_of_lastEvaluation? (sound.id_of_pending pending)
  obtain ⟨index, bound, _, own⟩ := sound.id_of_mem member
  have number : tracking.session.count = index := requestId_injective own
  omega

/-- The identities after one more request are numbered. -/
theorem numbered_next (sound : tracking.Sound heard) {session : Session Purpose}
    {topic : Topic Purpose}
    (requests : session.requests =
      tracking.session.requests ++ [(requestId tracking.session.count, topic)])
    (count : session.count = tracking.session.count + 1) :
    session.requests.map (·.1) = (List.range session.count).map requestId :=
  Session.numbered_next sound.numbered requests count

/-- Answers are known after one more request, those to it too. -/
theorem known_next (sound : tracking.Sound heard) {answers : List Table}
    (own : ∀ answer ∈ answers, Event.IsAnswerTo (requestId tracking.session.count) answer) :
    ∀ answer ∈ heard ++ answers, ∃ index < tracking.session.count + 1,
      answer.get "id" = requestId index := by
  intro answer member
  rcases List.mem_append.mp member with before | now
  · obtain ⟨index, bound, same⟩ := sound.known answer before
    exact ⟨index, Nat.lt_succ_of_lt bound, same⟩
  · exact ⟨tracking.session.count, Nat.lt_succ_self _, (own answer now).own⟩

/-- A request that is no evaluation leaves the running one as it is. -/
theorem asked (sound : tracking.Sound heard) {after : Tracking} {message : Message}
    {topic : Topic Purpose} (asked : Asked message topic false tracking after)
    (other : topic.isEvaluation = false) {answers : List Table}
    (own : ∀ answer ∈ answers, Event.IsAnswerTo (message.get "id") answer) :
    after.Sound (heard ++ answers) := by
  have same := Session.lastEvaluation?_other asked.requests other
  rw [asked.named] at own
  refine ⟨sound.numbered_next asked.requests asked.count, asked.sending.trans sound.idle, ?_, ?_,
    ?_⟩
  · rw [asked.count]
    exact sound.known_next own
  · have running := sound.running
    rw [asked.pending, if_neg Bool.false_ne_true]
    cases last : tracking.session.lastEvaluation? with
    | none =>
      rw [namesRunning_none last] at running
      exact (namesRunning_none (same.trans last) _ _).mpr running
    | some id =>
      obtain ⟨topic, _, member⟩ := Session.mem_of_lastEvaluation? last
      obtain ⟨index, bound, _, numbered⟩ := sound.id_of_mem member
      have apart : requestId tracking.session.count ≠ id := by
        intro equal
        have clash := requestId_injective (equal.trans numbered)
        omega
      have ends : EndedBy (heard ++ answers) id ↔ EndedBy heard id := by
        rw [endedBy_append]
        exact or_iff_left (not_endedBy_of_ne own apart)
      rw [namesRunning_some last, ← ends] at running
      exact (namesRunning_some (same.trans last) _ _).mpr running
  · rw [asked.limit, same]
    exact sound.steady

/-- Answers to a request end the running evaluation exactly when they are to it and say that it is
done. -/
theorem answered (sound : tracking.Sound heard) {after : Tracking} {index : Nat} {name : String}
    {topic : Topic Purpose} {answers : List Table}
    (found : tracking.session.requests[index]? = some (.text name, topic))
    (moved : Moved name (topic.isHeard && answers.any Event.saysDone) tracking after)
    (own : ∀ answer ∈ answers, Event.IsAnswerTo (.text name) answer) :
    after.Sound (heard ++ answers) := by
  obtain ⟨numbered, bound⟩ := sound.id_at found
  have same : after.session.lastEvaluation? = tracking.session.lastEvaluation? := by
    rw [Session.lastEvaluation?, moved.requests, Session.lastEvaluation?]
  refine ⟨?_, moved.sending.trans sound.idle, ?_, ?_, ?_⟩
  · rw [moved.requests, moved.count]
    exact sound.numbered
  · intro answer member
    rw [moved.count]
    rcases List.mem_append.mp member with before | now
    · exact sound.known answer before
    · exact ⟨index, bound, (own answer now).own.trans numbered⟩
  · have running := sound.running
    rw [moved.pending]
    cases last : tracking.session.lastEvaluation? with
    | none =>
      rw [namesRunning_none last] at running
      rw [namesRunning_none (same.trans last), running]
      simp
    | some id =>
      rw [namesRunning_some last] at running
      rw [namesRunning_some (same.trans last), endedBy_append]
      obtain ⟨kind, evaluates, member⟩ := Session.mem_of_lastEvaluation? last
      obtain ⟨place, _, there, placed⟩ := sound.id_of_mem member
      by_cases it : Datum.text name = id
      · have here : index = place := requestId_injective (numbered.symm.trans (it.trans placed))
        subst here
        rw [found] at there
        cases there
        have heard_topic : topic.isHeard = true := by
          cases topic with
          | identity => contradiction
          | work purpose => cases purpose <;> first | rfl | contradiction
        rw [heard_topic, Bool.true_and, endedBy_iff_any own]
        by_cases ended : EndedBy heard (.text name)
        · rw [running.1 ended]
          simp [ended]
        · have pending : tracking.pending = some name := by
            obtain ⟨other, waits, same_name⟩ := Option.map_eq_some_iff.mp (running.2 ended)
            cases same_name
            exact waits
          rw [pending]
          cases answers.any Event.saysDone <;> simp [ended]
      · have others := not_endedBy_of_ne own it
        have waits : ¬(tracking.pending = some name) := by
          intro pending
          have clash := last.symm.trans (sound.id_of_pending pending)
          exact it (Option.some.inj clash).symm
        rw [if_neg fun ends => waits ends.2, or_iff_left others]
        exact running
  · rw [moved.limit, same]
    exact sound.steady

end Engine.Tracking.Sound
end EvalDesk
