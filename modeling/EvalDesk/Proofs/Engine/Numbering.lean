import EvalDesk.Proofs.Engine.Chronicle

/-!
# The numbers of the requests of a run

Every message that the engine sends takes the next number for its identity, also when the message is
lost, and nothing else numbers or renames a request. So in every run from a new engine the request
at each place has the number of that place, and a number that was taken is never taken again.
-/
namespace EvalDesk

/-- Taking an answer numbers no request. -/
theorem Session.count_of_receive {session after : Session Purpose} {index : Nat} {answer : Table}
    {notices : List (Notice Purpose)}
    (received : session.receive index answer = .ok (after, notices)) :
    after.count = session.count := by
  cases found : session.talks[index]? with
  | none =>
    rw [receive, found] at received
    cases received
    rfl
  | some talk =>
    cases topic : talk.topic with
    | identity wanted =>
      simp only [receive, found, topic] at received
      split at received <;> cases received <;> rfl
    | work purpose =>
      cases read : Event.statuses answer with
      | error fault =>
        simp only [receive, found, topic, read, bind, Except.bind] at received
        cases received
      | ok words =>
        obtain ⟨session, statuses, same, _, count⟩ := Engine.receive_work found topic read
        cases same.symm.trans received
        exact count

namespace Engine

/-- The requests are numbered by their places. -/
def Numbered (engine : Engine) : Prop :=
  engine.session.requests.map (·.1) = (List.range engine.session.count).map requestId

/-- How many requests are numbered, and the identities of all of them. -/
def numbers (engine : Engine) : Nat × List Datum :=
  (engine.session.count, engine.session.requests.map (·.1))

/-- As many requests were sent as are numbered. -/
theorem Numbered.length_talks {engine : Engine} (numbered : engine.Numbered) :
    engine.session.talks.length = engine.session.count := by
  have lengths := congrArg List.length numbered
  simpa [Session.requests] using lengths

/-- The numbers decide whether the requests are numbered. -/
theorem Numbered.of_numbers {before after : Engine} (numbered : before.Numbered)
    (same : after.numbers = before.numbers) : after.Numbered := by
  obtain ⟨count, ids⟩ := Prod.mk.inj same
  rw [Numbered, ids, count]
  exact numbered

/-- Hearing an answer numbers no request and keeps their identities. -/
theorem numbers_hear (disk : Disk) (index : Nat) (engine : Engine) (answer : Table) :
    (hear disk index engine answer).1.numbers = engine.numbers := by
  have requests := requests_hear disk index engine answer
  have count : (hear disk index engine answer).1.session.count = engine.session.count := by
    rw [hear]
    cases received : engine.session.receive index answer with
    | error fault => rfl
    | ok result =>
      obtain ⟨session, notices⟩ := result
      have kept := (Fallible.chains_view (·.session)).foldl (session_takeNotice disk)
        { engine with session } notices
      exact (congrArg Session.count kept).trans (Session.count_of_receive received)
  rw [numbers, count, requests]
  rfl

/-- Nothing else but messages shows in the numbers. -/
theorem undisturbed_numbers : Undisturbed numbers where
  status _ _ := rfl
  opened _ _ := rfl
  projectRoot _ _ := rfl
  unwatched engine := by
    unfold stopWatching
    split <;> rfl
  watched _ _ _ _ := rfl
  reloaded _ _ _ := rfl
  shown _ _ := rfl
  told _ := rfl
  watching _ _ := rfl
  closed _ := rfl
  sending _ _ := rfl
  connected _ _ _ _ := rfl
  drawn _ _ := rfl
  diagnosed _ _ := rfl

/-- The start of a cycle numbers no request. -/
theorem beginCycle_keeps_numbers (code : String) : Keeps numbers (beginCycle code) := by
  refine keeps_bind (keeps_modify fun _ => rfl) fun _ => ?_
  refine keeps_bind (keeps_modify fun _ => rfl) fun _ => ?_
  exact keeps_bind (fun _ => rfl) fun _ => keeps_modify fun _ => rfl

section Sendings

variable {world : World} {engine : Engine} {order : Order} {sending : Sending}
  (sends : engine.sending? world order = some sending)
include sends

/-- A message is prepared without a number being taken. -/
theorem numbers_of_sending? : sending.engine.numbers = engine.numbers := by
  rcases sending?_cases sends with ⟨loaded, done, rfl⟩ | ⟨symbol, rfl⟩ | ⟨symbol, rfl⟩ |
    ⟨id, rfl⟩ | ⟨evaluation, begun, found, done, rfl⟩
  · have kept := undisturbed_numbers.keeps_loadSource world.disk engine
    rwa [done] at kept
  · rfl
  · rfl
  · rfl
  · have kept := beginCycle_keeps_numbers evaluation.code evaluation.prepared
    rw [done] at kept
    exact kept.trans (undisturbed_numbers.view_prepared found)

/-- A message carries the next number. -/
theorem id_of_sending? : sending.message.get "id" = .text sending.engine.session.nextId := by
  rcases sending?_cases sends with ⟨loaded, done, rfl⟩ | ⟨symbol, rfl⟩ | ⟨symbol, rfl⟩ |
    ⟨id, rfl⟩ | ⟨evaluation, begun, found, done, rfl⟩
  · rfl
  · exact Session.get_message_id _ "eval" (by simp [Session.evalFields])
  · exact Session.get_message_id _ "eval" (by simp [Session.evalFields])
  · exact Session.get_message_id _ "interrupt" (by simp [Session.interruptFields])
  · obtain ⟨prepared, -, ⟨code, origin, rfl⟩ | rfl⟩ := undisturbed_numbers.evaluation?_cases found
    · exact Session.get_message_id _ "eval" (by simp [Evaluation.ofCode, Session.evalFields])
    · exact Session.get_message_id _ "load-file" (by simp [Evaluation.ofSource, Session.loadFields])

/-- When the requests are numbered, they are so with the message, which has the number of its
place. -/
theorem Numbered.sent (numbered : engine.Numbered) :
    sending.after.Numbered ∧ sending.after.session.count = engine.session.count + 1 ∧
      sending.request = engine.session.count := by
  have same := numbers_of_sending? sends
  have before := numbered.of_numbers same
  have count : sending.engine.session.count = engine.session.count := congrArg Prod.fst same
  have requests := Session.requests_record sending.engine.session sending.message sending.topic
  rw [id_of_sending? sends] at requests
  exact ⟨Session.numbered_next before requests rfl, congrArg (· + 1) count,
    before.length_talks.trans count⟩

/-- The identity of a message is the number of its place. -/
theorem Numbered.id_of_message (numbered : engine.Numbered) :
    sending.message.get "id" = requestId sending.request := by
  have count : sending.engine.session.count = engine.session.count :=
    congrArg Prod.fst (numbers_of_sending? sends)
  rw [id_of_sending? sends, (numbered.sent sends).2.2, ← count]
  rfl

end Sendings

/-- How many messages were sent in what happened. -/
def sentAmong (happened : List Happening) : Nat := (happened.filterMap Happening.sending?).length

/-- The requests stay numbered, and each message takes a number. -/
def NumbersOn (before : Engine) (happened : List Happening) (after : Engine) : Prop :=
  before.Numbered →
    after.Numbered ∧ after.session.count = before.session.count + sentAmong happened

/-- No message is sent while answers are heard. -/
theorem sentAmong_hearingsAll (disk : Disk) (index : Nat) (engine : Engine) (answers : List Table) :
    sentAmong (hearingsAll disk index engine answers) = 0 := by
  refine List.length_eq_zero_iff.mpr (List.filterMap_eq_nil_iff.mpr fun happening member => ?_)
  cases happening with
  | heard hearing => rfl
  | sent sending => exact absurd member not_sent_mem_hearingsAll

/-- Runs number their requests. -/
theorem narrates_numbers : Narrates numbers NumbersOn where
  undisturbed := undisturbed_numbers
  quiet same numbered := ⟨numbered.of_numbers same, congrArg Prod.fst same⟩
  trans one other numbered := by
    obtain ⟨between, more⟩ := one numbered
    obtain ⟨final, rest⟩ := other between
    refine ⟨final, ?_⟩
    rw [rest, more, sentAmong, sentAmong, sentAmong, List.filterMap_append, List.length_append,
      Nat.add_assoc]
  sent sends numbered := by
    obtain ⟨after, count, _⟩ := numbered.sent sends
    exact ⟨after, count⟩
  failed {engine begun code fault} failed numbered := by
    have kept := beginCycle_keeps_numbers code engine
    rw [failed] at kept
    exact ⟨numbered.of_numbers kept, congrArg Prod.fst kept⟩
  heard disk index answers engine numbered := by
    have kept := hearAll_leads (Fallible.chains_view numbers) (numbers_hear disk index) engine
      answers
    rw [sentAmong_hearingsAll]
    exact ⟨numbered.of_numbers kept, congrArg Prod.fst kept⟩

/-- Whatever the engine comes to, something has happened on the way. -/
theorem Attained.chronicled {first engine : Engine} (attained : Attained first engine) :
    ∃ happened, Chronicled first engine happened := by
  induction attained with
  | start => exact ⟨[], .start⟩
  | order world order _ ih => exact ⟨_, .order world order ih.choose_spec⟩
  | cleared _ ih => exact ⟨_, .cleared ih.choose_spec⟩
  | stopped _ ih => exact ⟨_, .stopped ih.choose_spec⟩
  | loaded disk _ ih => exact ⟨_, .loaded disk ih.choose_spec⟩
  | visited disk location _ ih => exact ⟨_, .visited disk location ih.choose_spec⟩
  | opened disk path _ ih => exact ⟨_, .opened disk path ih.choose_spec⟩
  | shown disk text origin _ ih => exact ⟨_, .shown disk text origin ih.choose_spec⟩

/-- The requests stay numbered whatever happens, and no number is given back. -/
theorem Attained.numbersOn {first engine : Engine} (attained : Attained first engine)
    (numbered : first.Numbered) :
    engine.Numbered ∧ first.session.count ≤ engine.session.count := by
  obtain ⟨happened, chronicled⟩ := attained.chronicled
  obtain ⟨still, count⟩ := narrates_numbers.chronicled chronicled numbered
  exact ⟨still, count ▸ Nat.le_add_right _ _⟩

/-- In every run from a new engine the requests are numbered. -/
theorem Attained.numbered {disk : Disk} {source : String} {settings : Settings}
    {first engine : Engine} (created : Engine.create disk source settings = .ok first)
    (attained : Attained first engine) : engine.Numbered := by
  obtain ⟨projectRoot, rfl⟩ := exists_of_create created
  exact (attained.numbersOn rfl).1

/-- After an order that sends a message the request of the message is one that was sent. -/
theorem request_lt_obey {world : World} {engine : Engine} {order : Order} {sending : Sending}
    (numbered : engine.Numbered) (sends : engine.sending? world order = some sending) :
    sending.request < (engine.obey world order).session.count := by
  have early : ∀ id answers, order ≠ .answered id answers := by
    rintro id answers rfl
    contradiction
  have count := (@Narrates.obey _ _ _ narrates_numbers world engine order numbered).2
  rw [happenings_of_early world engine early, sends] at count
  rw [(numbered.sent sends).2.2, count]
  exact Nat.lt_add_of_pos_right (Nat.zero_lt_succ _)

end Engine
end EvalDesk
