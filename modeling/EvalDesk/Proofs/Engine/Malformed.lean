import EvalDesk.Proofs.Datum.Writable
import EvalDesk.Proofs.Engine.InStep

/-!
# Answers that cannot be taken

The events of an answer are taken one by one, and one that cannot be taken becomes the status. But
before that the statuses of the answer are read, to find out whether the request has ended. They
cannot be read when the status is of a kind that has no words, when one of its words is bytes that
are not UTF-8, and when an integer in a word is too long to be shown. Then the fault goes back to
the far end that gave the answer, and nothing has changed. An event that cannot be taken leaves
behind what was done for it by then, which is never the source, its watch, what is drawn, the
documentation or the definition.
-/
namespace EvalDesk

/-- A word of a status can be read: bytes that are UTF-8, or other data that can be shown. -/
def Event.ReadableWord : Datum → Prop
  | .bytes encoded => ∃ text, Text.Utf8.decode encoded = .ok text
  | other => other.Writable

/-- The status of an answer can be read: it does not count as present, or it is a text, or bytes, a
list or a table whose only word, whose items or whose keys can be read. -/
def Event.Readable (status : Datum) : Prop :=
  status.isPresent = false ∨
    match status with
    | .text _ => True
    | .bytes encoded => ReadableWord (.bytes encoded)
    | .list items => ∀ item ∈ items, ReadableWord item
    | .table entries => ∀ key ∈ Table.keys entries, ReadableWord key.datum
    | _ => False

/-- The text of a word is found exactly when the word can be read. -/
theorem Event.exists_statusText_iff (word : Datum) :
    (∃ text, statusText word = .ok text) ↔ ReadableWord word := by
  cases word with
  | bytes encoded => exact Fallible.exists_mapError_iff
  | _ => exact Datum.exists_shown_iff_writable

/-- The statuses of an answer are found exactly when its status can be read. -/
theorem Event.exists_statuses_iff (answer : Table) :
    (∃ words, statuses answer = .ok words) ↔ Readable (answer.get "status") := by
  simp only [statuses, Readable]
  generalize answer.get "status" = status
  cases present : status.isPresent with
  | false => simp
  | true =>
    simp only [Bool.not_true, Bool.false_eq_true, ↓reduceIte, Bool.true_eq_false, false_or]
    cases status with
    | bytes encoded => exact Fallible.exists_map_iff.trans (exists_statusText_iff _)
    | list items => simp only [Fallible.exists_mapM_iff, exists_statusText_iff]
    | table entries => simp only [Fallible.exists_mapM_iff, exists_statusText_iff]
    | _ => simp

namespace Engine

open Fallible

/-! ## Events that cannot be taken -/

/-- What an event that cannot be taken may change: entries of the transcript, the last value, the
diagnostics, what is told of the end of the request, and the status. -/
def Stumbles (before after : Engine) : Prop :=
  ∃ transcript lastValue diagnostics pending ns status endedEarly, after =
    { before with
      endedEarly
      state := { before.state with transcript, lastValue, diagnostics, pending, ns, status } }

/-- Nothing has changed. -/
theorem Stumbles.refl (engine : Engine) : Stumbles engine engine := ⟨_, _, _, _, _, _, _, rfl⟩

/-- Such changes at two times are such a change. -/
theorem chains_stumbles : Chains Stumbles where
  refl := Stumbles.refl
  trans := by
    rintro before _ _ ⟨_, _, _, _, _, _, _, rfl⟩ ⟨_, _, _, _, _, _, _, rfl⟩
    exact ⟨_, _, _, _, _, _, _, rfl⟩

/-- An action that fails changes no more than an event that cannot be taken may. -/
def FailsSafely {α : Type} (action : Action α) : Prop :=
  ∀ engine after fault, engine.perform action = (after, .error fault) → Stumbles engine after

section FailsSafely

variable {α β : Type}

/-- An action that changes no more than that anyway. -/
theorem failsSafely_of_leads {action : Action α} (leads : Leads Stumbles action) :
    FailsSafely action := by
  intro engine after fault failed
  have led : Stumbles engine (engine.perform action).1 := leads engine
  rwa [failed] at led

/-- An action that does not fail. -/
theorem failsSafely_of_succeeds {action : Action α}
    (succeeds : ∀ engine : Engine, ∃ result, (engine.perform action).2 = .ok result) :
    FailsSafely action := by
  intro engine after fault failed
  obtain ⟨result, done⟩ := succeeds engine
  rw [failed] at done
  cases done

/-- An action behind one that changes no more than that. -/
theorem failsSafely_bind {action : Action α} {next : α → Action β} (first : Leads Stumbles action)
    (second : ∀ result, FailsSafely (next result)) : FailsSafely (action >>= next) := by
  intro engine after fault failed
  have led : Stumbles engine (engine.perform action).1 := first engine
  rw [perform_bind] at failed
  cases done : engine.perform action with
  | mk middle result =>
    rw [done] at failed led
    cases result with
    | error problem =>
      cases failed
      exact led
    | ok result => exact chains_stumbles.trans led (second result middle after fault failed)

end FailsSafely

/-- Adding an entry to the transcript. -/
theorem append_stumbles (kind : Transcript.Kind) (text : Datum) :
    Leads Stumbles (append kind text) := fun _ => ⟨_, _, _, _, _, _, _, rfl⟩

/-- The end of a request. -/
theorem complete_stumbles (statuses : List String) (id : Datum) :
    Leads Stumbles (complete statuses id) := by
  refine leads_bind chains_stumbles ?_ fun _ =>
    leads_modify fun _ => ⟨_, _, _, _, _, _, _, rfl⟩
  refine leads_bind chains_stumbles (leads_get chains_stumbles) fun engine => ?_
  split
  · split
    · exact leads_modify fun _ => ⟨_, _, _, _, _, _, _, rfl⟩
    · exact leads_throw chains_stumbles _
    · exact leads_throw chains_stumbles _
    · exact leads_pure chains_stumbles _
  · exact leads_pure chains_stumbles _

/-- A diagnostic that cannot be placed is remembered, but nothing is opened or drawn for it. -/
theorem addDiagnostic_failsSafely (disk : Disk) (diagnostic : Diagnostic) (origin : Origin) :
    FailsSafely (addDiagnostic disk diagnostic origin) := by
  refine failsSafely_bind (leads_modify fun _ => ⟨_, _, _, _, _, _, _, rfl⟩) fun _ => ?_
  refine failsSafely_bind (leads_get chains_stumbles) fun engine => ?_
  refine failsSafely_bind (leads_lift chains_stumbles _) fun found => ?_
  obtain ⟨placement, opened⟩ := found
  refine failsSafely_of_succeeds fun engine => ?_
  cases placement <;> exact ⟨(), rfl⟩

/-- An event of an evaluation. -/
theorem evaluationEvent_failsSafely (disk : Disk) (origin : Origin) (event : Event) :
    FailsSafely (evaluationEvent disk origin event) := by
  cases event with
  | value result ns id =>
    refine failsSafely_bind (leads_modify fun _ => ⟨_, _, _, _, _, _, _, rfl⟩) fun _ => ?_
    refine failsSafely_bind (append_stumbles _ _) fun _ => failsSafely_of_leads ?_
    split
    · exact leads_modify fun _ => ⟨_, _, _, _, _, _, _, rfl⟩
    · exact leads_pure chains_stumbles _
  | output text id => exact failsSafely_of_leads (append_stumbles _ _)
  | errorOutput text id =>
    refine failsSafely_bind (append_stumbles _ _) fun _ => ?_
    refine failsSafely_bind (leads_lift chains_stumbles _) fun lines => ?_
    split
    · exact failsSafely_of_leads (leads_pure chains_stumbles _)
    · exact addDiagnostic_failsSafely disk _ origin
  | completed statuses id => exact failsSafely_of_leads (complete_stumbles statuses id)

/-- An event of a request for documentation. -/
theorem documentationEvent_failsSafely (symbol : String) (event : Event) :
    FailsSafely (documentationEvent symbol event) := by
  have adds : ∀ text, FailsSafely (addDocumentation text) := by
    intro text
    unfold addDocumentation
    split
    · exact failsSafely_of_succeeds fun _ => ⟨(), rfl⟩
    · exact failsSafely_of_leads (leads_throw chains_stumbles _)
  cases event with
  | value result ns id => exact failsSafely_of_leads (leads_pure chains_stumbles _)
  | output text id => exact adds text
  | errorOutput text id => exact adds text
  | completed statuses id =>
    exact failsSafely_bind (complete_stumbles statuses id) fun _ =>
      failsSafely_of_succeeds fun _ => ⟨(), rfl⟩

/-- The source of a definition that cannot be shown changes nothing. -/
theorem showDefinition_failsSafely (disk : Disk) (symbol : String) (found : Definition) :
    FailsSafely (showDefinition disk symbol found) := by
  intro engine after fault failed
  rw [showDefinition, perform_tryCatch, perform_bind] at failed
  cases visited : engine.perform (visit disk found.location) with
  | mk middle result =>
    rw [visited] at failed
    cases result with
    | ok location => cases failed
    | error problem =>
      have same : middle = engine := visit_unchanged visited
      subst same
      dsimp only at failed
      split at failed
      · cases failed
      · cases failed
        exact .refl _

/-- An event of a request for a definition. -/
theorem definitionEvent_failsSafely (disk : Disk) (symbol : String) (event : Event) :
    FailsSafely (definitionEvent disk symbol event) := by
  cases event with
  | value result ns id =>
    exact failsSafely_bind (leads_lift chains_stumbles _) fun location =>
      failsSafely_of_succeeds fun _ => ⟨(), rfl⟩
  | output text id => exact failsSafely_of_leads (leads_pure chains_stumbles _)
  | errorOutput text id => exact failsSafely_of_leads (append_stumbles _ _)
  | completed statuses id =>
    refine failsSafely_bind (complete_stumbles statuses id) fun _ => ?_
    refine failsSafely_bind (leads_get chains_stumbles) fun engine => ?_
    split
    · exact failsSafely_of_succeeds fun _ => ⟨(), rfl⟩
    · exact showDefinition_failsSafely disk symbol _

/-- An event of a request. -/
theorem purposeEvent_failsSafely (disk : Disk) (purpose : Purpose) (event : Event) :
    FailsSafely (purposeEvent disk purpose event) := by
  cases purpose with
  | evaluation origin => exact evaluationEvent_failsSafely disk origin event
  | documentation symbol => exact documentationEvent_failsSafely symbol event
  | definition symbol => exact definitionEvent_failsSafely disk symbol event
  | unheard => exact failsSafely_of_leads (leads_pure chains_stumbles _)

/-- An event that cannot be taken becomes the status, which is told to the view. -/
theorem takeNotice_failed (disk : Disk) {engine after : Engine} {purpose : Purpose} {event : Event}
    {fault : Fault} (failed : engine.perform (purposeEvent disk purpose event) =
      (after, .error fault)) :
    takeNotice disk engine (.event purpose event) =
      (after.withStatus ("Internal Engine Error: " ++ fault.message)).notify := by
  have heard : purpose ≠ .unheard := by
    rintro rfl
    cases failed
  rw [takeNotice_heard disk heard, reporting, failed]

/-! ## Answers that cannot be taken -/

/-- In every state of the engine, and for every answer of any shape to any request for a purpose:
the answer is taken without a fault exactly if its status can be read; if it cannot, nothing has
changed. If it can, the events of the answer are taken one after another, and one that cannot be
taken becomes the status and changes at most the transcript, the last value, the diagnostics and
what is told of the end of the request. -/
theorem callback_returns_iff (disk : Disk) {index : Nat} {engine : Engine} {purpose : Purpose}
    (request : (engine.session.requests[index]?).map (·.2) = some (.work purpose))
    (answer : Table) :
    ((hear disk index engine answer).2 = none ↔ Event.Readable (answer.get "status")) ∧
    (¬Event.Readable (answer.get "status") → (hear disk index engine answer).1 = engine) ∧
    (Event.Readable (answer.get "status") → ∃ session words statuses,
      session.requests = engine.session.requests ∧ Event.statuses answer = .ok words ∧
        hear disk index engine answer = (((Event.goingOn answer ++
          if words.contains Event.doneStatus then [Event.completed statuses (answer.get "id")]
          else []).map (Notice.event purpose)).foldl (takeNotice disk)
            { engine with session }, none)) ∧
    ∀ (now after : Engine) (event : Event) (fault : Fault),
      now.perform (purposeEvent disk purpose event) = (after, .error fault) →
        Stumbles now after ∧ takeNotice disk now (.event purpose event) =
          (after.withStatus ("Internal Engine Error: " ++ fault.message)).notify := by
  obtain ⟨talk, known, topic⟩ := Session.exists_talk request
  refine ⟨?_, ?_, ?_, fun now after event fault failed =>
    ⟨purposeEvent_failsSafely disk purpose event now after fault failed,
      takeNotice_failed disk failed⟩⟩
  all_goals rw [← Event.exists_statuses_iff]
  · cases read : Event.statuses answer with
    | error fault =>
      rw [hear_unread disk known topic read]
      simp
    | ok words =>
      obtain ⟨session, statuses, received, _, _⟩ := receive_work known topic read
      simp only [hear, received]
      simp
  · intro unread
    cases read : Event.statuses answer with
    | error fault => rw [hear_unread disk known topic read]
    | ok words => exact absurd ⟨words, read⟩ unread
  · rintro ⟨words, read⟩
    obtain ⟨session, statuses, received, requests, _⟩ := receive_work known topic read
    exact ⟨session, words, statuses, requests, read, by simp only [hear, received]⟩

/-- The engine when it has asked for the value of one. -/
def askedOne (first : Engine) : Engine :=
  (first.obey (soleWorld "(a)") .start).obey (soleWorld "(a)") (.code "1" none)

/-- An answer that says that the evaluation is done is taken without a fault. -/
theorem callback_returns_iff_text :
    ∃ first, Engine.create (soleWorld "(a)").disk "/a.clj" plainSettings = .ok first ∧
      (∃ origin, ((askedOne first).session.requests[1]?).map (·.2) =
        some (.work (.evaluation origin))) ∧
      (hear (soleWorld "(a)").disk 1 (askedOne first) [("status", .text "done")]).2 = none := by
  obtain ⟨first, created, asked⟩ := @exists_created _ (soleWorld "(a)").disk "/a.clj" plainSettings
    (fun first => ((askedOne first).session.requests[1]?).map (·.2.isEvaluation)) (some true)
    (by decide +kernel)
  obtain ⟨⟨id, topic⟩, known, evaluates⟩ := Option.map_eq_some_iff.mp asked
  obtain ⟨origin, rfl⟩ := Topic.exists_of_isEvaluation evaluates
  have request : ((askedOne first).session.requests[1]?).map (·.2) =
      some (.work (.evaluation origin)) := by rw [known]; rfl
  refine ⟨first, created, ⟨origin, request⟩, ?_⟩
  exact (callback_returns_iff _ request _).1.mpr (.inr trivial)

/-- An answer with a number as its status fails in the callback of an evaluation. -/
theorem number_status_fails :
    ∃ first, Engine.create (soleWorld "(a)").disk "/a.clj" plainSettings = .ok first ∧
      Attained first (askedOne first) ∧
      ∃ fault, (hear (soleWorld "(a)").disk 1 (askedOne first) [("status", .integer 5)]).2 =
        some fault ∧ fault.message = "'int' object is not iterable" := by
  obtain ⟨first, created, told⟩ := @exists_created _ (soleWorld "(a)").disk "/a.clj" plainSettings
    (fun first => (hear (soleWorld "(a)").disk 1 (askedOne first)
      [("status", .integer 5)]).2.map Fault.message)
    (some "'int' object is not iterable") (by decide +kernel)
  obtain ⟨fault, fails, message⟩ := Option.map_eq_some_iff.mp told
  have attained : Attained first (askedOne first) := .order _ _ (.order _ .start .start)
  exact ⟨first, created, attained, fault, fails, message⟩

end Engine
end EvalDesk
