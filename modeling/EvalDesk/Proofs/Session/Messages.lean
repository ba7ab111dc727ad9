import EvalDesk.Session.Basic

/-!
# Messages and answers

The message of a request is stamped with its operation, its number, the identity of the session if
there is one and, for an evaluation, the namespace. The fields of the request are put behind these
stamps, so a stamp is found under its key unless a field names the key.

An answer tells some of this back: a new identity if its request asked for one, else perhaps a
namespace, and statuses that are kept with the request.
-/
namespace EvalDesk

/-- A table lacks a key when none of its entries has it. -/
theorem Table.has_eq_false_iff {table : Table} {key : Table.Key} :
    table.has key = false ↔ ∀ entry ∈ table, entry.1 ≠ key := by
  simp [has, get?, Option.isSome_eq_false_iff]

/-- Putting other keys leaves a key as it is. -/
theorem Table.get?_merge_of_ne {key : Table.Key} (table : Table) {entries : Table}
    (apart : ∀ entry ∈ entries, entry.1 ≠ key) :
    (table.merge entries).get? key = table.get? key := by
  induction entries generalizing table with
  | nil => rfl
  | cons entry rest ih =>
    have other := apart entry (.head _)
    have later := ih (table.put entry.1 entry.2) fun more member => apart more (.tail _ member)
    exact later.trans (get?_put_of_ne table entry.2 other.symm)

/-- Different numbers are written differently. -/
theorem toString_injective {first second : Nat} (same : toString first = toString second) :
    first = second := by
  have digits : Nat.toDigits 10 first = Nat.toDigits 10 second := String.ofList_injective same
  rw [← Nat.ofDigitChars_toDigits (n := first) (by decide) (Nat.le_refl 10), digits,
    Nat.ofDigitChars_toDigits (by decide) (Nat.le_refl 10)]

/-- Texts as the items of a status are the statuses. -/
theorem Event.mapM_statusText (words : List String) :
    (words.map Datum.text).mapM statusText = .ok words := by
  induction words with
  | nil => rfl
  | cons word rest ih =>
    rw [List.map_cons, List.mapM_cons, ih]
    rfl

namespace Session

section Stamps

variable {Purpose : Type} (session : Session Purpose)

/-- Under a key that no field names the message has what it is stamped with. -/
theorem get?_message (op : String) {fields : Table} {key : Table.Key}
    (apart : ∀ entry ∈ fields, entry.1 ≠ key) :
    (session.message op fields).get? key = (session.stamps op fields).get? key :=
  Table.get?_merge_of_ne _ fun entry member => apart entry (List.mem_filter.mp member).1

/-- The number of a request is the next one, unless its fields give another. -/
theorem get_message_id (op : String) {fields : Table} (apart : ∀ entry ∈ fields, entry.1 ≠ "id") :
    (session.message op fields).get "id" = .text session.nextId := by
  rw [Table.get, session.get?_message op apart]
  rfl

/-- A message carries its operation, unless its fields give another. -/
theorem get_message_op (op : String) {fields : Table} (apart : ∀ entry ∈ fields, entry.1 ≠ "op") :
    (session.message op fields).get "op" = .text op := by
  rw [Table.get, session.get?_message op apart]
  rfl

/-- A message carries the identity of the session if there is one, unless its fields give
another. -/
theorem get?_session_message (op : String) {fields : Table}
    (apart : ∀ entry ∈ fields, entry.1 ≠ "session") :
    (session.message op fields).get? "session" =
      if session.identity.isPresent then some session.identity else none := by
  rw [session.get?_message op apart, stamps]
  by_cases identified : session.identity.isPresent = true
  · rw [if_pos identified, if_pos identified]
    rfl
  · rw [if_neg identified, if_neg identified]
    split <;> rfl

/-- A message that is to be evaluated carries the namespace of the session, unless its fields give
another. -/
theorem get?_ns_message {fields : Table} (apart : ∀ entry ∈ fields, entry.1 ≠ "ns") :
    (session.message "eval" fields).get? "ns" = some session.ns := by
  rw [session.get?_message "eval" apart, stamps, Table.has_eq_false_iff.mpr apart]
  by_cases identified : session.identity.isPresent = true
  · rw [if_pos identified]
    rfl
  · rw [if_neg identified]
    rfl

variable {session} in
/-- A message has the operation it was made with, unless its fields give another. -/
theorem op_of_message {op name : String} {fields : Table}
    (apart : ∀ entry ∈ fields, entry.1 ≠ "op")
    (named : (session.message op fields).get? "op" = some (.text name)) : op = name := by
  rw [session.get?_message op apart] at named
  exact Datum.text.inj (Option.some.inj named)

end Stamps

variable {Purpose : Type} {session : Session Purpose} {index : Nat} {talk : Talk Purpose}
  {answer : Table}

/-- The statuses that can be read off an answer. -/
def words (answer : Table) : List String := (Event.statuses answer).toOption.getD []

/-- The namespace that an answer with a value tells, if it is present. -/
def toldNs? (answer : Table) : Option Datum :=
  match answer.get? "value" with
  | none => none
  | some _ => if (answer.get "ns").isPresent then some (answer.get "ns") else none

/-- The identity that an answer tells, if it is present. -/
def toldIdentity? (answer : Table) : Option Datum :=
  if (answer.get "new-session").isPresent then some (answer.get "new-session") else none

/-- The events of an answer lead to the namespace that it tells. -/
theorem foldl_nsAfter_told (answer : Table) (read gathered : List String) (ns : Datum) :
    ((Event.ofAnswer answer read).map (told gathered)).foldl nsAfter ns =
      (toldNs? answer).getD ns := by
  simp only [toldNs?, Event.ofAnswer]
  by_cases present : (answer.get "ns").isPresent = true <;> cases answer.get? "value" <;>
    cases answer.get? "out" <;> cases answer.get? "err" <;>
      cases read.contains Event.doneStatus <;> simp [told, nsAfter, present]

/-- New statuses of a request leave what the requests are for. -/
theorem topics_set (found : session.talks[index]? = some talk) (statuses : List String) :
    (session.talks.set index { talk with statuses }).map (·.topic) =
      session.talks.map (·.topic) := by
  obtain ⟨inside, rfl⟩ := List.getElem?_eq_some_iff.mp found
  refine List.ext_getElem (by simp) fun place _ _ => ?_
  rw [List.getElem_map, List.getElem_map, List.getElem_set]
  split
  · rename_i same
    subst same
    rfl
  · rfl

/-- An answer to a request for an identity changes the identity to the one it tells. Another answer
adds its statuses to those of its request and changes the namespace to the one it tells; its events
tell all statuses of the request at its end. An answer that cannot be read is not taken. -/
theorem receive_taken {after : Session Purpose} {notices : List (Notice Purpose)}
    (found : session.talks[index]? = some talk)
    (taken : session.receive index answer = .ok (after, notices)) :
    (∃ wanted, talk.topic = .identity wanted ∧
      after = { session with identity := (toldIdentity? answer).getD session.identity } ∧
      ∀ purpose event, .event purpose event ∉ notices) ∨
    (∃ purpose read, talk.topic = .work purpose ∧ Event.statuses answer = .ok read ∧
      after = { session with
        talks := session.talks.set index { talk with statuses := gather talk.statuses read }
        ns := (toldNs? answer).getD session.ns } ∧
      notices = ((Event.ofAnswer answer read).map (told (gather talk.statuses read))).map
        (Notice.event purpose)) := by
  rw [receive, found] at taken
  cases topic : talk.topic with
  | identity wanted =>
    simp only [topic] at taken
    rw [toldIdentity?]
    split at taken
    · rename_i present
      cases taken
      refine .inl ⟨wanted, rfl, ?_, fun _ _ member => by cases wanted <;> simp at member⟩
      rw [if_pos present]
      rfl
    · rename_i absent
      cases taken
      refine .inl ⟨wanted, rfl, ?_, fun _ _ => List.not_mem_nil⟩
      rw [if_neg absent]
      rfl
  | work purpose =>
    simp only [topic] at taken
    cases readable : Event.statuses answer with
    | error fault => simp only [readable, bind, Except.bind, reduceCtorEq] at taken
    | ok read =>
      simp only [readable, bind, Except.bind, pure, Except.pure, foldl_nsAfter_told] at taken
      cases taken
      exact .inr ⟨purpose, read, rfl, rfl, by rw [← topic], rfl⟩

end Session

end EvalDesk
