import EvalDesk.Proofs.Engine.Advance

/-!
# Complaints and their marks

Error output that comes back for an evaluation is a complaint. It leaves at most one diagnostic,
that of its first line that has one, and draws at most one decoration, where the diagnostic belongs.
The complaints among some answers are listed here as the answers are heard, and what is marked
afterwards is what was marked before with the marks of the complaints behind it.
-/
namespace EvalDesk

/-- The decoration of a placement. -/
def Placement.decoration (placement : Placement) : Decoration :=
  .between placement.target placement.start placement.stop placement.severity.word placement.text
    placement.line

/-- Error output that comes back for an evaluation. -/
structure Complaint where
  /-- The place of the evaluation among the requests. -/
  request : Nat
  /-- Where the code of the evaluation comes from. -/
  origin : Origin
  /-- What was written. -/
  output : Datum
  /-- The file tree in which sources are looked for. -/
  disk : Disk
  /-- The engine to which it comes back. -/
  engine : Engine

namespace Complaint

/-- The diagnostic a complaint leaves: that of the first line that has one, if the transcript takes
the output and the output has lines. -/
def diagnostic? (complaint : Complaint) : Option Diagnostic :=
  match (complaint.engine.state.append .errorOutput complaint.output).2,
      Engine.errorLines complaint.output with
  | .ok _, .ok lines => Engine.firstDiagnostic? lines
  | _, _ => none

/-- The decoration a complaint draws: that of its diagnostic, if it can be placed. -/
def decoration? (complaint : Complaint) : Option Decoration :=
  complaint.diagnostic?.bind fun diagnostic =>
    match place diagnostic complaint.origin (complaint.engine.openBuffer complaint.disk) with
    | .ok (placement, _) => placement.map Placement.decoration
    | .error _ => none

/-- A complaint is for one of some requests, which is an evaluation from its origin. -/
def IsFor (complaint : Complaint) (requests : List (Datum × Topic Purpose)) : Prop :=
  (requests[complaint.request]?).map (·.2) = some (.work (.evaluation complaint.origin))

/-- A complaint that is for a request stays so when further requests are sent. -/
theorem IsFor.mono {complaint : Complaint} {requests more : List (Datum × Topic Purpose)}
    (own : complaint.IsFor requests) (prefixed : requests <+: more) : complaint.IsFor more :=
  Engine.request_mono prefixed own

/-- A complaint that draws something has a diagnostic. -/
theorem isSome_diagnostic? {complaint : Complaint} (drawn : complaint.decoration?.isSome) :
    complaint.diagnostic?.isSome := by
  cases found : complaint.diagnostic? with
  | none =>
    rw [decoration?, found] at drawn
    contradiction
  | some diagnostic => rfl

end Complaint

namespace Engine

/-- What is marked: the diagnostics and the decorations. -/
def marks (engine : Engine) : List Diagnostic × Decorations :=
  (engine.state.diagnostics, engine.decorations)

/-- What is marked between two states are the marks of some complaints, in order. -/
structure Marked (complaints : List Complaint) (before after : Engine) : Prop where
  /-- The diagnostics. -/
  diagnostics : after.state.diagnostics =
    before.state.diagnostics ++ complaints.filterMap Complaint.diagnostic?
  /-- The decorations. -/
  decorations : after.decorations = before.decorations ++
    complaints.filterMap Complaint.decoration?

/-- Without complaints what is marked stays as it is. -/
theorem marked_nil_iff {before after : Engine} :
    Marked [] before after ↔ after.marks = before.marks := by
  constructor
  · rintro ⟨diagnostics, decorations⟩
    simp only [List.filterMap_nil, List.append_nil] at diagnostics decorations
    exact Prod.ext diagnostics decorations
  · intro same
    obtain ⟨diagnostics, decorations⟩ := Prod.mk.inj same
    exact ⟨by simpa using diagnostics, by simpa using decorations⟩

/-- Complaints that come one after the other are marked in this order. -/
theorem Marked.trans {first second : List Complaint} {before middle after : Engine}
    (earlier : Marked first before middle) (later : Marked second middle after) :
    Marked (first ++ second) before after := by
  constructor
  · rw [later.diagnostics, earlier.diagnostics, List.filterMap_append, List.append_assoc]
  · rw [later.decorations, earlier.decorations, List.filterMap_append, List.append_assoc]

/-- What happens after a complaint may mark nothing. -/
theorem Marked.of_after {complaints : List Complaint} {before middle after : Engine}
    (earlier : Marked complaints before middle) (same : after.marks = middle.marks) :
    Marked complaints before after := by
  have both := earlier.trans (marked_nil_iff.mpr same)
  rwa [List.append_nil] at both

/-- One complaint. -/
theorem marked_singleton {complaint : Complaint} {before after : Engine}
    (added : after.marks = (before.state.diagnostics ++ complaint.diagnostic?.toList,
      before.decorations ++ complaint.decoration?.toList)) : Marked [complaint] before after := by
  obtain ⟨diagnostics, decorations⟩ := Prod.mk.inj added
  constructor
  · rw [diagnostics, List.filterMap_cons]
    cases complaint.diagnostic? <;> rfl
  · rw [decorations, List.filterMap_cons]
    cases complaint.decoration? <;> rfl

/-- What reports a failure marks what the action marks. -/
theorem marks_reporting (engine : Engine) (action : Action Unit) :
    (engine.reporting action).marks = (engine.perform action).1.marks := by
  rw [reporting]
  cases engine.perform action with
  | mk after result => cases result <;> rfl

/-! ## Events -/

/-- Sources mark nothing. -/
theorem sourceless_marks : Sourceless marks where
  status _ _ := rfl
  opened _ _ := rfl
  projectRoot _ _ := rfl
  unwatched engine := by
    unfold stopWatching
    split <;> rfl
  watched _ _ _ _ := rfl
  reloaded _ _ _ := rfl
  shown _ _ := rfl

/-- The end of a request marks nothing. -/
theorem complete_keeps_marks (statuses : List String) (id : Datum) :
    Keeps marks (complete statuses id) :=
  complete_keeps (fun _ _ => rfl) (fun _ _ _ _ => rfl) statuses id

/-- Events of a request for a definition mark nothing. -/
theorem definitionEvent_keeps_marks (disk : Disk) (symbol : String) (event : Event) :
    Keeps marks (definitionEvent disk symbol event) := by
  cases event with
  | value result ns id => exact keeps_bind (keeps_lift _) fun _ => keeps_modify fun _ => rfl
  | output text id => exact keeps_pure _
  | errorOutput text id => exact fun _ => rfl
  | completed statuses id =>
    refine keeps_bind (complete_keeps_marks statuses id) fun _ => keeps_bind keeps_get fun _ => ?_
    split
    · exact keeps_modify fun _ => rfl
    · exact sourceless_marks.keeps_showDefinition (fun _ _ _ => rfl) disk symbol _

/-- Events of a request for documentation mark nothing. -/
theorem documentationEvent_keeps_marks (symbol : String) (event : Event) :
    Keeps marks (documentationEvent symbol event) :=
  keeps_documentationEvent (fun _ _ => rfl) (fun _ _ => rfl) (fun _ _ _ _ => rfl) symbol event

/-- The complaint in a notice of a request, if it is one. -/
def complaintOf (disk : Disk) (index : Nat) (engine : Engine) : Notice Purpose → Option Complaint
  | .event (.evaluation origin) (.errorOutput output _) =>
    some ⟨index, origin, output, disk, engine⟩
  | _ => none

/-- Events that are no complaints mark nothing. -/
theorem purposeEvent_keeps_marks (disk : Disk) (purpose : Purpose) {event : Event}
    (quiet : ∀ index engine, complaintOf disk index engine (.event purpose event) = none) :
    Keeps marks (purposeEvent disk purpose event) := by
  cases purpose with
  | evaluation origin =>
    have apart : Resultless marks :=
      ⟨fun _ _ _ => rfl, fun _ _ => rfl, fun _ _ => rfl, fun _ _ _ _ => rfl⟩
    refine fun engine => apart.keeps_quiet disk origin (fun text id same => ?_) engine
    subst same
    exact absurd (quiet 0 engine) (by simp [complaintOf])
  | documentation symbol => exact documentationEvent_keeps_marks symbol event
  | definition symbol => exact definitionEvent_keeps_marks disk symbol event
  | unheard => exact keeps_pure _

/-- A diagnostic is marked, and drawn if it can be placed. -/
theorem marks_addDiagnostic (disk : Disk) (diagnostic : Diagnostic) (origin : Origin)
    (engine : Engine) :
    (engine.perform (addDiagnostic disk diagnostic origin)).1.marks =
      (engine.state.diagnostics ++ [diagnostic], engine.decorations ++
        match place diagnostic origin (engine.openBuffer disk) with
        | .ok (placement, _) => (placement.map Placement.decoration).toList
        | .error _ => []) := by
  have noted : (engine.withState (·.addDiagnostic diagnostic)).openBuffer disk =
      engine.openBuffer disk := rfl
  simp only [addDiagnostic, perform_bind, perform_modify, perform_get, perform_lift, noted]
  cases place diagnostic origin (engine.openBuffer disk) with
  | error fault => simp [marks, withState, DeskState.addDiagnostic]
  | ok found =>
    obtain ⟨placement, opened⟩ := found
    cases placement with
    | none => simp [marks, withState, DeskState.addDiagnostic, perform_pure]
    | some placement => rfl

/-- Error output of an evaluation is marked as a complaint. -/
theorem marked_errorOutput (disk : Disk) (index : Nat) (origin : Origin) (output id : Datum)
    (engine : Engine) :
    Marked [⟨index, origin, output, disk, engine⟩] engine
      (engine.perform (evaluationEvent disk origin (.errorOutput output id))).1 := by
  let complaint : Complaint := ⟨index, origin, output, disk, engine⟩
  let taken := { engine with state := (engine.state.append .errorOutput output).1 }
  have performed : (engine.perform (evaluationEvent disk origin (.errorOutput output id))).1.marks =
      (engine.state.diagnostics ++ complaint.diagnostic?.toList,
        engine.decorations ++ complaint.decoration?.toList) := by
    rw [evaluationEvent, perform_bind, perform_append]
    cases added : (engine.state.append .errorOutput output).2 with
    | error fault =>
      simp only [complaint, Complaint.decoration?, Complaint.diagnostic?, added, Option.bind_none,
        Option.toList_none, List.append_nil]
      rfl
    | ok =>
      simp only [showDiagnostic, perform_bind, perform_lift]
      cases read : errorLines output with
      | error fault =>
        simp only [complaint, Complaint.decoration?, Complaint.diagnostic?, added, read,
          Option.bind_none, Option.toList_none, List.append_nil]
        rfl
      | ok lines =>
        cases first : firstDiagnostic? lines with
        | none =>
          simp only [complaint, Complaint.decoration?, Complaint.diagnostic?, added, read, first,
            Option.bind_none, Option.toList_none, List.append_nil]
          rfl
        | some diagnostic =>
          have opens : taken.openBuffer disk = engine.openBuffer disk := rfl
          have marked := marks_addDiagnostic disk diagnostic origin taken
          rw [opens] at marked
          simp only [complaint, Complaint.decoration?, Complaint.diagnostic?, added, read, first,
            Option.bind_some, Option.toList_some]
          refine marked.trans ?_
          cases place diagnostic origin (engine.openBuffer disk) <;> rfl
  exact marked_singleton performed

/-! ## Answers -/

/-- The complaints among notices of a request, each with the engine that takes it. -/
def complaintsAmong (disk : Disk) (index : Nat) : Engine → List (Notice Purpose) → List Complaint
  | _, [] => []
  | engine, notice :: rest =>
    (complaintOf disk index engine notice).toList ++
      complaintsAmong disk index (takeNotice disk engine notice) rest

/-- The complaints among answers to a request, as they are heard. -/
def complaintsHeard (disk : Disk) (index : Nat) : Engine → List Table → List Complaint
  | _, [] => []
  | engine, answer :: rest =>
    match engine.session.receive index answer with
    | .error _ => []
    | .ok (session, notices) =>
      complaintsAmong disk index { engine with session } notices ++
        complaintsHeard disk index (notices.foldl (takeNotice disk) { engine with session }) rest

/-- The complaints that come back while a message is sent. -/
def complaintsAtOnce (world : World) (engine : Engine) (message : Message)
    (topic : Topic Purpose) : List Complaint :=
  match (world.transport message).refusal with
  | some _ => []
  | none =>
    complaintsHeard world.disk engine.session.talks.length (engine.recorded message topic)
      (world.transport message).answers

/-- A notice is marked as the complaint in it. -/
theorem marked_takeNotice (disk : Disk) (index : Nat) (engine : Engine)
    (notice : Notice Purpose) :
    Marked (complaintOf disk index engine notice).toList engine
      (takeNotice disk engine notice) := by
  cases found : complaintOf disk index engine notice with
  | some complaint =>
    obtain ⟨origin, output, id, rfl, rfl⟩ : ∃ origin output id,
        notice = .event (.evaluation origin) (.errorOutput output id) ∧
        complaint = ⟨index, origin, output, disk, engine⟩ := by
      unfold complaintOf at found
      split at found
      · exact ⟨_, _, _, rfl, (Option.some.inj found).symm⟩
      · contradiction
    exact (marked_errorOutput disk index origin output id engine).of_after
      (marks_reporting engine _)
  | none =>
    apply marked_nil_iff.mpr
    cases notice with
    | ready identity => rfl
    | event purpose event =>
      by_cases heard : purpose = .unheard
      · rw [heard]
        rfl
      · rw [takeNotice_heard disk heard, marks_reporting]
        refine purposeEvent_keeps_marks disk purpose (fun other now => ?_) engine
        unfold complaintOf at found ⊢
        split at found
        · contradiction
        · rfl

/-- Notices are marked as the complaints among them. -/
theorem marked_takeNotices (disk : Disk) (index : Nat) (notices : List (Notice Purpose))
    (engine : Engine) : Marked (complaintsAmong disk index engine notices) engine
      (notices.foldl (takeNotice disk) engine) := by
  induction notices generalizing engine with
  | nil => exact marked_nil_iff.mpr rfl
  | cons notice rest ih => exact (marked_takeNotice disk index engine notice).trans (ih _)

/-- Answers are marked as the complaints among them. -/
theorem marked_hearAll (disk : Disk) (index : Nat) (answers : List Table) (engine : Engine) :
    Marked (complaintsHeard disk index engine answers) engine
      (hearAll (hear disk index) engine answers).1 := by
  induction answers generalizing engine with
  | nil => exact marked_nil_iff.mpr rfl
  | cons answer rest ih =>
    rw [complaintsHeard, hearAll, hear]
    cases engine.session.receive index answer with
    | error fault => exact marked_nil_iff.mpr rfl
    | ok result =>
      obtain ⟨session, notices⟩ := result
      have same : Marked [] engine { engine with session } := marked_nil_iff.mpr rfl
      exact (same.trans (marked_takeNotices disk index notices _)).trans (ih _)

/-- Sending is marked as the complaints that come back meanwhile. -/
theorem marked_send (world : World) (message : Message) (topic : Topic Purpose)
    (engine : Engine) : Marked (complaintsAtOnce world engine message topic) engine
      (engine.perform (send world message topic)).1 := by
  let sent := { engine.emit (.sent message) with session := engine.session.record message topic }
  rw [perform_send_exchange, hearExchange, complaintsAtOnce, recorded]
  cases (world.transport message).refusal with
  | some fault => exact marked_nil_iff.mpr rfl
  | none =>
    have heard := marked_hearAll world.disk engine.session.talks.length
      (world.transport message).answers sent
    simp only
    revert heard
    cases hearAll (hear world.disk engine.session.talks.length) sent
        (world.transport message).answers with
    | mk after fault =>
      intro heard
      have same : Marked [] engine sent := marked_nil_iff.mpr rfl
      cases fault with
      | some fault => exact same.trans heard
      | none => cases (world.transport message).breakage <;> exact same.trans heard

/-! ## For which requests they come back -/

/-- Only requests whose events go to a purpose have notices of events, and only for this purpose. -/
theorem topic_of_receive {session after : Session Purpose} {index : Nat} {answer : Table}
    {notices : List (Notice Purpose)} {purpose : Purpose} {event : Event}
    (received : session.receive index answer = .ok (after, notices))
    (told : .event purpose event ∈ notices) :
    (session.requests[index]?).map (·.2) = some (.work purpose) := by
  obtain ⟨_, silent | ⟨own, words, statuses, request, _, rfl⟩⟩ := receive_cases received
  · exact absurd told (silent purpose event)
  · obtain ⟨event, _, same⟩ := List.mem_map.mp told
    cases same
    exact request

/-- A complaint among notices is for their request, and its origin is that of an event. -/
theorem mem_complaintsAmong {disk : Disk} {index : Nat} {notices : List (Notice Purpose)}
    {engine : Engine} {complaint : Complaint}
    (member : complaint ∈ complaintsAmong disk index engine notices) :
    complaint.request = index ∧ ∃ event, .event (.evaluation complaint.origin) event ∈ notices := by
  induction notices generalizing engine with
  | nil => contradiction
  | cons notice rest ih =>
    rcases List.mem_append.mp member with first | later
    · have found := Option.mem_toList.mp first
      unfold complaintOf at found
      split at found
      · cases found
        exact ⟨rfl, _, .head _⟩
      · contradiction
    · obtain ⟨request, event, told⟩ := ih later
      exact ⟨request, event, .tail _ told⟩

/-- A complaint among answers is for their request. -/
theorem mem_complaintsHeard {disk : Disk} {index : Nat} {answers : List Table} {engine : Engine}
    {complaint : Complaint} (member : complaint ∈ complaintsHeard disk index engine answers) :
    complaint.request = index ∧ complaint.IsFor engine.session.requests := by
  induction answers generalizing engine with
  | nil => contradiction
  | cons answer rest ih =>
    have kept := requests_hear disk index engine answer
    rw [complaintsHeard] at member
    rw [hear] at kept
    cases received : engine.session.receive index answer with
    | error fault =>
      rw [received] at member
      contradiction
    | ok result =>
      obtain ⟨session, notices⟩ := result
      rw [received] at member kept
      rcases List.mem_append.mp member with first | later
      · obtain ⟨request, event, told⟩ := mem_complaintsAmong first
        refine ⟨request, ?_⟩
        rw [Complaint.IsFor, request]
        exact topic_of_receive received told
      · obtain ⟨request, own⟩ := ih later
        exact ⟨request, kept ▸ own⟩

end Engine
end EvalDesk
