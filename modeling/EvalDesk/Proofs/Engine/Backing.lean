import EvalDesk.Proofs.Engine.Cycle
import EvalDesk.Proofs.Engine.Holdings
import EvalDesk.Proofs.Placement.Landing

/-!
# What is drawn is known

Diagnostics and decorations are kept apart: a new cycle forgets both, and a complaint adds a
diagnostic first and then a decoration, if the diagnostic can be placed. Whatever goes wrong in
between, nothing is drawn that is not known: read by what they say and how bad it is, the
decorations are some of the diagnostics, in their order.
-/
namespace EvalDesk

/-- What a decoration says, and the word for how bad it is. -/
def Decoration.label (decoration : Decoration) : String × String :=
  (decoration.text, decoration.style)

/-- What a diagnostic says, and the word for how bad it is. -/
def Diagnostic.label (diagnostic : Diagnostic) : String × String :=
  (diagnostic.message, diagnostic.severity.word)

/-- In a buffer a diagnostic is drawn by what it says, over whichever span. -/
theorem label_of_placeIn {diagnostic : Diagnostic} {target : String} {line : Int} {buffer : Buffer}
    {placement : Placement} (drawn : diagnostic.placeIn target line buffer = .ok (some placement)) :
    placement.decoration.label = diagnostic.label := by
  obtain ⟨_, _, _, _, _, rfl⟩ := Diagnostic.placeIn_cases drawn
  rfl

/-- A diagnostic is drawn by what it says. -/
theorem label_of_place {σ : Type} {diagnostic : Diagnostic} {origin : Origin}
    {opener : Opener σ} {placement : Placement} {left : Option σ}
    (placed : place diagnostic origin opener = .ok (some placement, left)) :
    placement.decoration.label = diagnostic.label := by
  rcases place_cases placed with ⟨nothing, _⟩ | ⟨_, _, _, _, drawn⟩
  · contradiction
  · exact label_of_placeIn drawn

/-- A complaint that draws something has a diagnostic that can be placed. -/
theorem Complaint.exists_placement {complaint : Complaint} {decoration : Decoration}
    (drawn : complaint.decoration? = some decoration) :
    ∃ diagnostic placement left, complaint.diagnostic? = some diagnostic ∧
      place diagnostic complaint.origin (complaint.engine.openBuffer complaint.disk) =
        .ok (some placement, left) ∧ placement.decoration = decoration := by
  obtain ⟨diagnostic, found, drawn⟩ := Option.bind_eq_some_iff.mp drawn
  cases placed : place diagnostic complaint.origin
      (complaint.engine.openBuffer complaint.disk) with
  | error fault =>
    rw [placed] at drawn
    cases drawn
  | ok result =>
    obtain ⟨placement, left⟩ := result
    rw [placed] at drawn
    obtain ⟨placement, rfl, same⟩ := Option.map_eq_some_iff.mp drawn
    exact ⟨diagnostic, placement, left, found, placed, same⟩

/-- A complaint is drawn by what its diagnostic says. -/
theorem Complaint.exists_diagnostic {complaint : Complaint} {decoration : Decoration}
    (drawn : complaint.decoration? = some decoration) :
    ∃ diagnostic, complaint.diagnostic? = some diagnostic ∧
      decoration.label = diagnostic.label := by
  obtain ⟨diagnostic, _, _, found, placed, rfl⟩ := complaint.exists_placement drawn
  exact ⟨diagnostic, found, label_of_place placed⟩

/-- Decorations are backed by diagnostics: by what they say they are some of them, in order. -/
def Decorations.Backed (decorations : Decorations) (diagnostics : List Diagnostic) : Prop :=
  (decorations.map Decoration.label).Sublist (diagnostics.map Diagnostic.label)

namespace Decorations.Backed

variable {decorations more : Decorations} {diagnostics further : List Diagnostic}

/-- What is added on both sides stays backed. -/
theorem append (backed : decorations.Backed diagnostics) (added : more.Backed further) :
    Backed (decorations ++ more) (diagnostics ++ further) := by
  rw [Backed, List.map_append, List.map_append]
  exact List.Sublist.append backed added

/-- There are no more decorations than diagnostics. -/
theorem length_le (backed : decorations.Backed diagnostics) :
    decorations.length ≤ diagnostics.length := by
  simpa only [List.length_map] using List.Sublist.length_le backed

/-- On every surface they are backed. -/
theorem onSurface (backed : decorations.Backed diagnostics) (surface : String) :
    (decorations.onSurface surface).Backed diagnostics :=
  (List.filter_sublist.map Decoration.label).trans backed

end Decorations.Backed

/-- What complaints draw is backed by the diagnostics they leave. -/
theorem Complaint.backed (complaints : List Complaint) :
    Decorations.Backed (complaints.filterMap Complaint.decoration?)
      (complaints.filterMap Complaint.diagnostic?) := by
  induction complaints with
  | nil => exact List.Sublist.slnil
  | cons complaint rest ih =>
    have first : Decorations.Backed complaint.decoration?.toList
        complaint.diagnostic?.toList := by
      cases drawn : complaint.decoration? with
      | none => exact List.nil_sublist _
      | some decoration =>
        obtain ⟨diagnostic, found, same⟩ := Complaint.exists_diagnostic drawn
        have labels : [decoration].map Decoration.label = [diagnostic].map Diagnostic.label :=
          congrArg ([·]) same
        rw [found, Decorations.Backed, Option.toList_some, Option.toList_some]
        exact labels ▸ List.Sublist.refl _
    have split {β : Type} (take : Complaint → Option β) :
        (complaint :: rest).filterMap take = (take complaint).toList ++ rest.filterMap take := by
      rw [List.filterMap_cons]
      cases take complaint <;> rfl
    rw [split, split]
    exact first.append ih

namespace Engine

/-- What is drawn is backed by the diagnostics of the current cycle. -/
def Backed (engine : Engine) : Prop := engine.decorations.Backed engine.state.diagnostics

/-- What is marked decides whether it is backed. -/
theorem Backed.of_marks {engine after : Engine} (backed : engine.Backed)
    (same : after.marks = engine.marks) : after.Backed := by
  obtain ⟨diagnostics, decorations⟩ := Prod.mk.inj same
  rw [Backed, diagnostics, decorations]
  exact backed

/-- Complaints that are marked later keep what is drawn backed. -/
theorem Backed.later {complaints : List Complaint} {engine after : Engine}
    (backed : engine.Backed) (marked : Marked complaints engine after) : after.Backed := by
  rw [Backed, marked.diagnostics, marked.decorations]
  exact Decorations.Backed.append backed (Complaint.backed complaints)

/-- The marks of complaints alone are backed. -/
theorem MarkedBy.backed {complaints : List Complaint} {engine : Engine}
    (marked : engine.MarkedBy complaints) : engine.Backed := by
  rw [Backed, marked.diagnostics, marked.decorations]
  exact Complaint.backed complaints

/-- An order keeps what is drawn backed, whatever fails on the way. -/
theorem Backed.obey {engine : Engine} (backed : engine.Backed) (world : World) (order : Order) :
    (engine.obey world order).Backed := by
  cases started : engine.evaluation? world order with
  | some evaluation =>
    rw [obey_evaluation world started]
    exact (evaluation.markedBy world).backed
  | none =>
    rcases order.late_or_early with ⟨id, answers, rfl⟩ | early
    · rw [Engine.obey, deliver]
      cases engine.session.talkOf? id with
      | none => exact backed
      | some index => exact backed.later (marked_hearAll world.disk index answers engine)
    · exact backed.of_marks (marks_obey world early started)

/-- Error output that is shown keeps what is drawn backed. -/
theorem Backed.showDiagnostic {engine : Engine} (backed : engine.Backed) (disk : Disk)
    (text : Datum) (origin : Origin) :
    (engine.perform (showDiagnostic disk text origin)).1.Backed := by
  rw [Engine.showDiagnostic, perform_bind, perform_lift]
  cases errorLines text with
  | error fault => exact backed
  | ok lines =>
    dsimp only
    cases firstDiagnostic? lines with
    | none => exact backed
    | some diagnostic =>
      obtain ⟨diagnostics, decorations⟩ :=
        Prod.mk.inj (marks_addDiagnostic disk diagnostic origin engine)
      rw [Backed, diagnostics, decorations]
      refine Decorations.Backed.append backed ?_
      cases placed : place diagnostic origin (engine.openBuffer disk) with
      | error fault => exact List.nil_sublist _
      | ok found =>
        obtain ⟨_ | placement, left⟩ := found
        · exact List.nil_sublist _
        · show [placement.decoration.label].Sublist [diagnostic.label]
          exact label_of_place placed ▸ List.Sublist.refl _

/-- Whatever a new engine comes to, what is drawn is backed. -/
theorem Attained.backed {disk : Disk} {source : String} {settings : Settings}
    {first engine : Engine} (created : Engine.create disk source settings = .ok first)
    (attained : Attained first engine) : engine.Backed := by
  induction attained with
  | start =>
    obtain ⟨projectRoot, rfl⟩ := exists_of_create created
    exact List.Sublist.slnil
  | order world order _ backed => exact backed.obey world order
  | cleared => exact List.Sublist.slnil
  | @stopped engine _ backed => exact backed.of_marks (sourceless_marks.unwatched engine)
  | @loaded engine disk _ backed =>
    exact backed.of_marks (sourceless_marks.keeps_loadSource disk engine)
  | @visited engine disk location _ backed =>
    exact backed.of_marks (sourceless_marks.keeps_visit disk location engine)
  | @opened engine disk path _ backed =>
    exact backed.of_marks (keeps_openPath sourceless_marks.opened disk path engine)
  | shown disk text origin _ backed => exact backed.showDiagnostic disk text origin

/-- Whatever is asked of an engine, comes back or fails, every decoration is backed by a current
diagnostic. There are at most as many decorations as diagnostics; on all surfaces together and on
each of them the decorations say, in the order they were made, what some of the diagnostics say in
their order, each in the style of its severity; and without diagnostics nothing is drawn. -/
theorem decorations_backed_by_diagnostics {disk : Disk} {source : String} {settings : Settings}
    {first engine : Engine} (created : Engine.create disk source settings = .ok first)
    (attained : Attained first engine) :
    engine.decorations.length ≤ engine.state.diagnostics.length ∧
      (engine.decorations.map fun decoration => (decoration.text, decoration.style)).Sublist
        (engine.state.diagnostics.map fun diagnostic =>
          (diagnostic.message, diagnostic.severity.word)) ∧
      (∀ surface, ((engine.decorations.onSurface surface).map fun decoration =>
          (decoration.text, decoration.style)).Sublist
        (engine.state.diagnostics.map fun diagnostic =>
          (diagnostic.message, diagnostic.severity.word))) ∧
      (engine.state.diagnostics = [] → engine.decorations = []) := by
  have backed : engine.decorations.Backed engine.state.diagnostics := attained.backed created
  refine ⟨backed.length_le, backed, backed.onSurface, fun nothing => ?_⟩
  have none_more := backed.length_le
  rw [nothing] at none_more
  exact List.length_eq_zero_iff.mp (Nat.le_zero.mp none_more)

/-- A complaint about the first form draws one decoration, which says what its diagnostic says. -/
theorem decorations_backed_by_diagnostics_once :
    ∃ first, Engine.create (soleWorld "(a)\n(b)").disk "/a.clj" plainSettings = .ok first ∧
      let engine := (ordered (soleWorld "(a)\n(b)") first complainedOnce).1
      Attained first engine ∧ engine.decorations.length = 1 ∧
        (engine.decorations.map fun decoration => (decoration.text, decoration.style)).Sublist
          (engine.state.diagnostics.map fun diagnostic =>
            (diagnostic.message, diagnostic.severity.word)) := by
  obtain ⟨first, created, drawn⟩ := @exists_created _ (soleWorld "(a)\n(b)").disk "/a.clj"
    plainSettings (fun first =>
      (ordered (soleWorld "(a)\n(b)") first complainedOnce).1.decorations.length) 1
    (by decide +kernel)
  have attained : Attained first (ordered (soleWorld "(a)\n(b)") first complainedOnce).1 :=
    .order (soleWorld "(a)\n(b)") (.answered (.text "2") [complaintAnswer "1"])
      (.order (soleWorld "(a)\n(b)") (.topLevel 0)
        (.order (soleWorld "(a)\n(b)") .start .start))
  exact ⟨first, created, attained, drawn,
    (decorations_backed_by_diagnostics created attained).2.1⟩

end Engine
end EvalDesk
