import EvalDesk.Desk.Commands
import EvalDesk.Proofs.Fallible
import EvalDesk.Proofs.Placement.Lines

/-!
# Painting the desk

Rows, panels and the status bar are painted from the stance of the desk, which does not depend on
them: the engine, the cursor, the lines that are shown and what is to be handled. So what is done at
the desk is followed on its stance. Painting succeeds when every line that is shown is a line of the
buffer, and then what comes behind it is done as well.
-/
namespace EvalDesk.Desk

open Fallible

variable {α β : Type}

/-- An action of the desk is something done on a state that may fail. -/
theorem perform_eq (desk : Desk) (action : Action α) :
    desk.perform action = Fallible.perform desk action := rfl

/-- The desk without what is painted on it and without the prompt. -/
structure Stance where
  /-- The engine. -/
  engine : Engine
  /-- The line of the cursor, counted from zero. -/
  cursor : Nat
  /-- The column of the cursor, counted from zero. -/
  column : Int
  /-- The lines that are shown. -/
  lines : List String
  /-- The path and text of the source whose lines are shown. -/
  shown : Option (String × String)
  /-- The answer with a definition that the cursor was moved to last. -/
  lastAnswer : Option Nat
  /-- What is to be handled, in order. -/
  postings : List Posting
  /-- How many effects of the engine were looked at for changes. -/
  seen : Nat

/-- The stance of the desk. -/
def stance (desk : Desk) : Stance :=
  { desk with }

/-- The action leaves the stance as it is, also when it fails. -/
def Paints (action : Action α) : Prop :=
  Leads (fun before after => after.stance = before.stance) action

/-- Painting can be done in steps. -/
theorem chains_paints : Chains fun before after : Desk => after.stance = before.stance :=
  chains_view stance

/-- What only paints leaves the stance. -/
theorem Paints.stance {action : Action α} (paints : Paints action) (desk : Desk) :
    (desk.perform action).1.stance = desk.stance := paints desk

/-- Nothing was painted but rows, the transcript and the status bar. -/
def Redraws (before after : Desk) : Prop :=
  ∃ rows generation output bar, after = { before with rows, generation, output, bar }

/-- Rows, the transcript and the status bar can be painted in steps. -/
theorem chains_redraws : Chains Redraws where
  refl desk := ⟨desk.rows, desk.generation, desk.output, desk.bar, rfl⟩
  trans := by
    rintro before middle after ⟨rows, generation, output, bar, rfl⟩ ⟨_, _, _, _, rfl⟩
    exact ⟨_, _, _, _, rfl⟩

/-- Changing a row paints rows. -/
theorem redraws_changeRow (index : Nat) (change : Row → Row) :
    Leads Redraws (changeRow index change) :=
  leads_modify fun desk => ⟨_, desk.generation, desk.output, desk.bar, rfl⟩

/-- Painting a row again paints rows. -/
theorem redraws_repaintRow (index : Nat) : Leads Redraws (repaintRow index) := by
  refine leads_bind chains_redraws (leads_get chains_redraws) fun desk => ?_
  split
  · refine leads_bind chains_redraws (redraws_changeRow _ _) fun _ => ?_
    refine leads_bind chains_redraws (leads_get chains_redraws) fun desk => ?_
    refine leads_bind chains_redraws (leads_lift chains_redraws _) fun _ => ?_
    refine leads_bind chains_redraws (redraws_changeRow _ _) fun _ => ?_
    refine leads_bind chains_redraws (leads_lift chains_redraws _) fun _ => ?_
    exact redraws_changeRow _ _
  · exact leads_pure chains_redraws _

/-- Painting rows again paints rows. -/
theorem redraws_repaint (indices : List Nat) : Leads Redraws (repaint indices) :=
  leads_forM chains_redraws redraws_repaintRow indices

/-- Making all rows anew paints rows. -/
theorem redraws_populate : Leads Redraws populate := by
  refine leads_bind chains_redraws (leads_modify fun desk => ?_) fun _ => ?_
  · exact ⟨[], desk.generation + 1, desk.output, desk.bar, rfl⟩
  refine leads_bind chains_redraws (leads_get chains_redraws) fun desk => ?_
  refine leads_bind chains_redraws (leads_lift chains_redraws _) fun rows => ?_
  exact leads_modify fun desk => ⟨rows, desk.generation, desk.output, desk.bar, rfl⟩

/-- Drawing the transcript paints it. -/
theorem redraws_showTranscript : Leads Redraws showTranscript := by
  refine leads_bind chains_redraws (leads_get chains_redraws) fun desk => ?_
  refine leads_bind chains_redraws (leads_lift chains_redraws _) fun output => ?_
  exact leads_modify fun desk => ⟨desk.rows, desk.generation, some output, desk.bar, rfl⟩

/-- Drawing the status bar paints it. -/
theorem redraws_showBar : Leads Redraws showBar := by
  refine leads_bind chains_redraws (leads_modify fun desk => ?_) fun _ => ?_
  · exact ⟨desk.rows, desk.generation, desk.output, desk.syncBar.bar, rfl⟩
  refine leads_bind chains_redraws (leads_get chains_redraws) fun desk => ?_
  exact leads_bind chains_redraws (leads_lift chains_redraws _) fun _ =>
    leads_pure chains_redraws _

/-- Painting rows, the transcript and the status bar only paints. -/
theorem paints_of_redraws {action : Action α} (redraws : Leads Redraws action) :
    Paints action := by
  intro desk
  obtain ⟨rows, generation, output, bar, same⟩ := redraws desk
  rw [same]
  rfl

/-- Painting rows again only paints. -/
theorem paints_repaint (indices : List Nat) : Paints (repaint indices) :=
  paints_of_redraws (redraws_repaint indices)

/-- Making all rows anew only paints. -/
theorem paints_populate : Paints populate := paints_of_redraws redraws_populate

/-- Drawing the transcript only paints. -/
theorem paints_showTranscript : Paints showTranscript := paints_of_redraws redraws_showTranscript

/-- Drawing the status bar only paints. -/
theorem paints_showBar : Paints showBar := paints_of_redraws redraws_showBar

/-! ## Painting succeeds -/

section Succeeds

variable {desk : Desk}

/-- Every line that is shown is a line of the buffer. -/
def Paintable (desk : Desk) : Prop := desk.lines.length ≤ desk.engine.buffer.lineCount

/-- A line that is shown has a start in the buffer. -/
theorem exists_lineStart (paintable : desk.Paintable) {index : Nat}
    (inside : index < desk.lines.length) : ∃ start, desk.lineStart index = .ok start := by
  have count : desk.lines.length ≤ desk.engine.buffer.lineCount := paintable
  have known : desk.engine.buffer.hasLine (index + 1) = true := Buffer.hasLine_iff.mpr (by omega)
  rw [lineStart, Buffer.offset, Buffer.lineStart, if_pos known]
  exact ⟨_, rfl⟩

/-- A line that is shown can be read. -/
theorem lineAt_eq {index : Nat} (inside : index < desk.lines.length) :
    desk.lineAt index = .ok desk.lines[index].toList := by
  have place : Text.place? desk.lines.length index = some index := by
    simp [Text.place?, inside]
  rw [lineAt, place, Option.bind_some, List.getElem?_eq_getElem inside]

/-- A line that is shown has decorations, if only none. -/
theorem exists_lineDecorations (paintable : desk.Paintable) {index : Nat}
    (inside : index < desk.lines.length) :
    ∃ decorations, desk.lineDecorations index = .ok decorations := by
  obtain ⟨start, starts⟩ := exists_lineStart paintable inside
  rw [lineDecorations, starts, lineAt_eq inside]
  exact ⟨_, rfl⟩

/-- A line that is shown can be written in its row. -/
theorem exists_renderLine (paintable : desk.Paintable) {index : Nat}
    (inside : index < desk.lines.length) : ∃ content, desk.renderLine index = .ok content := by
  obtain ⟨start, starts⟩ := exists_lineStart paintable inside
  obtain ⟨decorations, drawn⟩ := exists_lineDecorations paintable inside
  have shown : ¬(desk.lines.length : Int) ≤ index := by omega
  rw [renderLine, if_neg shown, lineAt_eq inside, drawn, starts]
  exact ⟨_, rfl⟩

/-- A row is made from what is written in it and the decorations of its line. -/
theorem makeRow_eq_ok {index : Nat} {row : Row} :
    desk.makeRow index = .ok row ↔
      ∃ content decorations, desk.renderLine index = .ok content ∧
        desk.lineDecorations index = .ok decorations ∧
        row = ⟨content, decorations.head?.map (·.style), index = desk.cursor⟩ := by
  rw [makeRow]
  constructor
  · intro made
    cases written : desk.renderLine index with
    | error fault =>
      rw [written] at made
      cases made
    | ok content =>
      cases drawn : desk.lineDecorations index with
      | error fault =>
        rw [written, drawn] at made
        cases made
      | ok decorations =>
        rw [written, drawn] at made
        cases made
        exact ⟨content, decorations, rfl, rfl, rfl⟩
  · rintro ⟨content, decorations, written, drawn, rfl⟩
    rw [written, drawn]
    rfl

/-- A line that is shown has a row. -/
theorem exists_makeRow (paintable : desk.Paintable) {index : Nat}
    (inside : index < desk.lines.length) : ∃ row, desk.makeRow index = .ok row := by
  obtain ⟨content, written⟩ := exists_renderLine paintable inside
  obtain ⟨decorations, drawn⟩ := exists_lineDecorations paintable inside
  exact ⟨_, makeRow_eq_ok.mpr ⟨content, decorations, written, drawn, rfl⟩⟩

/-- Making all rows anew puts the rows of all lines in the place of the ones before. -/
theorem perform_populate (paintable : desk.Paintable) :
    ∃ rows, (List.range desk.lines.length).mapM (fun index => desk.makeRow index) = .ok rows ∧
      desk.perform populate =
        ({ desk with rows, generation := desk.generation + 1 }, .ok ()) := by
  have each : ∀ index ∈ List.range desk.lines.length, ∃ row, desk.makeRow index = .ok row :=
    fun index member => exists_makeRow paintable (List.mem_range.mp member)
  obtain ⟨rows, made⟩ := exists_mapM_iff.mpr each
  refine ⟨rows, made, ?_⟩
  let cleared := { desk with rows := [], generation := desk.generation + 1 }
  have made : (List.range cleared.lines.length).mapM (fun index => cleared.makeRow index) =
      .ok rows := made
  simp only [cleared] at made
  simp only [populate, perform_eq, perform_bind, perform_modify, perform_get, perform_lift]
  rw [made]

/-- All rows can be made anew. -/
theorem populate_succeeds (paintable : desk.Paintable) :
    (desk.perform populate).2 = .ok () := by
  obtain ⟨_, _, populates⟩ := perform_populate paintable
  rw [populates]

/-- Painting a row again puts the row in its place that would be made anew. -/
theorem perform_repaintRow {index : Nat} {row : Row} (there : index < desk.rows.length)
    (made : desk.makeRow index = .ok row) :
    desk.perform (repaintRow index) =
      ({ desk with rows := desk.rows.modify index fun _ => row }, .ok ()) := by
  obtain ⟨content, decorations, written, drawn, rfl⟩ := makeRow_eq_ok.mp made
  let plain := { desk with
    rows := desk.rows.modify index fun row => { row with decorationClass := none } }
  have drawn : plain.lineDecorations index = .ok decorations := drawn
  have written : plain.renderLine index = .ok content := written
  simp only [plain] at drawn written
  simp only [repaintRow, perform_eq, perform_bind, perform_get]
  rw [if_pos there]
  simp only [changeRow, perform_bind, perform_modify, perform_get, perform_lift, drawn, written,
    List.modify_modify_eq]
  rfl

/-- The row of a line that is shown can be painted again. -/
theorem repaintRow_succeeds (paintable : desk.Paintable) {index : Nat}
    (inside : index < desk.lines.length) : (desk.perform (repaintRow index)).2 = .ok () := by
  obtain ⟨row, made⟩ := exists_makeRow paintable inside
  by_cases there : index < desk.rows.length
  · rw [perform_repaintRow there made]
  · simp only [repaintRow, perform_eq, perform_bind, perform_get]
    rw [if_neg there]
    rfl

/-- Lines that are shown can be painted again. -/
theorem repaint_succeeds (paintable : desk.Paintable) {indices : List Nat}
    (inside : ∀ index ∈ indices, index < desk.lines.length) :
    (desk.perform (repaint indices)).2 = .ok () := by
  induction indices generalizing desk with
  | nil => rfl
  | cons index rest ih =>
    have first := repaintRow_succeeds paintable (inside index (.head _))
    have same := (paints_of_redraws (redraws_repaintRow index)).stance desk
    rw [perform_eq] at first same
    have steps : repaint (index :: rest) = repaintRow index >>= fun _ => repaint rest := rfl
    rw [steps, perform_eq, perform_bind]
    revert first same
    cases Fallible.perform desk (repaintRow index) with
    | mk after result =>
      intro first same
      cases first
      have lines : after.lines = desk.lines := congrArg Stance.lines same
      have engine : after.engine = desk.engine := congrArg Stance.engine same
      refine ih ?_ fun other member => ?_
      · rw [Paintable, lines, engine]
        exact paintable
      · rw [lines]
        exact inside other (.tail _ member)

end Succeeds

end EvalDesk.Desk
