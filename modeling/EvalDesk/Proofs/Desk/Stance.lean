import EvalDesk.Proofs.Desk.Painting
import EvalDesk.Proofs.Engine.Announce

/-!
# Acting on the stance

Sending the cursor, showing the source and moving to a definition act on the stance of the desk, as
functions with one equation for each case. What the engine tells is posted on it. A change is shown
by showing the source and then moving to the definition that is known by then.
-/
namespace EvalDesk.Desk

open Fallible

/-- The lines that are shown for a text; an empty one has none. -/
def shownLines (text : String) : List String := if text = "" then [] else ({ text } : Buffer).lines

namespace Stance

/-- The stance after the cursor was sent to a line. -/
def moved (stance : Stance) (line : Int) (column : Option Int) : Stance :=
  if 0 ≤ line ∧ line < stance.lines.length then
    { stance with
      cursor := line.toNat
      column := min (column.getD stance.column) (stance.lines.getD line.toNat "").length }
  else stance

/-- The stance after the source of the engine was shown. -/
def sighted (stance : Stance) : Stance :=
  if stance.shown = some stance.engine.source then stance
  else
    let lines := if stance.engine.state.sourceText = "" then [] else stance.engine.buffer.lines
    { stance with
      shown := some stance.engine.source
      lines
      cursor := min stance.cursor (lines.length - 1) }

/-- The line a definition is on, counted from zero; before the source it is the first line. -/
def lineOf (found : Definition) : Int := max (found.location.line - 1) 0

/-- The column of a definition, counted from zero. -/
def columnOf (found : Definition) : Int :=
  let column := found.location.column.getD 1
  max ((if column = 0 then 1 else column) - 1) 0

/-- The stance after the cursor was moved to a definition that has come back since. -/
def aimed (stance : Stance) : Stance :=
  match stance.engine.state.definition with
  | none => stance
  | some found =>
    if stance.lastAnswer = some found.answer then stance
    else
      { stance with lastAnswer := some found.answer }.moved (lineOf found) (some (columnOf found))

section Cases

variable {stance : Stance}

/-- The cursor goes to a line that is shown. -/
theorem moved_inside {line : Int} (column : Option Int)
    (inside : 0 ≤ line ∧ line < stance.lines.length) :
    stance.moved line column = { stance with
      cursor := line.toNat
      column := min (column.getD stance.column) (stance.lines.getD line.toNat "").length } :=
  if_pos inside

/-- The cursor stays when the line is not shown. -/
theorem moved_outside {line : Int} (column : Option Int)
    (outside : ¬(0 ≤ line ∧ line < stance.lines.length)) : stance.moved line column = stance :=
  if_neg outside

/-- Sending the cursor changes nothing but its place. -/
theorem exists_moved_eq (stance : Stance) (line : Int) (column : Option Int) :
    ∃ cursor place, stance.moved line column = { stance with cursor, column := place } := by
  unfold moved
  split
  · exact ⟨_, _, rfl⟩
  · exact ⟨stance.cursor, stance.column, rfl⟩

/-- A source that is shown stays shown. -/
theorem sighted_same (same : stance.shown = some stance.engine.source) :
    stance.sighted = stance := if_pos same

/-- Another source takes the place of the one that is shown. -/
theorem sighted_other (other : stance.shown ≠ some stance.engine.source) :
    stance.sighted =
      let lines := if stance.engine.state.sourceText = "" then [] else stance.engine.buffer.lines
      { stance with
        shown := some stance.engine.source
        lines
        cursor := min stance.cursor (lines.length - 1) } := if_neg other

/-- Without a definition the cursor stays. -/
theorem aimed_none (unknown : stance.engine.state.definition = none) : stance.aimed = stance := by
  rw [aimed, unknown]

/-- The cursor stays when it was moved to the definition before. -/
theorem aimed_same {found : Definition} (known : stance.engine.state.definition = some found)
    (same : stance.lastAnswer = some found.answer) : stance.aimed = stance := by
  rw [aimed, known]
  exact if_pos same

/-- The cursor is sent to a definition that has come back since. -/
theorem aimed_other {found : Definition} (known : stance.engine.state.definition = some found)
    (other : stance.lastAnswer ≠ some found.answer) :
    stance.aimed = { stance with lastAnswer := some found.answer }.moved (lineOf found)
      (some (columnOf found)) := by
  rw [aimed, known]
  exact if_neg other

/-- Moving the cursor to a definition changes nothing but its place, and which definition that
was. -/
theorem exists_aimed_eq (stance : Stance) : ∃ lastAnswer cursor column,
    stance.aimed = { stance with lastAnswer, cursor, column } := by
  have unmoved : ∃ lastAnswer cursor column,
      stance = { stance with lastAnswer, cursor, column } := ⟨_, _, _, rfl⟩
  cases known : stance.engine.state.definition with
  | none =>
    rw [aimed_none known]
    exact unmoved
  | some found =>
    by_cases same : stance.lastAnswer = some found.answer
    · rw [aimed_same known same]
      exact unmoved
    · obtain ⟨cursor, place, moves⟩ := exists_moved_eq
        { stance with lastAnswer := some found.answer } (lineOf found) (some (columnOf found))
      exact ⟨_, cursor, place, (aimed_other known same).trans moves⟩

end Cases

/-- The stance after the engine went on to another state, which posts the changes it has told. -/
def advanced (stance : Stance) (engine : Engine) : Stance :=
  { stance with
    engine
    postings := stance.postings ++
      ((engine.effects.drop stance.seen).filter isChange).map fun _ => .changed
    seen := engine.effects.length }

end Stance

variable (desk : Desk)

/-- What the engine does is done on the stance. -/
theorem stance_engineAction {α : Type} (action : Engine.Action α) :
    (desk.perform (engineAction action)).1.stance =
      desk.stance.advanced (desk.engine.perform action).1 := rfl

/-- The cursor is sent on the stance. -/
theorem stance_moveCursor (line : Int) (column : Option Int) :
    (desk.perform (moveCursor line column)).1.stance = desk.stance.moved line column := by
  simp only [moveCursor, perform_eq, perform_bind, perform_get]
  split
  · rename_i inside
    have paints : Paints (do
        repaint (paintOrder desk.cursor line.toNat)
        modify syncPeek) :=
      leads_bind chains_paints (paints_repaint _) fun _ => leads_modify fun _ => rfl
    exact (paints _).trans (@Stance.moved_inside desk.stance line column inside).symm
  · rename_i outside
    exact (@Stance.moved_outside desk.stance line column outside).symm

/-- The source is shown on the stance. -/
theorem stance_showSource : (desk.perform showSource).1.stance = desk.stance.sighted := by
  simp only [showSource, perform_eq, perform_bind, perform_get]
  split
  · rename_i same
    exact (paints_repaint _ desk).trans (@Stance.sighted_same desk.stance same).symm
  · rename_i other
    exact (paints_populate _).trans (@Stance.sighted_other desk.stance other).symm

/-- The cursor is moved to a definition on the stance. -/
theorem stance_showDefinition :
    (desk.perform showDefinition).1.stance = desk.stance.aimed := by
  simp only [showDefinition, perform_eq, perform_bind, perform_get]
  cases known : desk.engine.state.definition with
  | none => exact (@Stance.aimed_none desk.stance known).symm
  | some found =>
    dsimp only
    split
    · rename_i other
      exact (stance_moveCursor { desk with lastAnswer := some found.answer } _ _).trans
        (@Stance.aimed_other desk.stance found known other).symm
    · rename_i same
      exact (@Stance.aimed_same desk.stance found known (Decidable.not_not.mp same)).symm

/-- The lines that are shown for the source of the engine. -/
theorem shownLines_eq {engine : Engine} (inStep : engine.InStep) :
    shownLines engine.state.sourceText =
      if engine.state.sourceText = "" then [] else engine.buffer.lines := by
  rw [inStep.text]
  rfl

/-- Not more lines are shown for the source of the engine than its buffer has. -/
theorem length_shownLines_le {engine : Engine} (inStep : engine.InStep) :
    (shownLines engine.state.sourceText).length ≤ engine.buffer.lineCount := by
  rw [shownLines_eq inStep]
  split
  · exact Nat.zero_le _
  · exact Nat.le_of_eq (List.length_map _)

/-- The source can be shown when it is known as it was read and its lines are shown already, if it
is the one that is shown. -/
theorem showSource_succeeds (inStep : desk.engine.InStep)
    (lines : desk.shown = some desk.engine.source →
      desk.lines = shownLines desk.engine.state.sourceText) :
    (desk.perform showSource).2 = .ok () := by
  have few := length_shownLines_le inStep
  simp only [showSource, perform_eq, perform_bind, perform_get]
  split
  · rename_i same
    have paintable : desk.Paintable := by
      rw [Paintable, lines same]
      exact few
    exact repaint_succeeds paintable fun index member => List.mem_range.mp member
  · rw [shownLines_eq inStep] at few
    exact populate_succeeds few

/-- A change is shown on the stance: first the source, then the definition. -/
theorem stance_showChange (succeeds : (desk.perform showSource).2 = .ok ()) :
    (desk.perform showChange).1.stance = desk.stance.sighted.aimed := by
  have paints : Paints (do
      showTranscript
      showBar
      modify syncPeek) :=
    leads_bind chains_paints paints_showTranscript fun _ =>
      leads_bind chains_paints paints_showBar fun _ => leads_modify fun _ => rfl
  have sighted := stance_showSource desk
  rw [showChange, perform_eq, perform_bind]
  rw [perform_eq] at succeeds sighted
  revert succeeds sighted
  cases Fallible.perform desk showSource with
  | mk after result =>
    intro succeeds sighted
    cases succeeds
    have aimed := @leads_from _ _ _ _ chains_paints showDefinition _ (fun _ => paints) after
    rw [← sighted]
    exact aimed.trans (stance_showDefinition after)

end EvalDesk.Desk
