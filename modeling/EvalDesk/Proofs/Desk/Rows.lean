import EvalDesk.Proofs.Desk.Steady

/-!
# Right rows

Rows are painted one by one: two of them when the cursor moves, all of them when a change is shown,
and other ones take their place when another source is. A row is right if it is the one that would
be made anew. Showing a change makes all rows right, and they stay right when the cursor moves,
since no row but the two that are painted shows where it stands.
-/
namespace EvalDesk.Desk

open Fallible

/-- What rows are painted from. -/
structure Canvas where
  /-- The buffer. -/
  buffer : Buffer
  /-- What is drawn. -/
  decorations : Decorations
  /-- The lines that are shown. -/
  lines : List String
  /-- The line of the cursor, counted from zero. -/
  cursor : Nat
  /-- The column of the cursor, counted from zero. -/
  column : Int

/-- What rows are painted from. -/
def canvas (desk : Desk) : Canvas :=
  ⟨desk.engine.buffer, desk.engine.decorations, desk.lines, desk.cursor, desk.column⟩

/-- The row of a line is the one that would be made anew. -/
def Right (desk : Desk) (index : Nat) : Prop :=
  ∃ row, desk.rows[index]? = some row ∧ desk.makeRow index = .ok row

/-- Every line that is shown has a row, and these are the rows that would be made anew. -/
structure Painted (desk : Desk) : Prop where
  /-- There are as many. -/
  count : desk.rows.length = desk.lines.length
  /-- Each of them is right. -/
  right : ∀ index < desk.lines.length, desk.Right index

/-! ## What a row depends on -/

section Made

variable {desk other : Desk}

/-- Rows are made from nothing but the canvas. -/
theorem makeRow_of_canvas (same : other.canvas = desk.canvas) (index : Nat) :
    other.makeRow index = desk.makeRow index := by
  have buffer : other.engine.buffer = desk.engine.buffer := congrArg Canvas.buffer same
  have decorations : other.engine.decorations = desk.engine.decorations :=
    congrArg Canvas.decorations same
  have lines : other.lines = desk.lines := congrArg Canvas.lines same
  have cursor : other.cursor = desk.cursor := congrArg Canvas.cursor same
  have column : other.column = desk.column := congrArg Canvas.column same
  simp only [makeRow, renderLine, lineDecorations, lineStart, lineAt, buffer, decorations, lines,
    cursor, column]

/-- Rows stay right when what they are painted from stays the same. -/
theorem Painted.of_canvas (painted : desk.Painted) (same : other.canvas = desk.canvas)
    (rows : other.rows = desk.rows) : other.Painted := by
  have lines : other.lines = desk.lines := congrArg Canvas.lines same
  refine ⟨by rw [rows, lines, painted.count], fun index inside => ?_⟩
  rw [lines] at inside
  rw [Right, rows, makeRow_of_canvas same]
  exact painted.right index inside

/-- Right rows from one canvas are the same rows. -/
theorem Painted.rows_unique (painted : desk.Painted) (also : other.Painted)
    (same : other.canvas = desk.canvas) : other.rows = desk.rows := by
  have lines : other.lines = desk.lines := congrArg Canvas.lines same
  have count : other.rows.length = desk.rows.length := by rw [also.count, painted.count, lines]
  refine List.ext_getElem? fun index => ?_
  by_cases inside : index < desk.lines.length
  · obtain ⟨row, there, made⟩ := painted.right index inside
    obtain ⟨twin, found, makes⟩ := also.right index (lines ▸ inside)
    rw [makeRow_of_canvas same, made] at makes
    cases makes
    rw [there, found]
  · have outside : desk.rows.length ≤ index := painted.count ▸ Nat.le_of_not_lt inside
    rw [List.getElem?_eq_none outside, List.getElem?_eq_none (count ▸ outside)]

/-- The row of a line does not show the cursor on another line. -/
theorem makeRow_elsewhere {index cursor : Nat} (column : Int) (left : index ≠ desk.cursor)
    (reached : index ≠ cursor) :
    Desk.makeRow { desk with cursor, column } index = desk.makeRow index := by
  have before : ¬(index : Int) = desk.cursor := by omega
  have behind : ¬(index : Int) = cursor := by omega
  simp only [makeRow, renderLine, lineDecorations, lineStart, lineAt, before, behind, left, reached,
    false_and, if_false]

/-- A row that can be made is that of a line that the buffer has. -/
theorem lt_lineCount_of_makeRow {index : Nat} {row : Row} (made : desk.makeRow index = .ok row) :
    index < desk.engine.buffer.lineCount := by
  refine Nat.lt_of_not_le fun outside => ?_
  have unknown : desk.engine.buffer.hasLine (index + 1) ≠ true := by
    rw [Ne, Buffer.hasLine_iff]
    omega
  obtain ⟨_, decorations, _, drawn, _⟩ := makeRow_eq_ok.mp made
  rw [lineDecorations, lineStart, Buffer.offset, Buffer.lineStart, if_neg unknown] at drawn
  cases drawn

/-- Lines that have their rows can be painted. -/
theorem Painted.paintable (painted : desk.Painted) : desk.Paintable := by
  refine Nat.le_of_not_lt fun more => ?_
  obtain ⟨row, _, made⟩ := painted.right (desk.lines.length - 1) (by omega)
  have known := lt_lineCount_of_makeRow made
  omega

end Made

/-! ## Painting rows -/

section Paint

variable {desk : Desk}

/-- Painting rows again makes them right and leaves the others. -/
theorem perform_repaint {indices : List Nat} (count : desk.rows.length = desk.lines.length)
    (made : ∀ index ∈ indices, index < desk.lines.length ∧ ∃ row, desk.makeRow index = .ok row) :
    ∃ rows, desk.perform (repaint indices) = ({ desk with rows }, .ok ()) ∧
      rows.length = desk.rows.length ∧
      (∀ index ∈ indices, Right { desk with rows } index) ∧
      ∀ index, index ∉ indices → rows[index]? = desk.rows[index]? := by
  induction indices generalizing desk with
  | nil => exact ⟨desk.rows, rfl, rfl, fun _ member => (nomatch member), fun _ _ => rfl⟩
  | cons first rest ih =>
    obtain ⟨inside, row, makes⟩ := made first (.head _)
    let begun := { desk with rows := desk.rows.modify first fun _ => row }
    have painted : desk.perform (repaintRow first) = (begun, .ok ()) :=
      perform_repaintRow (count ▸ inside) makes
    have same : begun.rows.length = desk.rows.length := List.length_modify ..
    obtain ⟨rows, paints, as_many, right, others⟩ := @ih begun (same.trans count)
      fun index member => made index (.tail _ member)
    refine ⟨rows, ?_, as_many.trans same, fun index member => ?_, fun index apart => ?_⟩
    · have steps : repaint (first :: rest) = repaintRow first >>= fun _ => repaint rest := rfl
      rw [steps, perform_eq, perform_bind, ← perform_eq, painted]
      exact paints
    · by_cases later : index ∈ rest
      · exact right index later
      · obtain rfl : index = first := (List.mem_cons.mp member).resolve_right later
        refine ⟨row, ?_, makes⟩
        have there : index < desk.rows.length := count ▸ inside
        show rows[index]? = some row
        rw [others index later]
        simp [begun, there]
    · obtain ⟨other, later⟩ := not_or.mp fun either => apart (List.mem_cons.mpr either)
      rw [others index later]
      exact List.getElem?_modify_ne _ _ fun same => other same.symm

/-- Painting all rows again makes all of them right. -/
theorem repaint_paints (count : desk.rows.length = desk.lines.length)
    (paintable : desk.Paintable) :
    ∃ rows, desk.perform (repaint (List.range desk.lines.length)) = ({ desk with rows }, .ok ()) ∧
      Painted { desk with rows } := by
  obtain ⟨rows, paints, as_many, right, _⟩ := perform_repaint count fun index member =>
    ⟨List.mem_range.mp member, exists_makeRow paintable (List.mem_range.mp member)⟩
  exact ⟨rows, paints, as_many.trans count, fun index inside =>
    right index (List.mem_range.mpr inside)⟩

/-- Making all rows anew makes all of them right. -/
theorem populate_paints (paintable : desk.Paintable) :
    ∃ rows, desk.perform populate =
        ({ desk with rows, generation := desk.generation + 1 }, .ok ()) ∧
      Painted { desk with rows, generation := desk.generation + 1 } := by
  obtain ⟨rows, made, populates⟩ := perform_populate paintable
  obtain ⟨count, right⟩ := getElem?_of_mapM made
  refine ⟨rows, populates, count.trans List.length_range, fun index inside => ?_⟩
  exact right (List.getElem?_range inside)

/-- When the cursor moves, the rows of two lines are painted again. -/
theorem mem_paintOrder {index old new : Nat} :
    index ∈ paintOrder old new ↔ index = old ∨ index = new := by
  unfold paintOrder
  split
  · rename_i same
    simp [same]
  · split
    · simp
    · simp [or_comm]

/-- Rows stay right when the cursor is sent from one of them to another line. -/
theorem Painted.moveCursor (painted : desk.Painted)
    (stands : desk.cursor ≤ desk.lines.length - 1) (line : Int) (column : Option Int) :
    (desk.perform (moveCursor line column)).1.Painted := by
  simp only [Desk.moveCursor, perform_eq, perform_bind, perform_get]
  split
  · rename_i inside
    let sent := { desk with
      cursor := line.toNat
      column := min (column.getD desk.column) (desk.lines.getD line.toNat "").length }
    have paintable : sent.Paintable := painted.paintable
    have made : ∀ index ∈ paintOrder desk.cursor line.toNat,
        index < sent.lines.length ∧ ∃ row, sent.makeRow index = .ok row := by
      intro index member
      have shown : index < desk.lines.length := by
        rcases mem_paintOrder.mp member with rfl | rfl <;> omega
      exact ⟨shown, exists_makeRow paintable shown⟩
    obtain ⟨rows, paints, as_many, right, others⟩ := @perform_repaint sent _ painted.count made
    have after : Painted { sent with rows } := by
      refine ⟨as_many.trans painted.count, fun index shown => ?_⟩
      by_cases moved : index ∈ paintOrder desk.cursor line.toNat
      · exact right index moved
      · obtain ⟨left, reached⟩ := not_or.mp fun either => moved (mem_paintOrder.mpr either)
        obtain ⟨row, there, makes⟩ := painted.right index shown
        refine ⟨row, (others index moved).trans there, ?_⟩
        exact (makeRow_elsewhere _ left reached).trans makes
    show (sent.perform do
      repaint (paintOrder desk.cursor line.toNat)
      modify syncPeek).1.Painted
    rw [perform_eq, perform_bind, ← perform_eq, paints]
    exact after.of_canvas rfl rfl
  · exact painted

/-- Rows stay right when the cursor is moved to a definition. -/
theorem Painted.showDefinition (painted : desk.Painted)
    (stands : desk.cursor ≤ desk.lines.length - 1) :
    (desk.perform showDefinition).1.Painted := by
  simp only [Desk.showDefinition, perform_eq, perform_bind, perform_get]
  split
  · exact painted
  · rename_i found _
    split
    · have noted : Painted { desk with lastAnswer := some found.answer } :=
        painted.of_canvas rfl rfl
      exact noted.moveCursor stands _ _
    · exact painted

/-- Rows are right after the source was shown. -/
theorem showSource_paints (steady : desk.stance.Steady)
    (count : desk.rows.length = desk.lines.length) :
    ∃ after, desk.perform showSource = (after, .ok ()) ∧ after.Painted := by
  have few := @length_shownLines_le desk.engine steady.inStep
  simp only [showSource, perform_eq, perform_bind, perform_get]
  split
  · rename_i same
    have lines : desk.lines = shownLines desk.engine.state.sourceText := steady.lines _ same
    have paintable : desk.Paintable := by
      rw [Paintable, lines]
      exact few
    obtain ⟨rows, paints, painted⟩ := repaint_paints count paintable
    exact ⟨_, paints, painted⟩
  · rw [@shownLines_eq desk.engine steady.inStep] at few
    let lines := if desk.engine.state.sourceText = "" then [] else desk.engine.buffer.lines
    obtain ⟨rows, paints, painted⟩ := @populate_paints { desk with
      shown := some (desk.engine.state.sourcePath, desk.engine.state.sourceText)
      lines
      cursor := min desk.cursor (lines.length - 1) } few
    exact ⟨_, paints, painted⟩

/-- Rows are right after a change was shown. -/
theorem showChange_paints (steady : desk.stance.Steady)
    (count : desk.rows.length = desk.lines.length) : (desk.perform showChange).1.Painted := by
  have chains : Chains fun before after : Desk => before.Painted → after.Painted :=
    chains_property Painted
  have rest : Leads (fun before after : Desk => before.Painted → after.Painted) (do
      showTranscript
      showBar
      modify syncPeek) := by
    refine leads_bind chains (leads_bind chains (leads_get chains) fun _ => ?_) fun _ => ?_
    · refine leads_bind chains (leads_lift chains _) fun output => ?_
      exact leads_modify fun desk painted => painted.of_canvas rfl rfl
    refine leads_bind chains (leads_bind chains ?_ fun _ => ?_) fun _ => ?_
    · exact leads_modify fun desk painted => painted.of_canvas rfl rfl
    · refine leads_bind chains (leads_get chains) fun desk => ?_
      exact leads_bind chains (leads_lift chains _) fun _ => leads_pure chains _
    · exact leads_modify fun desk painted => painted.of_canvas rfl rfl
  obtain ⟨after, shows, painted⟩ := showSource_paints steady count
  have sighted := stance_showSource desk
  rw [shows] at sighted
  have stands : after.cursor ≤ after.lines.length - 1 := by
    have standing := steady.sighted.cursor
    rw [← sighted] at standing
    exact standing
  rw [showChange, perform_eq, perform_bind, ← perform_eq, shows]
  exact leads_from chains (fun _ => rest) after (painted.showDefinition stands)

/-- Rows are right after a change was shown, whatever else waits. -/
theorem showChange_paints_behind (steady : desk.stance.Steady)
    (count : desk.rows.length = desk.lines.length) (rest : List Posting) :
    (Desk.perform { desk with postings := rest } showChange).1.Painted :=
  @showChange_paints { desk with postings := rest } (steady.posted rest) count

end Paint

end EvalDesk.Desk
