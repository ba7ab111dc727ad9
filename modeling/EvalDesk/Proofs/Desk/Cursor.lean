import EvalDesk.Proofs.Desk.Steady
import EvalDesk.Proofs.Engine.SourceParts

/-!
# Where the cursor stands

Once every change was shown, the lines are those of the buffer, and the line of the cursor is one of
them. Its column need not be one of this line: it is cut off at the end of the line only when the
cursor is sent somewhere, by hand or to a definition, and not when another source takes the place of
the one that was shown.
-/
namespace EvalDesk

/-- A line of a buffer starts somewhere and is as long as it is shown, and the columns of it lie
behind its start. -/
theorem Buffer.exists_lineSpan {buffer : Buffer} {index : Nat} (inside : index < buffer.lineCount) :
    ∃ span, buffer.lineSpan (index + 1) = .ok span ∧
      span.stop = span.start + (buffer.lines.getD index "").length ∧
      ∀ column : Int, 0 ≤ column →
        buffer.offset (index + 1) (column + 1) = .ok (span.start + column.toNat) := by
  have known : buffer.hasLine (index + 1) = true := hasLine_iff.mpr (by omega)
  have place : ((index : Int) + 1).toNat - 1 = index := by omega
  have line : (buffer.lines.getD index "").length = (buffer.charLines.getD index []).length := by
    have there : index < buffer.charLines.length := inside
    simp [lines, List.getD_eq_getElem?_getD, there]
  refine ⟨⟨buffer.starts.getD index 0, buffer.starts.getD index 0 +
    (buffer.charLines.getD index []).length⟩, ?_, ?_, fun column behind => ?_⟩
  · rw [lineSpan, lineStart, if_pos known, place]
    rfl
  · rw [line]
  · rw [offset, lineStart, if_pos known, place]
    have number : buffer.starts.getD index 0 + (max (column + 1) 1).toNat - 1 =
        buffer.starts.getD index 0 + column.toNat := by omega
    exact congrArg Except.ok number

namespace Desk

open Fallible

/-- The line that an act sends the cursor to: the one next to it, its own, any one, or that of a
definition that has come back since. -/
def Act.target? (desk : Desk) : Act → Option Int
  | .did .up => some (desk.cursor - 1)
  | .did .down => some (desk.cursor + 1)
  | .did .left | .did .right => some desk.cursor
  | .moved line _ => some line
  | .handled =>
    match desk.postings, desk.engine.state.definition with
    | .changed :: _, some found =>
      if desk.lastAnswer = some found.answer then none else some (Stance.lineOf found)
    | _, _ => none
  | _ => none

/-- The cursor was sent to a line that is shown, and the same source is shown since. -/
inductive Settled (first : Desk) : Desk → Prop where
  /-- The cursor is sent to a line that is shown then. -/
  | sent {desk : Desk} {line : Int} (world : World) (deed : Act) : Run first desk →
    deed.target? desk = some line → 0 ≤ line ∧ line < (desk.act world deed).lines.length →
    Settled first (desk.act world deed)
  /-- Something is done, and the same source is shown. -/
  | later {desk : Desk} (world : World) (deed : Act) : Settled first desk →
    (desk.act world deed).shown = desk.shown → Settled first (desk.act world deed)

/-- The cursor was sent in a run. -/
theorem Settled.run {first desk : Desk} (settled : Settled first desk) : Run first desk := by
  induction settled with
  | sent world deed run => exact .step world deed run
  | later world deed _ _ run => exact .step world deed run

/-- An act that sends the cursor to a line ends with sending it there. -/
theorem exists_moved (world : World) {desk : Desk} {deed : Act} {line : Int}
    (steady : desk.stance.Steady) (target : deed.target? desk = some line) :
    ∃ stance column, (desk.act world deed).stance = Stance.moved stance line column := by
  cases deed with
  | did command =>
    cases command <;> cases target <;>
      exact ⟨_, _, stance_moveCursor desk _ _⟩
  | moved sent column =>
    cases target
    exact ⟨_, _, stance_moveCursor desk _ _⟩
  | handled =>
    simp only [Act.target?] at target
    split at target
    · rename_i rest found waiting known
      split at target
      · contradiction
      · rename_i other
        cases target
        have taken := stance_handled_changed world steady waiting
        have known : ({ desk.stance with postings := rest }.sighted).engine.state.definition =
            some found := by
          rw [Stance.engine_sighted]
          exact known
        refine ⟨_, _, taken.trans (Stance.aimed_other known ?_)⟩
        rw [Stance.lastAnswer_sighted]
        exact other
    · contradiction
  | _ => contradiction

variable {disk : Disk} {source : String} {settings : Settings} {engine : Engine} {desk : Desk}

/-- A cursor that was sent to a line since another source was shown stands on it, and not behind its
end. -/
theorem Settled.onLine (created : Engine.create disk source settings = .ok engine)
    (settled : Settled (Desk.start engine) desk) : desk.stance.OnLine := by
  induction settled with
  | @sent desk line world deed run target inside =>
    obtain ⟨stance, column, same⟩ := exists_moved world (steady_of_run created run) target
    obtain ⟨cursor, place, moves⟩ := Stance.exists_moved_eq stance line column
    have lines : (desk.act world deed).lines = stance.lines :=
      congrArg Stance.lines (same.trans moves)
    rw [lines] at inside
    rw [same]
    exact Stance.onLine_moved column inside
  | @later desk world deed settled kept onLine =>
    rcases act_cases world (steady_of_run created settled.run) deed with
      stays | ⟨rest, _, _, same⟩
    · exact stays.onLine onLine
    · have shown : (desk.act world deed).shown = some desk.engine.source := by
        have sighted := (congrArg Stance.shown same).trans (Stance.Stays.aimed _).shown
        rw [Stance.shown_sighted, Stance.engine_sighted] at sighted
        exact sighted
      rw [same, Stance.sighted_same (kept.symm.trans shown)]
      exact (Stance.Stays.aimed _).onLine onLine

/-- In every run of the desk for a new engine whose transcript takes entries, once every change was
shown and there are lines: the line of the cursor is a line of the buffer, and the offset of the
cursor is not in front of it. It is not behind the end of the line exactly when the column of the
cursor is not, which is so when the cursor was sent to a line that is shown, by hand or to a
definition, and the same source is shown since. -/
theorem cursor_on_own_line_iff (created : Engine.create disk source settings = .ok engine)
    (takes : Transcript.Takes (settings.get "transcript_limit" DeskState.usualLimit))
    (run : Run (Desk.start engine) desk) (handled : .changed ∉ desk.postings)
    (shown : desk.lines ≠ []) :
    ∃ span offset, desk.cursor < desk.engine.buffer.lineCount ∧
      desk.engine.buffer.lineSpan (desk.cursor + 1) = .ok span ∧
      desk.cursorOffset = .ok offset ∧ span.start ≤ offset ∧
      (offset ≤ span.stop ↔ desk.column ≤ (desk.lines.getD desk.cursor "").length) ∧
      (Settled (Desk.start engine) desk → offset ≤ span.stop) := by
  have steady := steady_of_run created run
  have lines : desk.lines = desk.engine.buffer.lines := by
    rcases fresh_of_run created takes run with unshown | same | waits
    · exact absurd (steady.bare unshown) shown
    · have known : desk.lines = shownLines desk.engine.state.sourceText := steady.lines _ same
      rw [@shownLines_eq desk.engine steady.inStep] at known
      split at known
      · exact absurd known shown
      · exact known
    · exact absurd waits handled
  have inside : desk.cursor < desk.engine.buffer.lineCount := by
    have some_line := List.length_pos_iff.mpr shown
    have cursor : desk.cursor ≤ desk.lines.length - 1 := steady.cursor
    have count : desk.lines.length = desk.engine.buffer.lineCount :=
      lines ▸ List.length_map String.ofList
    omega
  have column : 0 ≤ desk.column := steady.column
  obtain ⟨span, found, stop, offsets⟩ := Buffer.exists_lineSpan inside
  have bound : span.start + desk.column.toNat ≤ span.stop ↔
      desk.column ≤ (desk.lines.getD desk.cursor "").length := by
    rw [stop, lines]
    omega
  refine ⟨span, _, inside, found, ?_, Nat.le_add_right _ _, bound, fun settled => ?_⟩
  · rw [cursorOffset, if_neg shown]
    exact offsets desk.column column
  · exact bound.mpr (settled.onLine created)

/-- A world with a line of eight characters. -/
def longWorld : World := Engine.soleWorld "(abcdef)"

/-- A world in which the line was replaced by two shorter ones. -/
def shortWorld : World := Engine.soleWorld "(a)\n(b)"

/-- The source is shown and the cursor is sent to the end of its line. -/
def sentToEnd : List (World × Act) :=
  [(longWorld, .ordered .start), (longWorld, .handled), (longWorld, .moved 0 (some 8))]

/-- A cursor that was sent to the end of its line stands there. -/
theorem cursor_on_own_line_iff_sent :
    ∃ first, Engine.create longWorld.disk "/a.clj" Engine.plainSettings = .ok first ∧
      let desk := (Desk.start first).acted sentToEnd
      Settled (Desk.start first) desk ∧ .changed ∉ desk.postings ∧ desk.lines ≠ [] ∧
        ∃ span, desk.engine.buffer.lineSpan (desk.cursor + 1) = .ok span ∧
          ∃ offset, desk.cursorOffset = .ok offset ∧ span.start ≤ offset ∧ offset ≤ span.stop := by
  obtain ⟨first, created, known⟩ := @Engine.exists_created _ longWorld.disk "/a.clj"
    Engine.plainSettings (fun first =>
      let desk := (Desk.start first).acted sentToEnd
      (desk.postings, desk.lines)) ([], ["(abcdef)"]) (by decide +kernel)
  obtain ⟨handled, lines⟩ := Prod.mk.inj known
  have before := (@Run.start (Desk.start first)).acted (sentToEnd.take 2)
  have settled : Settled (Desk.start first) ((Desk.start first).acted sentToEnd) := by
    refine .sent longWorld (.moved 0 (some 8)) before rfl ⟨by decide, ?_⟩
    show (0 : Int) < ((Desk.start first).acted sentToEnd).lines.length
    rw [lines]
    decide
  have waits : Posting.changed ∉ ((Desk.start first).acted sentToEnd).postings := by
    rw [handled]
    exact List.not_mem_nil
  have shown : ((Desk.start first).acted sentToEnd).lines ≠ [] := by
    rw [lines]
    decide
  obtain ⟨span, offset, _, found, stands, start, _, stop⟩ :=
    cursor_on_own_line_iff created (fun _ => ⟨_, rfl⟩) settled.run waits shown
  exact ⟨first, created, settled, waits, shown, span, found, offset, stands, start, stop settled⟩

/-- When a shorter source takes the place of the one that is shown, the cursor keeps its column and
stands behind the end of its line. -/
theorem cursor_behind_shorter_line :
    ∃ first, Engine.create longWorld.disk "/a.clj" Engine.plainSettings = .ok first ∧
      let desk := (Desk.start first).acted (sentToEnd ++
        [(shortWorld, .ordered (.changed ⟨.text "/a.clj", .modified, false⟩ (.whole 0))),
          (shortWorld, .handled)])
      Run (Desk.start first) desk ∧ desk.postings = [] ∧ desk.lines = ["(a)", "(b)"] ∧
        (desk.engine.buffer.lineSpan (desk.cursor + 1)).toOption = some ⟨0, 3⟩ ∧
        desk.cursorOffset.toOption = some 8 := by
  let deeds := sentToEnd ++
    [(shortWorld, .ordered (.changed ⟨.text "/a.clj", .modified, false⟩ (.whole 0))),
      (shortWorld, .handled)]
  obtain ⟨first, created, known⟩ := @Engine.exists_created _ longWorld.disk "/a.clj"
    Engine.plainSettings (fun first =>
      let desk := (Desk.start first).acted deeds
      (desk.postings, desk.lines, (desk.engine.buffer.lineSpan (desk.cursor + 1)).toOption,
        desk.cursorOffset.toOption)) ([], ["(a)", "(b)"], some ⟨0, 3⟩, some 8) (by decide +kernel)
  obtain ⟨handled, known⟩ := Prod.mk.inj known
  obtain ⟨lines, known⟩ := Prod.mk.inj known
  obtain ⟨span, offset⟩ := Prod.mk.inj known
  exact ⟨first, created, Run.acted .start deeds, handled, lines, span, offset⟩

end Desk
end EvalDesk
