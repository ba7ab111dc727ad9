import EvalDesk.Proofs.Desk.Acts
import EvalDesk.Proofs.Engine.InStep
import EvalDesk.Proofs.Engine.SourceParts
import EvalDesk.Proofs.Text.Breaks

/-!
# Lines around a decoration

The peek panel shows a decoration with the lines around it. It takes them from the lines that are
known of the source, which are split as output is, while the number of a decoration, like that of
the cursor, counts the lines of the buffer. So a row shows the line of its number as long as no line
in front of it has a break of its own; behind such a line it shows a part of an earlier one.
-/
namespace EvalDesk

namespace Panel.Peek

/-- What is shown above the lines around a decoration. -/
def heading (decoration : Decoration) : Styled :=
  let (name, style) := label decoration.style
  let panel := Styled.empty.append (name ++ " ").toList style
  let panel := panel.appendPlain (Text.strip decoration.text).toList
  panel.appendPlain ['\n']

/-- Add a row with a number and a text; the one of the marked number is marked. -/
def addRow (marked : Int) (panel : Styled) (row : Int × String) : Styled :=
  let style := if row.1 = marked then "bold white" else "dim"
  let mark := if row.1 = marked then '►' else ' '
  let panel := panel.append ([mark, ' '] ++ padded 4 row.1 ++ " │ ".toList) style
  let panel := panel.append row.2.toList style
  panel.appendPlain ['\n']

/-- The row of a number, when there is a line of this number. -/
def row? (peek : Peek) (number : Int) : Option (Int × String) :=
  if 1 ≤ number then peek.lines[number.toNat - 1]?.map (number, ·) else none

/-- The rows of a number and of those next to it. -/
def rowsAround (peek : Peek) (number : Int) : List (Int × String) :=
  [number - 1, number, number + 1].filterMap peek.row?

/-- The text of the row of a line that is counted from zero. -/
theorem map_row?_succ (peek : Peek) (index : Nat) :
    (peek.row? (index + 1)).map (·.2) = peek.lines[index]? := by
  have first : 1 ≤ (index : Int) + 1 := by omega
  have place : ((index : Int) + 1).toNat - 1 = index := by omega
  rw [row?, if_pos first, place, Option.map_map]
  exact congrFun Option.map_id peek.lines[index]?

/-- Adding a line adds its row, when there is one. -/
theorem appendLine_eq (peek : Peek) (marked : Int) (panel : Styled) (number : Int) :
    peek.appendLine marked panel number =
      match peek.row? number with
      | some row => addRow marked panel row
      | none => panel := by
  rw [appendLine, row?]
  by_cases outside : number < 1 ∨ peek.lines.length < number
  · rw [if_pos outside]
    split
    · rename_i row found
      split at found
      · have missing : peek.lines.length ≤ number.toNat - 1 := by omega
        rw [List.getElem?_eq_none missing] at found
        contradiction
      · contradiction
    · rfl
  · have inside : number.toNat - 1 < peek.lines.length := by omega
    have first : 1 ≤ number := by omega
    rw [if_neg outside, if_pos first, List.getD_eq_getElem?_getD, List.getElem?_eq_getElem inside]
    rfl

/-- Adding lines adds the rows that there are of them. -/
theorem foldl_appendLine (peek : Peek) (marked : Int) (numbers : List Int) (panel : Styled) :
    numbers.foldl (peek.appendLine marked) panel =
      (numbers.filterMap peek.row?).foldl (addRow marked) panel := by
  induction numbers generalizing panel with
  | nil => rfl
  | cons number rest ih =>
    rw [List.foldl_cons, ih, appendLine_eq, List.filterMap_cons]
    cases peek.row? number <;> rfl

/-- A decoration is shown with the rows around its line. -/
theorem decorationText_eq (peek : Peek) (decoration : Decoration) :
    peek.decorationText decoration =
      (peek.rowsAround decoration.line).foldl (addRow decoration.line) (heading decoration) :=
  foldl_appendLine peek decoration.line _ (heading decoration)

/-- A decoration that is shown for a line is one of this line. -/
theorem current?_line {peek : Peek} {line : Int} {decoration : Decoration}
    (found : peek.current? line = some decoration) :
    decoration ∈ peek.decorations ∧ decoration.line = line :=
  ⟨List.mem_of_find?_eq_some found, by simpa using List.find?_some found⟩

/-- What the panel shows for a line with a decoration. -/
theorem textFor_decoration {peek : Peek} {line : Int} {decoration : Decoration}
    (found : peek.current? line = some decoration) :
    peek.textFor line =
      (peek.rowsAround line).foldl (addRow line) (heading decoration) := by
  rw [textFor, found]
  have same := (current?_line found).2
  subst same
  exact decorationText_eq peek decoration

end Panel.Peek

/-- What the peek panel chooses from. -/
def Engine.peek (engine : Engine) : Panel.Peek where
  lines := engine.state.sourceLines
  decorations := engine.decorations.onSurface engine.buffer.path
  documentation := engine.state.documentation

namespace Desk

open Fallible

/-- The engine stays as it is, and the panel does so as well, or it is drawn for a line of the
source. -/
def Looks (before after : Desk) : Prop :=
  after.engine = before.engine ∧
    (after.peek = before.peek ∨ ∃ line, after.peek = some (after.engine.peek.textFor line))

/-- Looking can be done in steps. -/
theorem chains_looks : Chains Looks where
  refl _ := ⟨rfl, .inl rfl⟩
  trans := by
    rintro before middle after ⟨engine, first⟩ ⟨same, second⟩
    refine ⟨same.trans engine, ?_⟩
    rcases second with kept | drawn
    · rw [kept, same]
      exact first
    · exact .inr drawn

/-- The panel is drawn for the line of the cursor. -/
theorem looks_syncPeek (desk : Desk) : desk.Looks desk.syncPeek :=
  ⟨rfl, .inr ⟨desk.cursor + 1, rfl⟩⟩

/-- Painting rows, the transcript and the status bar leaves the panel. -/
theorem looks_of_redraws {α : Type} {action : Action α} (redraws : Leads Redraws action) :
    Leads Looks action := by
  intro desk
  obtain ⟨rows, generation, output, bar, same⟩ := redraws desk
  rw [same]
  exact ⟨rfl, .inl rfl⟩

/-- Sending the cursor to a line draws the panel, if anything. -/
theorem looks_moveCursor (line : Int) (column : Option Int) :
    Leads Looks (moveCursor line column) := by
  intro desk
  simp only [moveCursor, perform_bind, perform_get]
  split
  · have draws : Leads Looks (do
        repaint (paintOrder desk.cursor line.toNat)
        modify syncPeek) :=
      leads_bind chains_looks (looks_of_redraws (redraws_repaint _)) fun _ =>
        leads_modify looks_syncPeek
    exact draws _
  · exact chains_looks.refl desk

/-- Showing the source leaves the panel. -/
theorem looks_showSource : Leads Looks showSource := by
  intro desk
  simp only [showSource, perform_bind, perform_get]
  split
  · exact looks_of_redraws (redraws_repaint _) desk
  · exact looks_of_redraws redraws_populate _

/-- Moving the cursor to a definition draws the panel, if anything. -/
theorem looks_showDefinition : Leads Looks showDefinition := by
  intro desk
  simp only [showDefinition, perform_bind, perform_get]
  split
  · exact chains_looks.refl desk
  · split
    · exact looks_moveCursor _ _ _
    · exact chains_looks.refl desk

/-- Showing a change draws the panel, if anything. -/
theorem looks_showChange : Leads Looks showChange := by
  refine leads_bind chains_looks looks_showSource fun _ => ?_
  refine leads_bind chains_looks looks_showDefinition fun _ => ?_
  refine leads_bind chains_looks (looks_of_redraws redraws_showTranscript) fun _ => ?_
  refine leads_bind chains_looks (looks_of_redraws redraws_showBar) fun _ => ?_
  exact leads_modify looks_syncPeek

/-- What an act does besides looking leaves the panel, and the engine is one that can be
attained. -/
theorem actLaw_attained (first : Engine) : ActLaw fun before after =>
    (Engine.Attained first before.engine → Engine.Attained first after.engine) ∧
      after.peek = before.peek where
  chains := ⟨fun _ => ⟨id, rfl⟩, fun one two => ⟨two.1 ∘ one.1, two.2.trans one.2⟩⟩
  does does := by
    refine ⟨fun attained => ?_, rfl⟩
    cases does with
    | order world order => exact .order world order attained
    | cleared => exact .cleared attained
    | stopped => exact .stopped attained
  asks _ _ _ := ⟨id, rfl⟩
  posts _ _ := ⟨id, rfl⟩
  takes _ := ⟨id, rfl⟩

/-- After every act the engine is one that can be attained, and the panel is the one from before or
was drawn for a line of the source that is known now. -/
theorem attained_act {first : Engine} (world : World) {desk : Desk} (deed : Act)
    (attained : Engine.Attained first desk.engine) :
    Engine.Attained first (desk.act world deed).engine ∧
      ((desk.act world deed).peek = desk.peek ∨
        ∃ line, (desk.act world deed).peek =
          some ((desk.act world deed).engine.peek.textFor line)) := by
  have looked : ∀ {before after : Desk}, before.Looks after → before.engine = desk.engine →
      before.peek = desk.peek → Engine.Attained first after.engine ∧
        (after.peek = desk.peek ∨ ∃ line, after.peek = some (after.engine.peek.textFor line)) := by
    intro before after looks same kept
    rw [← kept]
    refine ⟨?_, looks.2⟩
    rw [looks.1, same]
    exact attained
  rcases (actLaw_attained first).act_cases world desk deed with
    ⟨keeps, kept⟩ | ⟨line, column, _, same⟩ | ⟨rest, _, _, same⟩
  · exact ⟨keeps attained, .inl kept⟩
  · rw [same]
    exact looked (looks_moveCursor line column desk) rfl rfl
  · rw [same]
    exact looked (looks_showChange { desk with postings := rest }) rfl rfl

/-- In every run the engine is one that can be attained, and the panel was drawn for a line of the
source that was known at some time in the run. -/
theorem attained_of_run {first : Engine} {desk : Desk} (run : Run (Desk.start first) desk) :
    Engine.Attained first desk.engine ∧ ∀ panel, desk.peek = some panel →
      ∃ earlier line, Run (Desk.start first) earlier ∧
        panel = earlier.engine.peek.textFor line := by
  induction run with
  | start => exact ⟨.start, fun panel drawn => absurd drawn.symm (Option.some_ne_none panel)⟩
  | @step desk world deed before ih =>
    obtain ⟨attained, earlier⟩ := ih
    obtain ⟨attains, kept | ⟨line, draws⟩⟩ := attained_act world deed attained
    · refine ⟨attains, fun panel drawn => earlier panel (kept.symm.trans drawn)⟩
    · refine ⟨attains, fun panel drawn => ⟨_, line, .step world deed before, ?_⟩⟩
      exact Option.some.inj (drawn.symm.trans draws)

variable {disk : Disk} {source : String} {settings : Settings} {first : Engine} {desk : Desk}

/-- In every run of the desk for a new engine, whatever the panel shows: it was drawn for a line of
the source of some time in the run, and if the line has a decoration, this is one of the buffer and
of the line, and it is shown with the rows of the line and of those next to it. Each row stands for
the line of the buffer with its number: it is the line up to its first break as long as all lines in
front are whole, and a part of an earlier one otherwise. So all rows are the lines of the buffer
with their numbers if and only if no line of the buffer has a break of its own. -/
theorem rows_show_own_lines_iff (created : Engine.create disk source settings = .ok first)
    (run : Run (Desk.start first) desk) {panel : Styled} (drawn : desk.peek = some panel) :
    ∃ (earlier : Desk) (line : Int), Run (Desk.start first) earlier ∧
      let buffer := earlier.engine.buffer
      let peek := earlier.engine.peek
      panel = peek.textFor line ∧
      (∀ decoration, peek.current? line = some decoration →
        decoration ∈ earlier.engine.decorations.onSurface buffer.path ∧ decoration.line = line ∧
        panel = (peek.rowsAround line).foldl (Panel.Peek.addRow line)
          (Panel.Peek.heading decoration)) ∧
      (∀ index : Nat, Text.StandsFor buffer.charLines index
        (((peek.row? (index + 1)).map (·.2)).map String.toList)) ∧
      ((∀ (index : Nat) text, (peek.row? (index + 1)).map (·.2) = some text →
        buffer.lines[index]? = some text) ↔ ∀ own ∈ buffer.charLines, Text.IsUnbroken own) := by
  obtain ⟨earlier, line, before, shows⟩ := (attained_of_run run).2 panel drawn
  -- The rows are taken from lines that were split from the text of the buffer.
  have mirrors := Engine.mirrors_of_attained created (attained_of_run before).1
  have texts : ∀ index : Nat, (earlier.engine.peek.row? (index + 1)).map (·.2) =
      (Text.outputLines earlier.engine.buffer.text)[index]? := by
    intro index
    rw [Panel.Peek.map_row?_succ, ← mirrors.lines]
    rfl
  refine ⟨earlier, line, before, shows, fun decoration found => ?_, fun index => ?_, ?_⟩
  · obtain ⟨member, own⟩ := Panel.Peek.current?_line found
    exact ⟨member, own, shows.trans (Panel.Peek.textFor_decoration found)⟩
  · have same : String.toList ∘ String.ofList = id := funext fun line => String.toList_ofList
    rw [texts, Text.outputLines, List.getElem?_map, Option.map_map, same, Option.map_id]
    exact Text.standsFor earlier.engine.buffer.chars index
  · rw [← Buffer.outputLines_agree_iff]
    simp only [texts]

/-- The form on the second line is evaluated, a complaint about it comes back, and the cursor is
sent to this line. -/
def complainedBelow (world : World) : List (World × Act) :=
  [(world, .ordered .start), (world, .handled), (world, .moved 1 none),
    (world, .did .evaluateForm),
    (world, .ordered (.answered (.text "2") [Engine.complaintAnswer "1"])), (world, .moved 1 none)]

/-- The complaint about the form on the second of two lines is shown with both lines. -/
theorem rows_show_own_lines_iff_feeds :
    let world := Engine.soleWorld "(a)\n(c)"
    ∃ first panel, Engine.create world.disk "/a.clj" Engine.plainSettings = .ok first ∧
      let desk := (Desk.start first).acted (complainedBelow world)
      Run (Desk.start first) desk ∧ desk.peek = some panel ∧
      panel.plain = ("COMPILE ERROR Syntax error compiling at (NO_SOURCE_PATH:1:1).\n" ++
        "     1 │ (a)\n►    2 │ (c)\n").toList ∧
      ∃ (earlier : Desk) (line : Int), Run (Desk.start first) earlier ∧
        panel = earlier.engine.peek.textFor line ∧
        ∀ index : Nat, Text.StandsFor earlier.engine.buffer.charLines index
          (((earlier.engine.peek.row? (index + 1)).map (·.2)).map String.toList) := by
  intro world
  obtain ⟨first, created, known⟩ := @Engine.exists_created _ world.disk "/a.clj"
    Engine.plainSettings (fun first =>
      ((Desk.start first).acted (complainedBelow world)).peek.map (·.plain))
    (some ("COMPILE ERROR Syntax error compiling at (NO_SOURCE_PATH:1:1).\n" ++
        "     1 │ (a)\n►    2 │ (c)\n").toList) (by decide +kernel)
  obtain ⟨panel, drawn, plain⟩ := Option.map_eq_some_iff.mp known
  have run := (@Run.start (Desk.start first)).acted (complainedBelow world)
  obtain ⟨earlier, line, before, shows, _, stands, _⟩ :=
    rows_show_own_lines_iff created run drawn
  exact ⟨first, panel, created, run, drawn, plain, earlier, line, before, shows, stands⟩

/-- A form feed in the first line shifts the rows: the complaint about the form on the second line
is shown with a form of the first line in its marked row. -/
theorem form_feed_shifts_rows :
    let world := Engine.soleWorld "(a)\x0c(b)\n(c)"
    ∃ first, Engine.create world.disk "/a.clj" Engine.plainSettings = .ok first ∧
      let desk := (Desk.start first).acted (complainedBelow world)
      Run (Desk.start first) desk ∧
      desk.peek.map (·.plain) =
        some ("COMPILE ERROR Syntax error compiling at (NO_SOURCE_PATH:1:1).\n" ++
          "     1 │ (a)\n►    2 │ (b)\n     3 │ (c)\n").toList ∧
      desk.engine.state.sourceLines = ["(a)", "(b)", "(c)"] ∧
      desk.engine.buffer.lines = ["(a)\x0c(b)", "(c)"] ∧
      ∃ decoration, desk.engine.peek.current? 2 = some decoration ∧ decoration.line = 2 ∧
        decoration.start = 8 := by
  intro world
  obtain ⟨first, created, known⟩ := @Engine.exists_created _ world.disk "/a.clj"
    Engine.plainSettings (fun first =>
      let desk := (Desk.start first).acted (complainedBelow world)
      (desk.peek.map (·.plain), desk.engine.state.sourceLines, desk.engine.buffer.lines))
    (some ("COMPILE ERROR Syntax error compiling at (NO_SOURCE_PATH:1:1).\n" ++
          "     1 │ (a)\n►    2 │ (b)\n     3 │ (c)\n").toList,
      ["(a)", "(b)", "(c)"], ["(a)\x0c(b)", "(c)"]) (by decide +kernel)
  have placed := @Engine.of_created _ _ _ _ _ (fun first =>
    (((Desk.start first).acted (complainedBelow world)).engine.peek.current? 2).map (·.start))
    (some 8) created (by decide +kernel)
  obtain ⟨panel, known⟩ := Prod.mk.inj known
  obtain ⟨rows, lines⟩ := Prod.mk.inj known
  obtain ⟨decoration, shown, start⟩ := Option.map_eq_some_iff.mp placed
  have own := (Panel.Peek.current?_line shown).2
  exact ⟨first, created, Run.acted .start _, panel, rows, lines, decoration, shown, own, start⟩

end Desk
end EvalDesk
