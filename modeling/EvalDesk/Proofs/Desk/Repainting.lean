import EvalDesk.Proofs.Desk.Rows
import EvalDesk.Proofs.Engine.SourceParts

/-!
# Rows are painted in time

Nothing but a change of what can be seen makes a row wrong, and the rows are painted again once that
was told. So once every change was shown each row is the one that would be made anew, unless the
transcript has refused the entry of an evaluation: what was drawn is removed by then, or the source
was read again, and nothing is told.
-/
namespace EvalDesk.Desk

open Fallible

/-! ## As many rows as lines -/

/-- Painting rows again leaves as many as there are. -/
theorem repaint_keeps_count (indices : List Nat) :
    Leads (fun before after : Desk => after.rows.length = before.rows.length)
      (repaint indices) := by
  have chains := chains_view fun desk : Desk => desk.rows.length
  have changes : ∀ index change, Leads (fun before after : Desk =>
      after.rows.length = before.rows.length) (changeRow index change) := fun index change =>
    leads_modify fun desk => List.length_modify ..
  refine leads_forM chains (fun index => ?_) indices
  refine leads_bind chains (leads_get chains) fun desk => ?_
  split
  · refine leads_bind chains (changes _ _) fun _ => ?_
    refine leads_bind chains (leads_get chains) fun desk => ?_
    refine leads_bind chains (leads_lift chains _) fun _ => ?_
    refine leads_bind chains (changes _ _) fun _ => ?_
    refine leads_bind chains (leads_lift chains _) fun _ => ?_
    exact changes _ _
  · exact leads_pure chains _

/-- Sending the cursor to a line leaves as many rows as there are. -/
theorem moveCursor_keeps_count (line : Int) (column : Option Int) :
    Leads (fun before after : Desk => after.rows.length = before.rows.length)
      (moveCursor line column) := by
  intro desk
  have chains := chains_view fun desk : Desk => desk.rows.length
  simp only [moveCursor, perform_bind, perform_get]
  split
  · have paints : Leads (fun before after : Desk => after.rows.length = before.rows.length) (do
        repaint (paintOrder desk.cursor line.toNat)
        modify syncPeek) :=
      leads_bind chains (repaint_keeps_count _) fun _ => leads_modify fun _ => rfl
    exact paints _
  · rfl

/-- Sending the cursor to a line leaves the lines that are shown and what is to be handled. -/
theorem exists_stance_moves {desk after : Desk} (moves : desk.Moves after) :
    ∃ cursor column, after.stance = { desk.stance with cursor, column } := by
  obtain ⟨line, asked, _, rfl⟩ := moves
  rw [stance_moveCursor]
  exact Stance.exists_moved_eq _ _ _

/-- Every act leaves a row for each line that is shown. -/
theorem count_act (world : World) {desk : Desk} (deed : Act) (steady : desk.stance.Steady)
    (count : desk.rows.length = desk.lines.length) :
    (desk.act world deed).rows.length = (desk.act world deed).lines.length := by
  have does := does_act world desk deed
  revert does
  generalize desk.act world deed = after
  intro does
  cases does with
  | asks | posts | gives | enters | clears | stops => exact count
  | moves moves =>
    obtain ⟨cursor, column, same⟩ := exists_stance_moves moves
    have lines : after.lines = desk.lines := congrArg Stance.lines same
    obtain ⟨line, asked, _, rfl⟩ := moves
    rw [lines, ← count]
    exact moveCursor_keeps_count line asked desk
  | shows _ _ => exact (showChange_paints_behind steady count _).count

variable {disk : Disk} {source : String} {settings : Settings} {engine : Engine} {desk : Desk}

/-- In every run there is a row for each line that is shown. -/
theorem count_of_run (created : Engine.create disk source settings = .ok engine)
    (run : Run (Desk.start engine) desk) : desk.rows.length = desk.lines.length := by
  induction run with
  | start => rfl
  | step world deed before count => exact count_act world deed (steady_of_run created before) count

/-! ## Rows wait to be painted -/

/-- Rows are right, or a change waits to be shown. -/
def Ready (desk : Desk) : Prop := desk.Painted ∨ .changed ∈ desk.postings

/-- What is known as it was read is known by its source. -/
theorem buffer_of_source {before after : Engine} (inStep : before.InStep) (later : after.InStep)
    (same : after.source = before.source) : after.buffer = before.buffer := by
  have path : after.state.sourcePath = before.state.sourcePath := congrArg Prod.fst same
  have text : after.state.sourceText = before.state.sourceText := congrArg Prod.snd same
  rw [inStep.path, later.path] at path
  rw [inStep.text, later.text] at text
  rw [show after.buffer = ⟨after.buffer.path, after.buffer.text⟩ from rfl, path, text]

/-- An engine that leaves nothing untold either can be seen as before, or a change waits. -/
theorem Ready.collect {after : Engine} (ready : desk.Ready) (steady : desk.stance.Steady)
    (advances : desk.engine.Advances after) (announces : desk.engine.Announces after) :
    Ready { desk with engine := after }.collect := by
  rcases announces.told with same | tells
  · refine ready.imp (fun painted => painted.of_canvas ?_ rfl) (List.mem_append_left _)
    have buffer : after.buffer = desk.engine.buffer :=
      buffer_of_source steady.inStep (advances.inStep steady.inStep) (congrArg Prod.fst same)
    have decorations : after.decorations = desk.engine.decorations := congrArg Prod.snd same
    show Canvas.mk after.buffer after.decorations desk.lines desk.cursor desk.column = desk.canvas
    rw [buffer, decorations, canvas]
  · exact .inr (@Stance.mem_postings_advanced desk.stance after steady.seen tells)

/-- Rows are right or wait to be painted after an act, if the transcript takes the entry of the
evaluation that is started by it. -/
theorem ready_act (world : World) (deed : Act) (steady : desk.stance.Steady)
    (count : desk.rows.length = desk.lines.length) (ready : desk.Ready)
    (admits : ∀ order, deed.order? desk = some order → desk.engine.Admits world order) :
    (desk.act world deed).Ready := by
  have does := does_act world desk deed
  revert does
  generalize desk.act world deed = after
  intro does
  cases does with
  | asks prompt notes =>
    exact ready.imp (fun painted => painted.of_canvas rfl rfl) id
  | posts prompt more =>
    exact ready.imp (fun painted => painted.of_canvas rfl rfl) (List.mem_append_left more)
  | gives order given =>
    exact ready.collect steady (.obey world _ order) (.obey (admits order given))
  | @enters order mode value rest given waiting =>
    have taken : Ready { desk with postings := rest } :=
      ready.imp (fun painted => painted.of_canvas rfl rfl) fun waits =>
        changed_mem_rest waiting waits
    exact taken.collect (steady.posted rest) (.obey world _ order) (.obey (admits order given))
  | clears => exact ready.collect steady (.clearDecorations _) (.clearDecorations _)
  | stops => exact ready.collect steady (.stop _) (.stop _)
  | moves moves =>
    obtain ⟨cursor, column, same⟩ := exists_stance_moves moves
    have postings : after.postings = desk.postings := congrArg Stance.postings same
    obtain ⟨line, asked, _, rfl⟩ := moves
    exact ready.imp (fun painted => painted.moveCursor steady.cursor line asked)
      fun waits => postings ▸ waits
  | shows _ _ => exact .inl (showChange_paints_behind steady count _)

/-! ## Runs -/

/-- The desk comes to a state by acts, and since a change was shown last the transcript took the
entry of each evaluation that was started. -/
inductive Admitted (first : Desk) : Desk → Prop where
  /-- Nothing was done. -/
  | start : Admitted first first
  /-- A change is shown. -/
  | shown {desk : Desk} {rest : List Posting} (world : World) : Run first desk →
    desk.postings = .changed :: rest → Admitted first (desk.act world .handled)
  /-- Something is done, and the transcript takes the entry of the evaluation that it starts, if it
  starts one. -/
  | later {desk : Desk} (world : World) (deed : Act) : Admitted first desk →
    (∀ order, deed.order? desk = some order → desk.engine.Admits world order) →
    Admitted first (desk.act world deed)

/-- These are runs. -/
theorem Admitted.run {first desk : Desk} (admitted : Admitted first desk) : Run first desk := by
  induction admitted with
  | start => exact .start
  | shown world run _ => exact .step world .handled run
  | later world deed _ _ run => exact .step world deed run

/-- Every run is one of them if the transcript takes entries. -/
theorem admitted_of_run (created : Engine.create disk source settings = .ok engine)
    (takes : Transcript.Takes (settings.get "transcript_limit" DeskState.usualLimit))
    (run : Run (Desk.start engine) desk) : Admitted (Desk.start engine) desk := by
  have limited : Admitted (Desk.start engine) desk ∧ desk.engine.state.transcriptLimit =
      settings.get "transcript_limit" DeskState.usualLimit := by
    induction run with
    | start => exact ⟨.start, (Engine.inStep_create created).2⟩
    | @step desk world deed before ih =>
      obtain ⟨admitted, limit⟩ := ih
      exact ⟨.later world deed admitted fun _ _ => Engine.admits_of_takes (limit ▸ takes),
        (limit_act world deed (steady_of_run created before)).trans limit⟩
  exact limited.1

/-- In such a run rows are right, or a change waits to be shown. -/
theorem ready_of_admitted (created : Engine.create disk source settings = .ok engine)
    (admitted : Admitted (Desk.start engine) desk) : desk.Ready := by
  induction admitted with
  | start => exact .inl ⟨rfl, fun _ none_shown => absurd none_shown (Nat.not_lt_zero _)⟩
  | @shown desk rest world run waiting =>
    rw [act_handled world waiting]
    have count := count_of_run created run
    exact .inl (showChange_paints_behind (steady_of_run created run) count rest)
  | later world deed before admits ready =>
    exact ready_act world deed (steady_of_run created before.run)
      (count_of_run created before.run) ready admits

/-- In every run of the desk for a new engine in which the transcript took the entry of each
evaluation that was started since a change was shown last, once every change was shown: there is a
row for each line that is shown. What is written in it, its class of decoration and its mark of the
cursor are those of its line as the source, the decorations and the cursor are now. So painting all
rows again succeeds and changes nothing. -/
theorem rows_as_painted_again (created : Engine.create disk source settings = .ok engine)
    (admitted : Admitted (Desk.start engine) desk) (handled : .changed ∉ desk.postings) :
    desk.rows.length = desk.lines.length ∧
      (∀ index < desk.lines.length, ∃ row content decorations,
        desk.rows[index]? = some row ∧
          desk.renderLine index = .ok content ∧ row.content = content ∧
          desk.lineDecorations index = .ok decorations ∧
          row.decorationClass = decorations.head?.map (·.style) ∧
          (row.underCursor = true ↔ index = desk.cursor)) ∧
      desk.perform (repaint (List.range desk.lines.length)) = (desk, .ok ()) := by
  have painted : desk.Painted :=
    (ready_of_admitted created admitted).resolve_right handled
  refine ⟨painted.count, fun index inside => ?_, ?_⟩
  · obtain ⟨row, there, made⟩ := painted.right index inside
    obtain ⟨content, decorations, written, drawn, rfl⟩ := makeRow_eq_ok.mp made
    exact ⟨_, content, decorations, there, written, rfl, drawn, rfl, decide_eq_true_iff⟩
  · obtain ⟨rows, paints, again⟩ := repaint_paints painted.count painted.paintable
    have same : rows = desk.rows := painted.rows_unique again rfl
    rw [paints, same]

/-- A world with a source of two lines. -/
def twoLines : World := Engine.soleWorld "(a)\n(b)"

/-- The source is shown, its first form is evaluated, and a complaint about it is shown. -/
def complained : List (World × Act) :=
  [(twoLines, .ordered .start), (twoLines, .handled), (twoLines, .did .evaluateForm),
    (twoLines, .ordered (.answered (.text "2") [Engine.complaintAnswer "1"])),
    (twoLines, .handled), (twoLines, .handled)]

/-- The line of a complaint stays marked when the cursor goes to the next one. -/
theorem rows_as_painted_again_moved :
    ∃ first, Engine.create twoLines.disk "/a.clj" Engine.plainSettings = .ok first ∧
      let desk := (Desk.start first).acted (complained ++ [(twoLines, .did .down)])
      Admitted (Desk.start first) desk ∧ .changed ∉ desk.postings ∧
        desk.rows.map (fun row => (row.decorationClass, row.underCursor)) =
          [(some "compile-error", false), (none, true)] ∧
        desk.rows.length = desk.lines.length ∧
        desk.perform (repaint (List.range desk.lines.length)) = (desk, .ok ()) := by
  let deeds := complained ++ [(twoLines, .did .down)]
  obtain ⟨first, created, known⟩ := @Engine.exists_created _ twoLines.disk "/a.clj"
    Engine.plainSettings (fun first =>
      let desk := (Desk.start first).acted deeds
      (desk.postings, desk.rows.map fun row => (row.decorationClass, row.underCursor)))
    ([], [(some "compile-error", false), (none, true)]) (by decide +kernel)
  obtain ⟨handled, rows⟩ := Prod.mk.inj known
  have admitted : Admitted (Desk.start first) ((Desk.start first).acted deeds) :=
    admitted_of_run created (fun _ => ⟨_, rfl⟩) (Run.acted .start deeds)
  have waits : Posting.changed ∉ ((Desk.start first).acted deeds).postings := by
    rw [handled]
    exact List.not_mem_nil
  obtain ⟨count, _, again⟩ := rows_as_painted_again created admitted waits
  exact ⟨first, created, admitted, waits, rows, count, again⟩

/-- Settings in which the transcript keeps two entries and a half. -/
def halfSettings : Settings :=
  ⟨Path.ofText "/", [("transcript_limit", .real (.finite false 5 (-1)))]⟩

/-- With a limit of two and a half entries the transcript refuses the code of the second evaluation.
The complaint of the first one is gone by then, but its line stays marked, and nothing waits to be
shown. -/
theorem refused_evaluation_leaves_line_marked :
    ∃ first, Engine.create twoLines.disk "/a.clj" halfSettings = .ok first ∧
      let desk := (Desk.start first).acted (complained ++ [(twoLines, .did .evaluateForm)])
      Run (Desk.start first) desk ∧ desk.postings = [] ∧
        (desk.rows[0]?).bind (·.decorationClass) = some "compile-error" ∧
        (desk.lineDecorations 0).toOption = some [] := by
  let deeds := complained ++ [(twoLines, .did .evaluateForm)]
  obtain ⟨first, created, known⟩ := @Engine.exists_created _ twoLines.disk "/a.clj" halfSettings
    (fun first =>
      let desk := (Desk.start first).acted deeds
      (desk.postings, (desk.rows[0]?).bind (·.decorationClass), (desk.lineDecorations 0).toOption))
    ([], some "compile-error", some []) (by decide +kernel)
  obtain ⟨handled, known⟩ := Prod.mk.inj known
  obtain ⟨marked, drawn⟩ := Prod.mk.inj known
  exact ⟨first, created, Run.acted .start deeds, handled, marked, drawn⟩

end EvalDesk.Desk
