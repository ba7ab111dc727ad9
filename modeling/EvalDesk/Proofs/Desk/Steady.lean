import EvalDesk.Proofs.Desk.Acts
import EvalDesk.Proofs.Desk.Stance
import EvalDesk.Proofs.Engine.Telling

/-!
# Runs of the desk

Every act keeps the desk steady: the lines that are shown are those of the source that was shown
last, and the cursor stands on one of them. As long as the transcript takes entries, a source that
is not shown yet waits among the postings.
-/
namespace EvalDesk.Desk

open Fallible

namespace Stance

/-- The desk is steady. -/
structure Steady (stance : Stance) : Prop where
  /-- The source that is known is the one that was read. -/
  inStep : stance.engine.InStep
  /-- All effects of the engine were looked at. -/
  seen : stance.seen = stance.engine.effects.length
  /-- The lines are those of the source that was shown last. -/
  lines : ∀ source, stance.shown = some source → stance.lines = shownLines source.2
  /-- There are none before a source was shown. -/
  bare : stance.shown = none → stance.lines = []
  /-- The cursor stands on one of them. -/
  cursor : stance.cursor ≤ stance.lines.length - 1
  /-- It does not stand in front of the line. -/
  column : 0 ≤ stance.column
  /-- The definition that the cursor was moved to is one that came back. -/
  answered : ∀ answer, stance.lastAnswer = some answer → answer < stance.engine.locations
  /-- The definition that is known is one that came back. -/
  counted : ∀ answer, stance.engine.answer? = some answer → answer < stance.engine.locations

/-- No source is shown, or the one that is known is shown, or a change waits to be shown. -/
def Fresh (stance : Stance) : Prop :=
  stance.shown = none ∨ stance.shown = some stance.engine.source ∨ .changed ∈ stance.postings

/-- The cursor does not stand behind the end of its line. -/
def OnLine (stance : Stance) : Prop :=
  stance.column ≤ (stance.lines.getD stance.cursor "").length

/-- Between two stances the same source stays shown, and nothing that holds is lost. -/
structure Stays (before after : Stance) : Prop where
  /-- The desk stays steady. -/
  steady : before.Steady → after.Steady
  /-- The transcript keeps as many entries as before. -/
  limit : after.engine.state.transcriptLimit = before.engine.state.transcriptLimit
  /-- Another source waits to be shown. -/
  fresh : Transcript.Takes before.engine.state.transcriptLimit → before.Steady → before.Fresh →
    after.Fresh
  /-- The same source is shown. -/
  shown : after.shown = before.shown
  /-- The cursor stays on its line. -/
  onLine : before.OnLine → after.OnLine

/-- The same stance loses nothing. -/
theorem Stays.of_eq {before after : Stance} (same : after = before) : Stays before after := by
  rw [same]
  exact ⟨id, rfl, fun _ _ fresh => fresh, rfl, id⟩

/-- Nothing is lost over a further time. -/
theorem Stays.trans {before middle after : Stance} (first : Stays before middle)
    (second : Stays middle after) : Stays before after :=
  ⟨fun steady => second.steady (first.steady steady), second.limit.trans first.limit,
    fun takes steady fresh =>
      second.fresh (first.limit ▸ takes) (first.steady steady) (first.fresh takes steady fresh),
    second.shown.trans first.shown, fun onLine => second.onLine (first.onLine onLine)⟩

variable {stance : Stance}

/-- A cursor that is sent to a line stands on it, and not behind its end. -/
theorem onLine_moved {line : Int} (column : Option Int)
    (inside : 0 ≤ line ∧ line < stance.lines.length) : (stance.moved line column).OnLine := by
  rw [moved_inside column inside]
  exact Int.min_le_right _ _

/-- Sending the cursor to a column that is not in front of a line loses nothing. -/
theorem Stays.moved (stance : Stance) (line : Int) {column : Option Int}
    (inside : 0 ≤ stance.column → ∀ asked, column = some asked → 0 ≤ asked) :
    Stays stance (stance.moved line column) := by
  by_cases known : 0 ≤ line ∧ line < stance.lines.length
  · have onLine := onLine_moved column known
    rw [moved_inside column known] at onLine ⊢
    refine ⟨fun steady => ?_, rfl, fun _ _ fresh => fresh, rfl, fun _ => onLine⟩
    refine ⟨steady.inStep, steady.seen, steady.lines, steady.bare, ?_, ?_, steady.answered,
      steady.counted⟩
    · show line.toNat ≤ stance.lines.length - 1
      omega
    · show 0 ≤ min (column.getD stance.column) _
      have behind : 0 ≤ column.getD stance.column := by
        cases column with
        | none => exact steady.column
        | some asked => exact inside steady.column asked rfl
      omega
  · exact .of_eq (moved_outside column known)

/-- A change that was told is posted. -/
theorem mem_postings_advanced {engine : Engine} (seen : stance.seen = stance.engine.effects.length)
    (tells : stance.engine.Tells engine) : .changed ∈ (stance.advanced engine).postings := by
  obtain ⟨status, told⟩ := tells
  refine List.mem_append_right _ (List.mem_map.mpr ⟨.updated status, ?_, rfl⟩)
  rw [seen]
  exact List.mem_filter.mpr ⟨told, rfl⟩

/-- An engine that goes on loses nothing, if it tells of what can be seen whenever the transcript
takes entries. -/
theorem Stays.advanced {engine : Engine} (advances : stance.engine.Advances engine)
    (announces : Transcript.Takes stance.engine.state.transcriptLimit →
      stance.engine.Announces engine) : Stays stance (stance.advanced engine) := by
  refine ⟨fun steady => ?_, advances.limit, fun takes steady fresh => ?_, rfl, id⟩
  · refine ⟨advances.inStep steady.inStep, rfl, steady.lines, steady.bare, steady.cursor,
      steady.column, fun answer last => ?_, fun answer known => ?_⟩
    · exact Nat.lt_of_lt_of_le (steady.answered answer last) advances.locations
    · rcases advances.answers answer known with earlier | ⟨_, most⟩
      · exact Nat.lt_of_lt_of_le (steady.counted answer earlier) advances.locations
      · exact most
  · rcases fresh with unshown | same | waits
    · exact .inl unshown
    · rcases (announces takes).told with kept | told
      · have source : engine.source = stance.engine.source := congrArg Prod.fst kept
        exact .inr (.inl (source ▸ same))
      · exact .inr (.inr (mem_postings_advanced steady.seen told))
    · exact .inr (.inr (List.mem_append_left _ waits))

/-- The desk is steady whatever is to be handled. -/
theorem Steady.posted (steady : stance.Steady) (postings : List Posting) :
    Steady { stance with postings } :=
  ⟨steady.inStep, steady.seen, steady.lines, steady.bare, steady.cursor, steady.column,
    steady.answered, steady.counted⟩

/-- Showing the source keeps the desk steady. -/
theorem Steady.sighted (steady : stance.Steady) : stance.sighted.Steady := by
  by_cases same : stance.shown = some stance.engine.source
  · rw [sighted_same same]
    exact steady
  · rw [sighted_other same]
    refine ⟨steady.inStep, steady.seen, fun source shown => ?_, fun unshown => ?_,
      Nat.min_le_right _ _, steady.column, steady.answered, steady.counted⟩
    · cases shown
      exact (shownLines_eq steady.inStep).symm
    · cases unshown

/-- Showing the source leaves the engine. -/
theorem engine_sighted (stance : Stance) : stance.sighted.engine = stance.engine := by
  unfold Stance.sighted
  split <;> rfl

/-- Showing the source does not send the cursor to a definition. -/
theorem lastAnswer_sighted (stance : Stance) : stance.sighted.lastAnswer = stance.lastAnswer := by
  unfold Stance.sighted
  split <;> rfl

/-- The source of the engine is shown after it was shown. -/
theorem shown_sighted (stance : Stance) :
    stance.sighted.shown = some stance.sighted.engine.source := by
  by_cases same : stance.shown = some stance.engine.source
  · rw [sighted_same same]
    exact same
  · rw [sighted_other same]

/-- Remembering the definition that is known loses nothing. -/
theorem Stays.noted {found : Definition} (known : stance.engine.state.definition = some found) :
    Stays stance { stance with lastAnswer := some found.answer } := by
  refine ⟨fun steady => ?_, rfl, fun _ _ fresh => fresh, rfl, id⟩
  refine ⟨steady.inStep, steady.seen, steady.lines, steady.bare, steady.cursor, steady.column,
    fun answer last => ?_, steady.counted⟩
  refine steady.counted answer ?_
  rw [Engine.answer?, known]
  exact last

/-- Moving the cursor to a definition loses nothing. -/
theorem Stays.aimed (stance : Stance) : Stays stance stance.aimed := by
  cases known : stance.engine.state.definition with
  | none => exact .of_eq (aimed_none known)
  | some found =>
    by_cases same : stance.lastAnswer = some found.answer
    · exact .of_eq (aimed_same known same)
    · rw [aimed_other known same]
      let noted := { stance with lastAnswer := some found.answer }
      have inside : 0 ≤ noted.column → ∀ asked, some (columnOf found) = some asked → 0 ≤ asked := by
        rintro _ asked same
        cases same
        exact Int.le_max_right _ _
      exact (Stays.noted known).trans (.moved noted (lineOf found) inside)

end Stance

/-! ## Acts -/

/-- What the engine does takes nothing back, and it tells of another source when the transcript
takes entries. -/
theorem Stance.Stays.does {stance : Stance} {engine : Engine}
    (does : stance.engine.Does engine) : Stays stance (stance.advanced engine) := by
  cases does with
  | order world order =>
    exact .advanced (.obey world stance.engine order) fun takes =>
      Engine.Announces.obey (Engine.admits_of_takes takes)
  | cleared =>
    exact .advanced (.clearDecorations stance.engine) fun _ => .clearDecorations stance.engine
  | stopped => exact .advanced (.stop stance.engine) fun _ => .stop stance.engine

/-- A change that waits still does when a text that was entered is taken away. -/
theorem changed_mem_rest {desk : Desk} {mode : Panel.Prompt.Mode} {value : String}
    {rest : List Posting} (waiting : desk.postings = .entered mode value :: rest)
    (waits : .changed ∈ desk.stance.postings) : .changed ∈ rest := by
  have member : Posting.changed ∈ desk.postings := waits
  rw [waiting] at member
  cases member with
  | tail _ later => exact later

/-- What an act does besides sending the cursor to a line and showing a change loses nothing. -/
theorem actLaw_stays : ActLaw fun before after => before.stance.Stays after.stance where
  chains := ⟨fun _ => .of_eq rfl, fun first second => first.trans second⟩
  does {desk engine} does := @Stance.Stays.does desk.stance engine does
  asks _ _ _ := .of_eq rfl
  posts desk more := by
    refine ⟨fun steady => steady.posted _, rfl, fun _ _ fresh => ?_, rfl, id⟩
    exact fresh.imp id (Or.imp id (List.mem_append_left more))
  takes waiting := by
    refine ⟨fun steady => steady.posted _, rfl, fun _ _ fresh => ?_, rfl, id⟩
    refine fresh.imp id (Or.imp id fun waits => changed_mem_rest waiting waits)

/-- A change that is shown is shown on the stance. -/
theorem stance_changed {desk : Desk} {rest : List Posting} (steady : desk.stance.Steady) :
    (Desk.perform { desk with postings := rest } showChange).1.stance =
      { desk.stance with postings := rest }.sighted.aimed :=
  stance_showChange { desk with postings := rest } (showSource_succeeds _ steady.inStep
    fun same => steady.lines _ same)

/-- A change that is handled is shown. -/
theorem stance_handled_changed (world : World) {desk : Desk} {rest : List Posting}
    (steady : desk.stance.Steady) (waiting : desk.postings = .changed :: rest) :
    (desk.act world .handled).stance =
      { desk.stance with postings := rest }.sighted.aimed := by
  rw [act_handled world waiting]
  exact stance_changed steady

/-- An act loses nothing, or it shows a change. -/
theorem act_cases (world : World) {desk : Desk} (steady : desk.stance.Steady) (deed : Act) :
    desk.stance.Stays (desk.act world deed).stance ∨
      ∃ rest, deed = .handled ∧ desk.postings = .changed :: rest ∧
        (desk.act world deed).stance = { desk.stance with postings := rest }.sighted.aimed := by
  rcases actLaw_stays.act_cases world desk deed with
    stays | ⟨line, column, inside, same⟩ | ⟨rest, handled, waiting, same⟩
  · exact .inl stays
  · rw [same, stance_moveCursor]
    exact .inl (.moved desk.stance line inside)
  · refine .inr ⟨rest, handled, waiting, ?_⟩
    rw [same]
    exact stance_changed steady

/-! ## Runs -/

/-- A desk for a new engine is steady, and no source is shown. -/
theorem steady_start {disk : Disk} {source : String} {settings : Settings} {engine : Engine}
    (created : Engine.create disk source settings = .ok engine) :
    (Desk.start engine).stance.Steady := by
  have inStep := (Engine.inStep_create created).1
  obtain ⟨projectRoot, rfl⟩ := Engine.exists_of_create created
  refine ⟨inStep, rfl, fun _ shown => ?_, fun _ => rfl, Nat.zero_le _, Int.le_refl _,
    fun _ last => ?_, fun _ known => ?_⟩
  · exact absurd shown.symm (Option.some_ne_none _)
  · exact absurd last.symm (Option.some_ne_none _)
  · exact absurd known.symm (Option.some_ne_none _)

/-- Every act keeps the desk steady. -/
theorem steady_act (world : World) {desk : Desk} (deed : Act) (steady : desk.stance.Steady) :
    (desk.act world deed).stance.Steady := by
  rcases act_cases world steady deed with stays | ⟨rest, _, _, same⟩
  · exact stays.steady steady
  · rw [same]
    exact (Stance.Stays.aimed _).steady (steady.posted rest).sighted

/-- Every act keeps the limit of the transcript. -/
theorem limit_act (world : World) {desk : Desk} (deed : Act) (steady : desk.stance.Steady) :
    (desk.act world deed).stance.engine.state.transcriptLimit =
      desk.stance.engine.state.transcriptLimit := by
  rcases act_cases world steady deed with stays | ⟨rest, _, _, same⟩
  · exact stays.limit
  · rw [same, (Stance.Stays.aimed _).limit, Stance.engine_sighted]

/-- As long as the transcript takes entries, a source that is not shown yet waits to be shown after
every act. -/
theorem fresh_act (world : World) {desk : Desk} (deed : Act) (steady : desk.stance.Steady)
    (takes : Transcript.Takes desk.engine.state.transcriptLimit) (fresh : desk.stance.Fresh) :
    (desk.act world deed).stance.Fresh := by
  rcases act_cases world steady deed with stays | ⟨rest, _, _, same⟩
  · exact stays.fresh takes steady fresh
  · rw [same]
    refine (Stance.Stays.aimed _).fresh ?_ (steady.posted rest).sighted
      (.inr (.inl (Stance.shown_sighted _)))
    rw [Stance.engine_sighted]
    exact takes

/-- The desk is steady in every run. -/
theorem steady_of_run {disk : Disk} {source : String} {settings : Settings} {engine : Engine}
    {desk : Desk} (created : Engine.create disk source settings = .ok engine)
    (run : Run (Desk.start engine) desk) : desk.stance.Steady := by
  induction run with
  | start => exact steady_start created
  | step world deed _ steady => exact steady_act world deed steady

/-- In every run a source that is not shown yet waits to be shown, if the transcript takes
entries. -/
theorem fresh_of_run {disk : Disk} {source : String} {settings : Settings} {engine : Engine}
    {desk : Desk} (created : Engine.create disk source settings = .ok engine)
    (takes : Transcript.Takes (settings.get "transcript_limit" DeskState.usualLimit))
    (run : Run (Desk.start engine) desk) : desk.stance.Fresh := by
  have limited : desk.stance.Fresh ∧ desk.engine.state.transcriptLimit =
      settings.get "transcript_limit" DeskState.usualLimit := by
    induction run with
    | start => exact ⟨.inl rfl, (Engine.inStep_create created).2⟩
    | step world deed before ih =>
      obtain ⟨fresh, limit⟩ := ih
      have steady := steady_of_run created before
      exact ⟨fresh_act world deed steady (limit ▸ takes) fresh,
        (limit_act world deed steady).trans limit⟩
  exact limited.1

end EvalDesk.Desk
