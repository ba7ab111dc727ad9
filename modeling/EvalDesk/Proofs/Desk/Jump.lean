import EvalDesk.Proofs.Desk.Cursor
import EvalDesk.Proofs.Engine.Search

/-!
# Jumps to definitions

The location of a definition is known before its source is shown, and the cursor is moved to each
definition once. When a change is shown between the location and the end of the request, the cursor
is moved while the lines are still those of the source from which the definition was asked for. So a
jump ends on the line of the definition exactly when no change is shown in between, or that source
has this line as well.
-/
namespace EvalDesk.Desk

open Fallible Engine

namespace Stance

variable {stance : Stance}

/-- A buffer has as many lines as are shown of it, but at least one. -/
theorem lineCount_eq (steady : stance.Steady) (shown : stance.shown = some stance.engine.source) :
    stance.engine.buffer.lineCount = max stance.lines.length 1 := by
  have lines : stance.lines = shownLines stance.engine.state.sourceText := steady.lines _ shown
  rw [lines, shownLines_eq steady.inStep]
  split
  · rename_i empty
    have text : stance.engine.buffer.text = "" := steady.inStep.text ▸ empty
    rw [Buffer.lineCount, Buffer.charLines, Buffer.chars, text]
    rfl
  · have some_line : 0 < stance.engine.buffer.lineCount :=
      List.length_pos_iff.mpr (Text.splitOn_ne_nil _ _)
    have count : stance.engine.buffer.lines.length = stance.engine.buffer.lineCount :=
      List.length_map _
    omega

/-- The cursor stands on the line if the line is known, and in front of it otherwise. -/
def AtLine (stance : Stance) (line : Int) (known : Bool) : Prop :=
  if known then (stance.cursor : Int) = line - 1 else (stance.cursor : Int) < line - 1

/-- It stands on the line exactly when the line is known. -/
theorem AtLine.cursor_iff {line : Int} {known : Bool} (there : stance.AtLine line known) :
    (stance.cursor : Int) = line - 1 ↔ known = true := by
  cases known with
  | true => exact ⟨fun _ => rfl, fun _ => there⟩
  | false =>
    have before : (stance.cursor : Int) < line - 1 := there
    exact ⟨fun same => absurd same (Int.ne_of_lt before),
      fun known => absurd known Bool.false_ne_true⟩

/-- A cursor that is sent to a line of the source that is shown reaches it exactly when the source
has the line. -/
theorem atLine_moved (steady : stance.Steady) (shown : stance.shown = some stance.engine.source)
    {line : Int} (first : 1 ≤ line) (column : Option Int) :
    (stance.moved (line - 1) column).AtLine line (stance.engine.buffer.hasLine line) := by
  have count := lineCount_eq steady shown
  have cursor := steady.cursor
  rw [AtLine]
  split
  · rename_i known
    have bounds := Buffer.hasLine_iff.mp known
    by_cases inside : 0 ≤ line - 1 ∧ line - 1 < stance.lines.length
    · rw [moved_inside column inside]
      show (((line - 1).toNat : Nat) : Int) = line - 1
      omega
    · rw [moved_outside column inside]
      omega
  · rename_i unknown
    rw [Buffer.hasLine_iff] at unknown
    rw [moved_outside column (by omega)]
    omega

/-- A cursor on a line stays there when another source with this line is shown, and one in front of
a line stays in front of it. -/
theorem atLine_sighted (steady : stance.Steady) {line : Int} {known : Bool}
    (there : stance.AtLine line known) (first : 1 ≤ line)
    (has : known = true → stance.engine.buffer.hasLine line = true) :
    stance.sighted.AtLine line known := by
  have count := lineCount_eq steady.sighted (shown_sighted stance)
  rw [engine_sighted] at count
  have cursor : stance.sighted.cursor = stance.cursor ∨
      stance.sighted.cursor = min stance.cursor (stance.sighted.lines.length - 1) := by
    by_cases same : stance.shown = some stance.engine.source
    · exact .inl (by rw [sighted_same same])
    · exact .inr (by rw [sighted_other same])
  cases known with
  | true =>
    have same : (stance.cursor : Int) = line - 1 := there
    have bounds := Buffer.hasLine_iff.mp (has rfl)
    show (stance.sighted.cursor : Int) = line - 1
    omega
  | false =>
    have before : (stance.cursor : Int) < line - 1 := there
    show (stance.sighted.cursor : Int) < line - 1
    omega

/-- The cursor was moved to a definition last, and it reached the line if the line was known. -/
structure Led (stance : Stance) (line : Int) (known : Bool) (answer : Nat) : Prop where
  /-- It was this definition. -/
  last : stance.lastAnswer = some answer
  /-- The line was reached or not. -/
  line : stance.AtLine line known

/-- When a change is shown the cursor is led to the definition that is known: it is moved there,
unless it was before. -/
theorem led_aimed (steady : stance.Steady) {found : Definition} {line : Int} {known early : Bool}
    (definition : stance.engine.state.definition = some found) (there : found.location.line = line)
    (first : 1 ≤ line) (has : known = true → stance.engine.buffer.hasLine line = true)
    (aim : if early then stance.Led line known found.answer
      else stance.lastAnswer ≠ some found.answer) :
    stance.sighted.aimed.Led line (if early then known else stance.engine.buffer.hasLine line)
      found.answer := by
  have still : stance.sighted.engine.state.definition = some found := by
    rw [engine_sighted]
    exact definition
  cases early with
  | true =>
    have led : stance.Led line known found.answer := aim
    have last : stance.sighted.lastAnswer = some found.answer :=
      (lastAnswer_sighted stance).trans led.last
    rw [aimed_same still last]
    exact ⟨last, atLine_sighted steady led.line first has⟩
  | false =>
    have other : stance.sighted.lastAnswer ≠ some found.answer := by
      rw [lastAnswer_sighted]
      exact aim
    have target : lineOf found = line - 1 := by
      rw [lineOf, there]
      omega
    let noted := { stance.sighted with lastAnswer := some found.answer }
    have shown : noted.shown = some noted.engine.source := shown_sighted stance
    have reached := atLine_moved ((Stays.noted still).steady steady.sighted) shown first
      (some (columnOf found))
    obtain ⟨cursor, place, moves⟩ := exists_moved_eq noted (line - 1) (some (columnOf found))
    rw [aimed_other still other, target]
    refine ⟨congrArg lastAnswer moves, ?_⟩
    have same : noted.engine.buffer.hasLine line = stance.engine.buffer.hasLine line :=
      congrArg (fun engine : Engine => engine.buffer.hasLine line) (engine_sighted stance)
    rw [same] at reached
    exact reached

end Stance

/-! ## Jumps -/

/-- The desk after a definition was asked for, by the answers that have not come yet, and by whether
a change was shown early, which is between the location and the end. Answers come at once or later,
one by one or together, and postings are handled in between. -/
inductive Jump (search : Search) (first : Desk) : List Table → Bool → Desk → Prop where
  /-- The definition is asked for, and some answers come back at once. -/
  | asked (world : World) {answers rest : List Table} :
    answers ++ rest = [search.told, search.done] →
    world.transport (first.engine.definitionRequest search.symbol) = ⟨none, answers, none⟩ →
    (rest = [] → first.engine.Locates world.disk search) →
    Jump search first rest false (first.act world (.ordered (.definition search.symbol)))
  /-- Further answers to the request come back. -/
  | heard (world : World) (id : Datum) {answers rest : List Table} {early : Bool} {desk : Desk} :
    Jump search first (answers ++ rest) early desk → answers ≠ [] →
    desk.engine.session.talkOf? id = some first.engine.session.talks.length →
    (rest = [] → desk.engine.Locates world.disk search) →
    Jump search first rest early (desk.act world (.ordered (.answered id answers)))
  /-- A posting is handled. -/
  | handled (world : World) {rest : List Table} {early : Bool} {desk : Desk} :
    Jump search first rest early desk →
    Jump search first rest
      (early || (rest.length = 1 && desk.postings.head? = some .changed)) (desk.act world .handled)

/-- A jump is part of a run. -/
theorem Jump.run {search : Search} {start first desk : Desk} {rest : List Table} {early : Bool}
    (jump : Jump search first rest early desk) (run : Run start first) : Run start desk := by
  induction jump with
  | asked world => exact .step world _ run
  | heard world id _ _ _ _ before => exact .step world _ before
  | handled world _ before => exact .step world _ before

/-- No change is shown early while both answers are expected, or none. -/
theorem Jump.calm {search : Search} {first desk : Desk} {rest : List Table} {early : Bool}
    (jump : Jump search first rest early desk) (other : rest.length ≠ 1) (world : World) :
    Jump search first rest early (desk.act world .handled) := by
  have handled := jump.handled world
  rwa [decide_eq_false other, Bool.false_and, Bool.or_false] at handled

/-- A change is shown early when only the end is expected. -/
theorem Jump.early {search : Search} {first desk : Desk} {rest : List Table} {early : Bool}
    (jump : Jump search first rest early desk) (last : rest.length = 1)
    (waits : desk.postings.head? = some .changed) (world : World) :
    Jump search first rest true (desk.act world .handled) := by
  have handled := jump.handled world
  rwa [decide_eq_true last, waits, decide_eq_true rfl, Bool.and_self, Bool.or_true] at handled

/-- What is known of a jump on the way: once the location has come back, the cursor was led to it
early or will be when the next change is shown; after the end this change waits, until it was
shown. -/
structure OnTheWay (search : Search) (asked : Buffer) (index : Nat) (rest : List Table)
    (early : Bool) (stance : Stance) : Prop where
  /-- The request is known. -/
  request : (stance.engine.session.requests[index]?).map (·.2) =
    some (.work (.definition search.symbol))
  /-- The rest of the answers is expected. -/
  expects : stance.engine.Expects search asked rest
  /-- Nothing is shown early before the location has come back. -/
  calm : stance.engine.answer? = none → early = false
  /-- The cursor was led to the definition, or will be. -/
  cursor : ∀ answer, stance.engine.answer? = some answer →
    (rest = [] ∧ stance.shown = some stance.engine.source ∧
      stance.Led search.location.line (!early || asked.hasLine search.location.line) answer) ∨
    ((rest = [] → .changed ∈ stance.postings) ∧
      if early then stance.Led search.location.line (asked.hasLine search.location.line) answer
      else stance.lastAnswer ≠ some answer)

section OnTheWay

variable {search : Search} {asked : Buffer} {index : Nat} {rest : List Table} {early : Bool}
  {stance : Stance}

/-- Further answers keep a jump on its way. -/
theorem OnTheWay.heard {answers : List Table} {engine : Engine}
    (way : OnTheWay search asked index (answers ++ rest) early stance) (steady : stance.Steady)
    (some_answer : answers ≠ []) (advances : stance.engine.Advances engine)
    (heard : Heard search asked rest stance.engine engine) :
    OnTheWay search asked index rest early (stance.advanced engine) := by
  have waits : rest = [] → .changed ∈ (stance.advanced engine).postings := fun nothing =>
    Stance.mem_postings_advanced steady.seen (heard.told nothing)
  refine ⟨request_mono advances.requests way.request, heard.expects, fun unknown => ?_,
    fun answer known => .inr ⟨waits, ?_⟩⟩
  · refine way.calm ?_
    cases before : stance.engine.answer? with
    | none => rfl
    | some answer =>
      have after := heard.answer answer before
      cases unknown.symm.trans after
  · cases before : stance.engine.answer? with
    | none =>
      rw [way.calm before]
      intro last
      have lower := steady.answered answer last
      rcases advances.answers answer known with earlier | ⟨least, _⟩
      · cases before.symm.trans earlier
      · omega
    | some number =>
      cases Option.some.inj ((heard.answer number before).symm.trans known)
      rcases way.cursor _ before with ⟨nothing, _⟩ | ⟨_, aim⟩
      · exact absurd (List.append_eq_nil_iff.mp nothing).1 some_answer
      · cases early with
        | true => exact ⟨aim.last, aim.line⟩
        | false => exact aim

/-- What keeps the definition and the source keeps a jump on its way. -/
theorem OnTheWay.kept {postings : List Posting} {engine : Engine}
    (way : OnTheWay search asked index rest early stance)
    (waits : .changed ∈ stance.postings → .changed ∈ postings)
    (advances : stance.engine.Advances engine) (same : engine.outlook = stance.engine.outlook) :
    OnTheWay search asked index rest early ({ stance with postings }.advanced engine) := by
  have answer : engine.answer? = stance.engine.answer? :=
    congrArg (fun outlook : Outlook => outlook.definition.map Definition.answer) same
  have source : engine.source = stance.engine.source := congrArg Outlook.source same
  refine ⟨request_mono advances.requests way.request, way.expects.of_outlook same,
    fun unknown => way.calm (answer.symm.trans unknown), fun number known => ?_⟩
  rcases way.cursor number (answer.symm.trans known) with ⟨nothing, shown, led⟩ | ⟨changed, aim⟩
  · refine .inl ⟨nothing, ?_, led.last, led.line⟩
    exact shown.trans (congrArg some source.symm)
  · refine .inr ⟨fun nothing => List.mem_append_left _ (waits (changed nothing)), ?_⟩
    cases early with
    | true => exact ⟨aim.last, aim.line⟩
    | false => exact aim

/-- A change that is taken from the postings and shown keeps a jump on its way. -/
theorem OnTheWay.shown (way : OnTheWay search asked index rest early stance)
    (steady : stance.Steady) (postings : List Posting) :
    OnTheWay search asked index rest (early || rest.length = 1)
      { stance with postings }.sighted.aimed := by
  let taken := { stance with postings }
  obtain ⟨_, _, _, same⟩ := Stance.exists_aimed_eq taken.sighted
  have engine : taken.sighted.aimed.engine = stance.engine :=
    (congrArg Stance.engine same).trans (Stance.engine_sighted taken)
  have shown : taken.sighted.aimed.shown = some taken.sighted.aimed.engine.source := by
    rw [(Stance.Stays.aimed _).shown, Stance.shown_sighted, Stance.engine_sighted, engine]
  have first := (Buffer.hasLine_iff.mp search.inside).1
  have expects := way.expects
  refine ⟨by rw [engine]; exact way.request, by rw [engine]; exact expects, fun unknown => ?_,
    fun answer known => ?_⟩
  · rw [engine] at unknown
    rw [way.calm unknown]
    cases expects with
    | both => rfl
    | last _ definition | nothing _ definition =>
      rw [answer?, definition] at unknown
      cases unknown
  · rw [engine] at known
    obtain ⟨found, definition, rfl⟩ := Option.map_eq_some_iff.mp known
    rcases way.cursor _ known with ⟨rfl, before, led⟩ | ⟨_, aim⟩
    · have landed : taken.sighted.aimed = taken := by
        rw [@Stance.sighted_same taken before, @Stance.aimed_same taken found definition led.last]
      rw [landed]
      refine .inl ⟨rfl, before, led.last, ?_⟩
      rw [Bool.or_comm early]
      exact led.line
    · have aimed : if early then
          taken.Led search.location.line (asked.hasLine search.location.line) found.answer
          else taken.lastAnswer ≠ some found.answer := by
        cases early with
        | true => exact ⟨aim.last, aim.line⟩
        | false => exact aim
      cases expects with
      | both unknown => cases unknown.symm.trans definition
      | last answer told source =>
        cases told.symm.trans definition
        have led := @Stance.led_aimed taken (steady.posted postings) _ _ _ _ definition rfl first
          (fun has => source ▸ has) aimed
        have own : taken.engine.buffer = asked := source
        rw [own, ite_self] at led
        refine .inr ⟨fun nothing => absurd nothing (List.cons_ne_nil _ _), ?_⟩
        rw [Bool.or_comm early]
        exact led
      | nothing answer told source =>
        cases told.symm.trans definition
        have led := @Stance.led_aimed taken (steady.posted postings) _ _ _ _ definition rfl first
          (fun _ => source ▸ search.inside) aimed
        have own : taken.engine.buffer = search.buffer := source
        rw [own, search.inside] at led
        refine .inl ⟨rfl, shown, led.last, ?_⟩
        cases early with
        | true => exact led.line
        | false => exact led.line

end OnTheWay

/-- A text that was entered is evaluated. -/
theorem exists_code (world : World) (mode : Panel.Prompt.Mode) (value : String) :
    ∃ code, handle world (.entered mode value) = engineAction (Engine.evaluateCode world code) := by
  cases mode with
  | ns => exact ⟨"(in-ns '" ++ value ++ ")", rfl⟩
  | expression => exact ⟨value, rfl⟩

variable {disk : Disk} {source : String} {settings : Settings} {engine : Engine}
  {search : Search} {first desk : Desk} {rest : List Table} {early : Bool}

/-- A jump from a desk in a run is on its way. -/
theorem Jump.onTheWay (created : Engine.create disk source settings = .ok engine)
    (run : Run (Desk.start engine) first) (jump : Jump search first rest early desk) :
    OnTheWay search first.engine.buffer first.engine.session.talks.length rest early
      desk.stance := by
  induction jump with
  | asked world split exchange locates =>
    have steady := steady_of_run created run
    obtain ⟨tells, least⟩ := tells_ask world first.engine search.symbol
    refine ⟨request_dispatch world _ _ _ _ _, expects_ask world split exchange locates,
      fun _ => rfl, fun answer known => .inr ⟨fun _ => ?_, fun last => ?_⟩⟩
    · exact Stance.mem_postings_advanced steady.seen tells
    · have lower := steady.answered answer last
      exact Nat.not_lt.mpr (least answer known) lower
  | @heard world id answers rest early desk before some_answer known locates way =>
    have steady := steady_of_run created (before.run run)
    obtain ⟨after, finishes, heard⟩ := way.expects.hearAll way.request some_answer locates
    have delivers : desk.engine.obey world (.answered id answers) = after := by
      rw [obey, deliver, known]
      exact congrArg Prod.fst finishes
    have advances := Advances.obey world desk.engine (.answered id answers)
    rw [delivers] at advances
    have same : (desk.act world (.ordered (.answered id answers))).stance =
        desk.stance.advanced after := by
      rw [← delivers]
      exact stance_engineAction desk _
    rw [same]
    exact way.heard steady some_answer advances heard
  | @handled world rest early desk before way =>
    have steady := steady_of_run created (before.run run)
    cases waiting : desk.postings with
    | nil =>
      have same : desk.act world .handled = desk := by
        rw [act, waiting]
        rfl
      rw [same]
      simpa using way
    | cons posting others =>
      cases posting with
      | changed =>
        rw [stance_handled_changed world steady waiting]
        have shown := way.shown steady others
        rw [List.head?_cons, decide_eq_true rfl, Bool.and_true]
        exact shown
      | entered mode value =>
        obtain ⟨code, evaluates⟩ := exists_code world mode value
        let taken := { desk with postings := others }
        have kept : OnTheWay search first.engine.buffer first.engine.session.talks.length rest early
            (desk.act world .handled).stance := by
          rw [act_handled world waiting, evaluates]
          exact way.kept (changed_mem_rest waiting) (.obey world desk.engine (.code code none))
            (evaluateCode_keeps_outlook world code desk.engine)
        simpa using kept

/-- A jump from a desk in a run of a new engine, to a location whose source exists and has its line,
when all answers have come back and every change was shown: the lines are those of this source, and
the cursor is on the line of the definition if and only if no change was shown early, or the source
from which the definition was asked for has this line as well. -/
theorem cursor_on_definition_iff (created : Engine.create disk source settings = .ok engine)
    (run : Run (Desk.start engine) first) (jump : Jump search first [] early desk)
    (handled : .changed ∉ desk.postings) :
    (∃ answer, desk.engine.state.definition =
        some ⟨{ search.location with path := search.path }, answer⟩) ∧
      desk.engine.buffer = search.buffer ∧ desk.lines = shownLines search.buffer.text ∧
      ((desk.cursor : Int) = search.location.line - 1 ↔
        early = false ∨ first.engine.buffer.hasLine search.location.line = true) := by
  have steady := steady_of_run created (jump.run run)
  have way := jump.onTheWay created run
  cases way.expects with
  | nothing answer known source =>
    have number : desk.stance.engine.answer? = some answer := congrArg _ known
    rcases way.cursor answer number with ⟨_, shown, led⟩ | ⟨changed, _⟩
    · refine ⟨⟨answer, known⟩, source, ?_, ?_⟩
      · have lines := steady.lines _ shown
        rw [show desk.stance.engine.source.2 = _ from steady.inStep.text, source] at lines
        exact lines
      · have there := led.line.cursor_iff
        simp only [Bool.or_eq_true, Bool.not_eq_true'] at there
        exact there
    · exact absurd (changed rfl) handled

/-- A world with two sources, in which nothing is answered at once. -/
def twoSources : World :=
  ⟨⟨[(["a.clj"], .file ("(b)".toList.map fun letter => letter.toNat.toUInt8)),
    (["b.clj"], .file ("(ns b)\n\n(defn b [])\n".toList.map fun letter => letter.toNat.toUInt8))],
    Path.ofText "/"⟩, fun _ => ⟨none, [], none⟩⟩

/-- The search from one source for a definition on the third line of the other. -/
def otherSearch : Search where
  symbol := "b"
  location := ⟨"/b.clj", 3, some 1, none⟩
  path := "/b.clj"
  buffer := ⟨"/b.clj", "(ns b)\n\n(defn b [])\n"⟩
  told := [("id", .text "2"), ("value", .text "[\"/b.clj\" 3 1]")]
  done := [("id", .text "2"), ("status", .list [.text "done"])]
  tells := ⟨⟨_, _, _, rfl, rfl⟩, ⟨_, rfl, rfl⟩⟩
  ends := ⟨rfl, ⟨_, rfl, rfl⟩, ⟨_, rfl⟩⟩
  inside := by decide +kernel

/-- The other source is found from the one that is shown first. -/
theorem locates_otherSearch {engine : Engine} (path : engine.state.sourcePath = "/a.clj") :
    engine.Locates twoSources.disk otherSearch := by
  have readable : (Source.ofFile twoSources.disk (Path.ofText "/b.clj").text).toOption =
      some otherSearch.buffer := by decide +kernel
  have read : Source.ofFile twoSources.disk (Path.ofText "/b.clj").text =
      .ok otherSearch.buffer := by
    cases found : Source.ofFile twoSources.disk (Path.ofText "/b.clj").text with
    | error fault =>
      rw [found] at readable
      contradiction
    | ok buffer =>
      rw [found] at readable
      exact congrArg _ (Option.some.inj readable)
  refine @Finds.file engine twoSources.disk otherSearch.location (Path.ofText "/b.clj") _ _
    (.inl rfl) rfl ?_ read rfl
  rw [path]
  decide

/-- The first source is shown. -/
def firstShown : List (World × Act) := [(twoSources, .ordered .start), (twoSources, .handled)]

/-- The location and the end come back together, and then every change is shown. -/
def jumpTogether : List (World × Act) :=
  [(twoSources, .ordered (.definition otherSearch.symbol)),
    (twoSources, .ordered (.answered (.text "2") [otherSearch.told, otherSearch.done])),
    (twoSources, .handled), (twoSources, .handled), (twoSources, .handled)]

/-- When the location and the end come back together, the cursor is on the definition. -/
theorem cursor_on_definition_iff_together :
    ∃ engine, Engine.create twoSources.disk "/a.clj" plainSettings = .ok engine ∧
      let first := (Desk.start engine).acted firstShown
      let desk := first.acted jumpTogether
      Run (Desk.start engine) first ∧ Jump otherSearch first [] false desk ∧
        .changed ∉ desk.postings ∧ desk.lines = shownLines otherSearch.buffer.text ∧
        (desk.cursor : Int) = otherSearch.location.line - 1 := by
  obtain ⟨engine, created, known⟩ := @Engine.exists_created _ twoSources.disk "/a.clj"
    plainSettings (fun engine =>
      let first := (Desk.start engine).acted firstShown
      let asked := first.acted (jumpTogether.take 1)
      (first.engine.session.talks.length, asked.engine.session.talkOf? (.text "2"),
        asked.engine.state.sourcePath, (first.acted jumpTogether).postings))
    (1, some 1, "/a.clj", []) (by decide +kernel)
  obtain ⟨count, known⟩ := Prod.mk.inj known
  obtain ⟨talk, known⟩ := Prod.mk.inj known
  obtain ⟨path, handled⟩ := Prod.mk.inj known
  have run : Run (Desk.start engine) ((Desk.start engine).acted firstShown) := .acted .start _
  have asked := @Jump.asked otherSearch ((Desk.start engine).acted firstShown) twoSources []
    _ rfl rfl fun nothing => absurd nothing (List.cons_ne_nil _ _)
  have heard := @Jump.heard otherSearch _ twoSources (.text "2")
    [otherSearch.told, otherSearch.done] [] _ _ asked (List.cons_ne_nil _ _)
    (talk.trans (congrArg some count.symm)) fun _ => locates_otherSearch path
  have jump : Jump otherSearch ((Desk.start engine).acted firstShown) [] false
      (((Desk.start engine).acted firstShown).acted jumpTogether) :=
    ((heard.calm (by decide) twoSources).calm (by decide) twoSources).calm (by decide) twoSources
  have waits : Posting.changed ∉
      (((Desk.start engine).acted firstShown).acted jumpTogether).postings := by
    rw [handled]
    exact List.not_mem_nil
  obtain ⟨_, _, lines, there⟩ := cursor_on_definition_iff created run jump waits
  exact ⟨engine, created, run, jump, waits, lines, there.mpr (.inl rfl)⟩

/-- The location comes back and a change is shown, and then the end comes back. -/
def jumpApart : List (World × Act) :=
  [(twoSources, .ordered (.definition otherSearch.symbol)), (twoSources, .handled),
    (twoSources, .ordered (.answered (.text "2") [otherSearch.told])), (twoSources, .handled),
    (twoSources, .ordered (.answered (.text "2") [otherSearch.done])), (twoSources, .handled)]

/-- When a change is shown between the location and the end, the cursor stays on the first line
though the definition is on the third. -/
theorem shown_early_misses_definition :
    ∃ engine, Engine.create twoSources.disk "/a.clj" plainSettings = .ok engine ∧
      let first := (Desk.start engine).acted firstShown
      let desk := first.acted jumpApart
      Run (Desk.start engine) first ∧ Jump otherSearch first [] true desk ∧ desk.postings = [] ∧
        desk.lines = ["(ns b)", "", "(defn b [])", ""] ∧ otherSearch.location.line = 3 ∧
        desk.cursor = 0 := by
  obtain ⟨engine, created, known⟩ := @Engine.exists_created _ twoSources.disk "/a.clj"
    plainSettings (fun engine =>
      let first := (Desk.start engine).acted firstShown
      let asked := (first.act twoSources (.ordered (.definition otherSearch.symbol))).act
        twoSources .handled
      let told := asked.act twoSources (.ordered (.answered (.text "2") [otherSearch.told]))
      let shown := told.act twoSources .handled
      (first.engine.session.talks.length, asked.engine.session.talkOf? (.text "2"),
        shown.engine.session.talkOf? (.text "2"), shown.engine.state.sourcePath))
    (1, some 1, some 1, "/a.clj") (by decide +kernel)
  obtain ⟨count, known⟩ := Prod.mk.inj known
  obtain ⟨before, known⟩ := Prod.mk.inj known
  obtain ⟨after, path⟩ := Prod.mk.inj known
  have further := @Engine.of_created _ _ _ _ _ (fun engine =>
      let first := (Desk.start engine).acted firstShown
      let asked := (first.act twoSources (.ordered (.definition otherSearch.symbol))).act
        twoSources .handled
      let told := asked.act twoSources (.ordered (.answered (.text "2") [otherSearch.told]))
      let desk := first.acted jumpApart
      (told.postings.head?, desk.postings, desk.lines, desk.cursor))
    (some .changed, [], ["(ns b)", "", "(defn b [])", ""], 0) created (by decide +kernel)
  obtain ⟨waits, further⟩ := Prod.mk.inj further
  obtain ⟨handled, further⟩ := Prod.mk.inj further
  obtain ⟨lines, cursor⟩ := Prod.mk.inj further
  have run : Run (Desk.start engine) ((Desk.start engine).acted firstShown) := .acted .start _
  have asked := @Jump.asked otherSearch ((Desk.start engine).acted firstShown) twoSources []
    _ rfl rfl fun nothing => absurd nothing (List.cons_ne_nil _ _)
  have told := @Jump.heard otherSearch _ twoSources (.text "2") [otherSearch.told]
    [otherSearch.done] _ _ (asked.calm (by decide) twoSources) (List.cons_ne_nil _ _)
    (before.trans (congrArg some count.symm))
    fun nothing => absurd nothing (List.cons_ne_nil _ _)
  have shown := told.early rfl waits twoSources
  have done := @Jump.heard otherSearch _ twoSources (.text "2") [otherSearch.done] [] _ _
    shown (List.cons_ne_nil _ _) (after.trans (congrArg some count.symm))
    fun _ => locates_otherSearch path
  have jump : Jump otherSearch ((Desk.start engine).acted firstShown) [] true
      (((Desk.start engine).acted firstShown).acted jumpApart) := done.calm (by decide) twoSources
  exact ⟨engine, created, run, jump, handled, lines, rfl, cursor⟩

end EvalDesk.Desk
