import EvalDesk.Proofs.Engine.Chronicle
import EvalDesk.Proofs.Engine.Timing

/-!
# The documentation that is shown

All requests for documentation write into one text. It is emptied when documentation is asked for,
whatever comes back for any of the requests is added to it, and at the end of any of them it tells
that there is no documentation if it is still blank. So what is shown is the documentation of the
symbol that was asked for last only if nothing of an earlier request is heard behind it: the main
result says exactly when.
-/
namespace EvalDesk

/-- What is told of a symbol without documentation. -/
def noDocumentation (symbol : String) : String := "No documentation found for " ++ symbol

/-- The text that an event writes into the documentation, if it writes any. -/
def Hearing.written? (hearing : Hearing) : Option String :=
  match hearing.purpose, hearing.event with
  | .documentation _, .output text _ | .documentation _, .errorOutput text _ => text.text?
  | _, _ => none

/-- The symbol whose request for documentation the event ends, if it ends one. -/
def Hearing.documented? (hearing : Hearing) : Option String :=
  match hearing.purpose, hearing.event with
  | .documentation symbol, .completed _ id =>
    if hearing.engine.remembers id then some symbol else none
  | _, _ => none

/-- The end of a request writes nothing. -/
theorem Hearing.written?_of_documented? {hearing : Hearing} {symbol : String}
    (ends : hearing.documented? = some symbol) : hearing.written? = none := by
  obtain ⟨index, purpose, event, disk, engine⟩ := hearing
  cases purpose <;> cases event <;> first | rfl | contradiction

/-- The symbol whose documentation is asked for, if it is. -/
def Sending.documented? (sending : Sending) : Option String :=
  match sending.topic with
  | .work (.documentation symbol) => some symbol
  | _ => none

/-- The documentation after something has happened. -/
def documentationAfter (shown : String) : Happening → String
  | .sent sending => if sending.documented?.isSome then "" else shown
  | .heard hearing =>
    match hearing.documented? with
    | some symbol => if Text.isBlankText shown then noDocumentation symbol else shown
    | none => shown ++ hearing.written?.getD ""

/-- Everything that some events have written, in order. -/
def writtenBy (who : Hearing → Bool) : List Happening → String
  | [] => ""
  | .sent _ :: rest => writtenBy who rest
  | .heard hearing :: rest =>
    (if who hearing then hearing.written?.getD "" else "") ++ writtenBy who rest

namespace Engine

/-- The documentation that is shown. -/
def shownDocumentation (engine : Engine) : String := engine.state.documentation

/-- Sources do not change the documentation. -/
theorem sourceless_shownDocumentation : Sourceless shownDocumentation :=
  sourceless_news.part News.documentation

/-- The documentation after text is added to it. -/
theorem shownDocumentation_add (text : Datum) (engine : Engine) :
    (engine.perform (addDocumentation text)).1.shownDocumentation =
      engine.shownDocumentation ++ text.text?.getD "" := by
  cases text with
  | text more => rfl
  | null | bool | integer | real | bytes | list | table =>
    exact (String.append_empty).symm

/-- The end of a request for documentation, if it can be taken, tells when there is none. -/
theorem shownDocumentation_end (symbol : String) (statuses : List String) (id : Datum)
    (engine : Engine) :
    (engine.perform (documentationEvent symbol (.completed statuses id))).1.shownDocumentation =
      if engine.remembers id && Text.isBlankText engine.shownDocumentation then
        noDocumentation symbol
      else engine.shownDocumentation := by
  rw [documentationEvent, perform_bind]
  rcases complete_cases engine statuses id with ⟨can, _, _, done⟩ | ⟨cannot, _, failed⟩
  · rw [done, can, Bool.true_and]
    by_cases blank : Text.isBlankText engine.shownDocumentation = true
    · have known : Text.isBlankText engine.state.documentation = true := blank
      rw [if_pos blank]
      simp only [perform_modify, withState, shownDocumentation, if_pos known]
      rfl
    · have known : ¬Text.isBlankText engine.state.documentation = true := blank
      rw [if_neg blank]
      simp only [perform_modify, withState, shownDocumentation, if_neg known]
  · rw [failed, cannot, Bool.false_and]
    rfl

/-- The documentation after an event. -/
theorem shownDocumentation_after (hearing : Hearing) : hearing.after.shownDocumentation =
    documentationAfter hearing.engine.shownDocumentation (.heard hearing) := by
  obtain ⟨index, purpose, event, disk, engine⟩ := hearing
  refine (congrArg News.documentation (news_after _)).trans ?_
  show (engine.perform (purposeEvent disk purpose event)).1.shownDocumentation = _
  have kept : Keeps shownDocumentation (purposeEvent disk purpose event) →
      (engine.perform (purposeEvent disk purpose event)).1.shownDocumentation =
        engine.shownDocumentation ++ "" :=
    fun keeps => (keeps engine).trans String.append_empty.symm
  cases purpose with
  | unheard => exact kept (keeps_pure _)
  | evaluation origin =>
    have apart : Resultless shownDocumentation :=
      ⟨fun _ _ _ => rfl, fun _ _ => rfl, fun _ _ => rfl, fun _ _ _ _ => rfl⟩
    have keeps := kept (apart.keeps_event (fun _ _ => rfl) (fun _ _ => rfl) (fun _ _ => rfl)
      disk origin event)
    cases event <;> exact keeps
  | documentation symbol =>
    cases event with
    | value result ns id => exact kept (keeps_pure _)
    | output text id => exact shownDocumentation_add text engine
    | errorOutput text id => exact shownDocumentation_add text engine
    | completed statuses id =>
      refine (shownDocumentation_end symbol statuses id engine).trans ?_
      simp only [documentationAfter, Hearing.documented?]
      cases engine.remembers id with
      | false => exact String.append_empty.symm
      | true => rfl
  | definition symbol =>
    have keeps : Keeps shownDocumentation (definitionEvent disk symbol event) := by
      cases event with
      | value result ns id => exact keeps_bind (keeps_lift _) fun _ => keeps_modify fun _ => rfl
      | output text id => exact keeps_pure _
      | errorOutput text id => exact fun _ => rfl
      | completed statuses id =>
        refine keeps_bind (complete_keeps (fun _ _ => rfl) (fun _ _ _ _ => rfl) statuses id)
          fun _ => keeps_bind keeps_get fun now => ?_
        split
        · exact keeps_modify fun _ => rfl
        · exact sourceless_shownDocumentation.keeps_showDefinition (fun _ _ _ => rfl) disk symbol _
    cases event <;> exact kept keeps

/-- What happens decides the documentation. -/
theorem accounts_documentationAfter :
    Accounts (fun news shown => news.documentation = shown) documentationAfter where
  sent := by
    intro before sending shown prepared agree
    obtain ⟨engine, message, topic⟩ := sending
    have cleared : engine.state.documentation = (before.cleared topic).documentation :=
      congrArg News.documentation prepared
    rw [news_sent, ← agree]
    refine cleared.trans ?_
    cases topic with
    | identity told => rfl
    | work purpose => cases purpose <;> rfl
  heard := by
    intro before hearing shown followed agree
    have same : hearing.engine.shownDocumentation = shown :=
      (congrArg News.documentation followed).trans agree
    rw [← same]
    exact shownDocumentation_after hearing

end Engine

/-! ## What is written between two questions -/

/-- The happening asks for documentation. -/
def Happening.asksDocumentation : Happening → Bool
  | .sent sending => sending.documented?.isSome
  | .heard _ => false

/-- The happening ends a request for documentation. -/
def Happening.endsDocumentation : Happening → Bool
  | .sent _ => false
  | .heard hearing => hearing.documented?.isSome

/-- Everything that is written by anyone. -/
abbrev written (happened : List Happening) : String := writtenBy (fun _ => true) happened

/-- Until a request for documentation ends or another is made, all that is written is added. -/
theorem documentation_before_end {happened : List Happening}
    (unasked : ∀ happening ∈ happened, happening.asksDocumentation = false)
    (unended : ∀ happening ∈ happened, happening.endsDocumentation = false) (shown : String) :
    happened.foldl documentationAfter shown = shown ++ written happened := by
  induction happened generalizing shown with
  | nil => exact String.append_empty.symm
  | cons happening rest ih =>
    have goes_on := ih (fun other member => unasked other (.tail _ member))
      (fun other member => unended other (.tail _ member))
    rw [List.foldl_cons, goes_on]
    have quiet := unasked happening (.head _)
    have open_ended := unended happening (.head _)
    cases happening with
    | sent sending =>
      simp only [Happening.asksDocumentation] at quiet
      rw [documentationAfter, quiet]
      rfl
    | heard hearing =>
      simp only [Happening.endsDocumentation, Option.isSome_eq_false_iff,
        Option.isNone_iff_eq_none] at open_ended
      rw [documentationAfter, open_ended, String.append_assoc]
      rfl

/-- A text with ink stays so when more is added. -/
theorem isBlankText_append (first second : String) :
    Text.isBlankText (first ++ second) = (Text.isBlankText first && Text.isBlankText second) := by
  simp only [Text.isBlankText, String.toList_append, List.all_append]

/-- Behind a text that is not blank all that is written is added, whatever ends. -/
theorem documentation_behind_ink {happened : List Happening}
    (unasked : ∀ happening ∈ happened, happening.asksDocumentation = false) {shown : String}
    (ink : Text.isBlankText shown = false) :
    happened.foldl documentationAfter shown = shown ++ written happened := by
  induction happened generalizing shown with
  | nil => exact String.append_empty.symm
  | cons happening rest ih =>
    have goes_on := fun {shown : String} => @ih (fun other member => unasked other (.tail _ member))
      shown
    have quiet := unasked happening (.head _)
    rw [List.foldl_cons]
    cases happening with
    | sent sending =>
      simp only [Happening.asksDocumentation] at quiet
      rw [documentationAfter, quiet]
      exact goes_on ink
    | heard hearing =>
      cases ends : hearing.documented? with
      | some symbol =>
        have adds : written (.heard hearing :: rest) = written rest := by
          rw [written, writtenBy, Hearing.written?_of_documented? ends]
          exact String.empty_append
        simp only [documentationAfter, ends, ink, Bool.false_eq_true, ↓reduceIte]
        rw [goes_on ink, adds]
      | none =>
        have still : Text.isBlankText (shown ++ hearing.written?.getD "") = false := by
          rw [isBlankText_append, ink, Bool.false_and]
        simp only [documentationAfter, ends]
        rw [goes_on still, String.append_assoc]
        rfl

section WrittenBy

variable (who : Hearing → Bool)

/-- What is written in two parts. -/
theorem writtenBy_append (first second : List Happening) :
    writtenBy who (first ++ second) = writtenBy who first ++ writtenBy who second := by
  induction first with
  | nil => exact String.empty_append.symm
  | cons happening rest ih =>
    cases happening with
    | sent sending => exact ih
    | heard hearing =>
      rw [List.cons_append, writtenBy, writtenBy, ih, String.append_assoc]

/-- What some write and what the others write is together as long as all of it. -/
theorem length_writtenBy (happened : List Happening) :
    (writtenBy who happened).length + (writtenBy (fun hearing => !who hearing) happened).length =
      (written happened).length := by
  induction happened with
  | nil => rfl
  | cons happening rest ih =>
    cases happening with
    | sent sending => exact ih
    | heard hearing =>
      simp only [written, writtenBy, String.length_append, ↓reduceIte] at ih ⊢
      by_cases own : who hearing = true
      · simp only [own, Bool.not_true, Bool.false_eq_true, ↓reduceIte, String.length_empty]
        omega
      · simp only [own, Bool.not_false, Bool.false_eq_true, ↓reduceIte, String.length_empty]
        omega

/-- All that is written is what some have written if and only if the others have written nothing. -/
theorem written_eq_writtenBy_iff (happened : List Happening) :
    written happened = writtenBy who happened ↔
      writtenBy (fun hearing => !who hearing) happened = "" := by
  constructor
  · intro same
    have lengths := length_writtenBy who happened
    rw [same] at lengths
    exact String.length_eq_zero_iff.mp (by omega)
  · intro nothing
    induction happened with
    | nil => rfl
    | cons happening rest ih =>
      cases happening with
      | sent sending => exact ih nothing
      | heard hearing =>
        rw [writtenBy, String.append_eq_empty_iff] at nothing
        have others : writtenBy (fun _ => true) rest = writtenBy who rest := ih nothing.2
        rw [written, writtenBy, writtenBy, if_pos rfl, others]
        by_cases own : who hearing = true
        · rw [if_pos own]
        · have silent := nothing.1
          rw [if_pos (by simpa using own)] at silent
          rw [if_neg own, silent]

/-- What some write is blank if all that is written is. -/
theorem isBlankText_writtenBy {happened : List Happening}
    (blank : Text.isBlankText (written happened) = true) :
    Text.isBlankText (writtenBy who happened) = true := by
  induction happened with
  | nil => rfl
  | cons happening rest ih =>
    cases happening with
    | sent sending => exact ih blank
    | heard hearing =>
      rw [written, writtenBy, if_pos rfl, isBlankText_append, Bool.and_eq_true] at blank
      rw [writtenBy, isBlankText_append, ih blank.2, Bool.and_true]
      split
      · exact blank.1
      · rfl

end WrittenBy

/-- The capital that starts what is told of a symbol without documentation is no white space. -/
theorem isSpace_capital : Text.isSpace 'N' = false := by decide +kernel

/-- So it starts with ink. -/
theorem exists_capital : ∃ rest, "No documentation found for ".toList = 'N' :: rest := ⟨_, rfl⟩

/-- What is told of a symbol without documentation starts with ink. -/
theorem exists_noDocumentation (symbol : String) :
    ∃ rest, (noDocumentation symbol).toList = 'N' :: rest := by
  obtain ⟨rest, starts⟩ := exists_capital
  have parts : (noDocumentation symbol).toList =
      "No documentation found for ".toList ++ symbol.toList := String.toList_append
  exact ⟨rest ++ symbol.toList, by rw [parts, starts, List.cons_append]⟩

/-- What is told of a symbol without documentation is no blank text. -/
theorem isBlankText_noDocumentation (symbol : String) :
    Text.isBlankText (noDocumentation symbol) = false := by
  obtain ⟨rest, starts⟩ := exists_noDocumentation symbol
  rw [Text.isBlankText, starts, List.all_cons, isSpace_capital, Bool.false_and]

/-- With more behind it, what is told of one symbol is what is told of another if the other symbol
is written in this way. -/
theorem noDocumentation_append_eq_iff (symbol other more : String) :
    noDocumentation other ++ more = noDocumentation symbol ↔ other ++ more = symbol := by
  have grouped : noDocumentation other ++ more = noDocumentation (other ++ more) :=
    String.append_assoc
  rw [grouped]
  exact String.append_right_inj _

/-- What is told of a symbol without documentation, in front of what is written later, is nothing
that a part of the writers has written, if only blanks were written before. -/
theorem noDocumentation_ne_writtenBy (who : Hearing → Bool) {before after : List Happening}
    (blank : Text.isBlankText (written before) = true) (symbol : String) :
    noDocumentation symbol ++ written after ≠ writtenBy who before ++ writtenBy who after := by
  intro same
  obtain ⟨rest, starts⟩ := exists_noDocumentation symbol
  have chars := congrArg String.toList same
  rw [String.toList_append, String.toList_append, starts] at chars
  cases early : (writtenBy who before).toList with
  | nil =>
    have shorter := length_writtenBy who after
    rw [early, List.nil_append] at chars
    have lengths := congrArg List.length chars
    simp only [List.length_append, List.length_cons, String.length_toList] at lengths
    omega
  | cons first more =>
    have blanks := isBlankText_writtenBy who blank
    rw [early] at chars
    rw [Text.isBlankText, early, List.all_cons, Bool.and_eq_true] at blanks
    have capital : first = 'N' := (List.cons.inj chars).1.symm
    rw [capital, isSpace_capital] at blanks
    exact absurd blanks.1 Bool.false_ne_true

/-- What is shown when a request for documentation has ended is what some of the writers have
written, or what is told when they have written nothing, exactly in these cases. -/
theorem shown_eq_own_iff (who : Hearing → Bool) (before after : List Happening)
    (symbol other : String) :
    let own := writtenBy who (before ++ after)
    (if Text.isBlankText (written before) then noDocumentation other else written before) ++
          written after =
        (if Text.isBlankText own then noDocumentation symbol else own) ↔
      if Text.isBlankText own then
        if Text.isBlankText (written before) then other ++ written after = symbol
        else written before ++ written after = noDocumentation symbol
      else Text.isBlankText (written before) = false ∧
        writtenBy (fun hearing => !who hearing) (before ++ after) = "" := by
  intro own
  by_cases silent : Text.isBlankText own = true
  · rw [if_pos silent, if_pos silent]
    by_cases blank : Text.isBlankText (written before) = true
    · rw [if_pos blank, if_pos blank]
      exact noDocumentation_append_eq_iff symbol other _
    · rw [if_neg blank, if_neg blank]
  · rw [if_neg silent, if_neg silent]
    by_cases blank : Text.isBlankText (written before) = true
    · rw [if_pos blank]
      refine iff_of_false (fun same => ?_) fun both => ?_
      · rw [show own = _ from writtenBy_append _ before after] at same
        exact noDocumentation_ne_writtenBy _ blank other same
      · rw [blank] at both
        exact Bool.noConfusion both.1
    · rw [if_neg blank, ← writtenBy_append]
      refine (written_eq_writtenBy_iff _ _).trans ?_
      exact (and_iff_right (Bool.eq_false_iff.mpr blank)).symm

namespace Engine

/-- Everything that was written since a symbol was asked for last is shown once a request for
documentation has ended; if it was blank until then, what is told at that end stands in its
place. -/
theorem shown_since_asked {disk : Disk} {source : String} {settings : Settings}
    {first engine : Engine} {earlier before after : List Happening} {asked : Sending}
    {ending : Hearing} {symbol other : String}
    (created : Engine.create disk source settings = .ok first)
    (unfolds : Unfolds first
      (earlier ++ .sent asked :: (before ++ .heard ending :: after)) engine)
    (lookup : asked.documented? = some symbol)
    (latest : ∀ happening ∈ before ++ after, happening.asksDocumentation = false)
    (running : ∀ happening ∈ before, happening.endsDocumentation = false)
    (ends : ending.documented? = some other) :
    engine.state.documentation =
      (if Text.isBlankText (written before) then noDocumentation other else written before) ++
        written after := by
  have unasked_before : ∀ happening ∈ before, happening.asksDocumentation = false :=
    fun happening member => latest happening (List.mem_append_left after member)
  have unasked_after : ∀ happening ∈ after, happening.asksDocumentation = false :=
    fun happening member => latest happening (List.mem_append_right before member)
  have fresh : first.news.documentation = "" := by
    obtain ⟨projectRoot, rfl⟩ := exists_of_create created
    rfl
  have final := accounts_documentationAfter.foldl unfolds fresh
  have emptied : ∀ shown, documentationAfter shown (.sent asked) = "" :=
    fun shown => by rw [documentationAfter, lookup]; rfl
  have ended : documentationAfter (written before) (.heard ending) =
      if Text.isBlankText (written before) then noDocumentation other else written before := by
    rw [documentationAfter, ends]
  have ink : Text.isBlankText (if Text.isBlankText (written before) then noDocumentation other
      else written before) = false := by
    split
    · exact isBlankText_noDocumentation other
    · rename_i ink
      exact Bool.eq_false_iff.mpr ink
  rw [List.foldl_append, List.foldl_cons, emptied, List.foldl_append, List.foldl_cons,
    documentation_before_end unasked_before running, String.empty_append, ended,
    documentation_behind_ink unasked_after ink] at final
  exact final

/-- When a symbol was asked for last and a request for documentation has ended since, everything
that was written since is shown, whoever wrote it; if this was blank until the first end, what is
told at that end stands in its place. So the documentation of the symbol is shown exactly in these
cases: its own request has written something, something was written before the first end, and no
other request has written anything; or its own request has written nothing, and what is shown
happens to be what is told then. -/
theorem documentation_of_last_iff {disk : Disk} {source : String} {settings : Settings}
    {first engine : Engine} {earlier before after : List Happening} {asked : Sending}
    {ending : Hearing} {symbol other : String}
    (created : Engine.create disk source settings = .ok first)
    (chronicled : Chronicled first engine
      (earlier ++ .sent asked :: (before ++ .heard ending :: after)))
    (lookup : asked.documented? = some symbol)
    (latest : ∀ happening ∈ before ++ after, happening.asksDocumentation = false)
    (running : ∀ happening ∈ before, happening.endsDocumentation = false)
    (ends : ending.documented? = some other) :
    let own := writtenBy (fun hearing => hearing.request = asked.request) (before ++ after)
    let others := writtenBy (fun hearing => !(hearing.request = asked.request)) (before ++ after)
    engine.state.documentation =
        (if Text.isBlankText (written before) then noDocumentation other else written before) ++
          written after ∧
      (engine.state.documentation =
          (if Text.isBlankText own then noDocumentation symbol else own) ↔
        if Text.isBlankText own then
          if Text.isBlankText (written before) then other ++ written after = symbol
          else written before ++ written after = noDocumentation symbol
        else Text.isBlankText (written before) = false ∧ others = "") := by
  intro own others
  have told := shown_since_asked created chronicled.unfolds lookup latest running ends
  refine ⟨told, ?_⟩
  rw [told]
  exact shown_eq_own_iff _ before after symbol other

/-- An answer to a request with output. -/
def outAnswer (id text : String) : Table := [("id", .text id), ("out", .text text)]

/-- Documentation is asked for twice; the second request is answered first, and the first one has
nothing to tell. -/
def silentLookup : List Order :=
  [.start, .documentation "a", .documentation "b",
    .answered (.text "3") [outAnswer "3" "b-text", doneAnswer (.text "3")],
    .answered (.text "2") [doneAnswer (.text "2")]]

/-- Then the documentation of the second symbol is shown. -/
theorem documentation_of_last_iff_silent :
    ∃ first, Engine.create (soleWorld "(a)").disk "/a.clj" plainSettings = .ok first ∧
      let run := chronicle (soleWorld "(a)") first silentLookup
      ∃ earlier before after asked ending,
        run.2 = earlier ++ .sent asked :: (before ++ .heard ending :: after) ∧
        Chronicled first run.1 (earlier ++ .sent asked :: (before ++ .heard ending :: after)) ∧
        asked.documented? = some "b" ∧ ending.documented? = some "b" ∧
        (∀ happening ∈ before ++ after, happening.asksDocumentation = false) ∧
        (∀ happening ∈ before, happening.endsDocumentation = false) ∧
        writtenBy (fun hearing => hearing.request = asked.request) (before ++ after) = "b-text" ∧
        run.1.state.documentation = "b-text" := by
  obtain ⟨first, created, questions⟩ := @exists_created _ (soleWorld "(a)").disk "/a.clj"
    plainSettings (fun first =>
      let happened := (chronicle (soleWorld "(a)") first silentLookup).2
      let around := (happened.drop 3).take 1 ++ (happened.drop 3).drop 2
      (happened[2]?.bind Happening.sending?).map fun asked => (asked.documented?,
        writtenBy (fun hearing => hearing.request = asked.request) around,
        writtenBy (fun hearing => !(hearing.request = asked.request)) around))
    (some (some "b", "b-text", "")) (by decide +kernel)
  let happened := (chronicle (soleWorld "(a)") first silentLookup).2
  have answers := @of_created _ _ _ _ _ (fun first =>
    let behind := (chronicle (soleWorld "(a)") first silentLookup).2.drop 3
    (behind[1]?.bind Happening.hearing?).map fun ending =>
      (ending.documented?, (behind.take 1 ++ behind.drop 2).any Happening.asksDocumentation,
        (behind.take 1).any Happening.endsDocumentation,
        Text.isBlankText (written (behind.take 1))))
    (some (some "b", false, false, false)) created (by decide +kernel)
  obtain ⟨asked, sent, same⟩ := Option.map_eq_some_iff.mp questions
  obtain ⟨lookup, same⟩ := Prod.mk.inj same
  obtain ⟨own, others⟩ := Prod.mk.inj same
  obtain ⟨ending, heard, same⟩ := Option.map_eq_some_iff.mp answers
  obtain ⟨ends, same⟩ := Prod.mk.inj same
  obtain ⟨latest, same⟩ := Prod.mk.inj same
  obtain ⟨running, ink⟩ := Prod.mk.inj same
  rw [List.any_eq_false] at latest running
  have chronicled := chronicled_chronicle (soleWorld "(a)") first silentLookup
  have split := split_at_sending sent
  rw [split_at_hearing heard] at split
  rw [split] at chronicled
  have unasked := fun happening member => Bool.eq_false_iff.mpr (latest happening member)
  have unended := fun happening member => Bool.eq_false_iff.mpr (running happening member)
  refine ⟨first, created, _, _, _, asked, ending, split, chronicled, lookup, ends, unasked, unended,
    own, ?_⟩
  have written := (documentation_of_last_iff created chronicled lookup unasked unended ends).2.mpr
  have inked : ¬Text.isBlankText "b-text" = true := by decide +kernel
  rw [own, if_neg inked, if_neg inked] at written
  exact written ⟨ink, others⟩

/-- Documentation is asked for twice, and both requests have something to tell. -/
def overlappingLookups : List Order :=
  [.start, .documentation "a", .documentation "b",
    .answered (.text "2") [outAnswer "2" "a-text", doneAnswer (.text "2")],
    .answered (.text "3") [outAnswer "3" "b-text", doneAnswer (.text "3")]]

/-- Then the documentation of both symbols is shown, though the second one was asked for last and
both requests have ended. -/
theorem documentation_of_both_is_shown :
    ∃ first, Engine.create (soleWorld "(a)").disk "/a.clj" plainSettings = .ok first ∧
      let run := chronicle (soleWorld "(a)") first overlappingLookups
      Chronicled first run.1 run.2 ∧ ∃ asked,
        run.2[2]?.bind Happening.sending? = some asked ∧ asked.documented? = some "b" ∧
        (run.2.drop 3).any Happening.asksDocumentation = false ∧
        let own := writtenBy (fun hearing => hearing.request = asked.request) run.2
        own = "b-text" ∧ run.1.state.documentation = "a-textb-text" ∧
          run.1.state.documentation ≠
            if Text.isBlankText own then noDocumentation "b" else own := by
  obtain ⟨first, created, known⟩ := @exists_created _ (soleWorld "(a)").disk "/a.clj"
    plainSettings (fun first =>
      let run := chronicle (soleWorld "(a)") first overlappingLookups
      (run.2[2]?.bind Happening.sending?).map fun asked => (asked.documented?,
        (run.2.drop 3).any Happening.asksDocumentation,
        writtenBy (fun hearing => hearing.request = asked.request) run.2,
        run.1.state.documentation))
    (some (some "b", false, "b-text", "a-textb-text")) (by decide +kernel)
  obtain ⟨asked, sent, same⟩ := Option.map_eq_some_iff.mp known
  obtain ⟨lookup, same⟩ := Prod.mk.inj same
  obtain ⟨latest, same⟩ := Prod.mk.inj same
  obtain ⟨own, shown⟩ := Prod.mk.inj same
  refine ⟨first, created, chronicled_chronicle _ _ _, asked, sent, lookup, latest, own, shown, ?_⟩
  have inked : ¬Text.isBlankText "b-text" = true := by decide +kernel
  rw [own, if_neg inked, shown]
  decide

end Engine
end EvalDesk
