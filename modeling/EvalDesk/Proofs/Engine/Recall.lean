import EvalDesk.Proofs.Engine.InStep
import EvalDesk.Proofs.Path

/-!
# Which paths open the source that is shown

A source that was opened is remembered under the path as it was written, and is not read again under
this path. Under the path by which the source is shown it is always the shown one. Any other way to
write that path leads to it by a lookup, unless the path was opened before; then it leads to what
was read at that time, which may be an older text of the source, or another file when the project
has changed since. An absolute path is looked up as it is written: one that leads up is taken for
that of another source.
-/
namespace EvalDesk.Engine

open Fallible

/-- The path names the source that is shown: its normal path does if it is absolute, and what it is
looked up as in the project if it is relative. -/
def Denotes (engine : Engine) (disk : Disk) (path : String) : Prop :=
  if (Path.ofText path).isAbsolute then
    (Path.ofText path).normal.text = engine.state.sourcePath
  else ∃ found, engine.resolvePath disk path = .ok (some found) ∧
    found.text = engine.state.sourcePath

/-- Opening the path gives the source that is shown: its path and its text. -/
def OpensShown (engine : Engine) (disk : Disk) (path : String) : Prop :=
  ∃ buffer opened, engine.openBuffer disk path = .ok (buffer, opened) ∧
    buffer.path = engine.state.sourcePath ∧ buffer.text = engine.state.sourceText

/-- The source that is remembered under a path. -/
def remembered? (engine : Engine) (path : String) : Option Buffer :=
  (engine.opened.find? (·.1 = path)).map (·.2)

/-- Every source that is remembered was read at some time for the path it is remembered under, and
was not the one that was shown then. -/
def Recalls (engine : Engine) : Prop :=
  ∀ entry ∈ engine.opened, ∃ (earlier : Engine) (disk : Disk),
    earlier.readOther disk entry.1 = .ok (some entry.2)

/-! ## What is remembered -/

section Remembered

variable {engine : Engine} {disk : Disk} {path : String} {buffer : Buffer}

/-- A source that is remembered is one of those that were opened. -/
theorem mem_of_remembered (known : engine.remembered? path = some buffer) :
    (path, buffer) ∈ engine.opened := by
  obtain ⟨entry, there, rfl⟩ := Option.map_eq_some_iff.mp known
  have own := List.find?_some there
  simp only [decide_eq_true_eq] at own
  subst own
  exact List.mem_of_find?_eq_some there

/-- What is open once a source was found for a path. -/
def openedWith (engine : Engine) (path : String) : Option Buffer → List (String × Buffer)
  | none => engine.opened
  | some buffer =>
    if engine.opened.any (·.1 = path) then engine.opened else engine.opened ++ [(path, buffer)]

/-- Opening a path gives what is found for it, or the source that is shown. -/
theorem openBuffer_eq (engine : Engine) (disk : Disk) (path : String) :
    engine.openBuffer disk path = (engine.otherBuffer? disk path).map fun found =>
      (found.getD engine.buffer, engine.openedWith path found) := by
  rw [openBuffer]
  cases engine.otherBuffer? disk path with
  | error fault => rfl
  | ok found =>
    cases found with
    | none => rfl
    | some buffer =>
      by_cases known : engine.opened.any (·.1 = path) = true <;>
        simp [bind, Except.bind, Except.map, pure, Except.pure, openedWith, known]

/-- What is remembered more once a path was opened was read for it. -/
theorem opened_of_openBuffer {opened : List (String × Buffer)}
    (opens : engine.openBuffer disk path = .ok (buffer, opened)) :
    opened = engine.opened ∨
      opened = engine.opened ++ [(path, buffer)] ∧
        engine.readOther disk path = .ok (some buffer) := by
  rw [openBuffer_eq] at opens
  cases other : engine.otherBuffer? disk path with
  | error fault =>
    rw [other] at opens
    cases opens
  | ok found =>
    rw [other] at opens
    cases opens
    cases found with
    | none => exact .inl rfl
    | some buffer =>
      by_cases known : engine.opened.any (·.1 = path) = true
      · exact .inl (if_pos known)
      · refine .inr ⟨if_neg known, ?_⟩
        have unknown : engine.opened.find? (·.1 = path) = none :=
          List.find?_eq_none.mpr fun entry member same =>
            known (List.any_eq_true.mpr ⟨entry, member, same⟩)
        rw [otherBuffer?, unknown] at other
        split at other
        · cases other
        · exact other

end Remembered

/-- What is remembered was read before, whatever happens. -/
theorem sourceLaw_recalls : SourceLaw fun before after => before.Recalls → after.Recalls where
  chains := chains_property Recalls
  same := by
    intro before after same recalls
    have opened : after.opened = before.opened :=
      congrArg (fun holdings : Holdings => holdings.library.opened) same
    rw [Recalls, opened]
    exact recalls
  reloads _ recalls entry member := recalls entry (List.mem_filter.mp member).1
  shows _ _ recalls := recalls
  settles _ _ recalls := recalls
  opens := by
    intro engine disk path buffer opened opens recalls
    rcases opened_of_openBuffer opens with rfl | ⟨rfl, read⟩
    · exact recalls
    · intro entry member
      rcases List.mem_append.mp member with known | last
      · exact recalls entry known
      · rw [List.mem_singleton.mp last]
        exact ⟨engine, disk, read⟩

/-- What is remembered was read before, whatever was asked of a new engine. -/
theorem recalls_of_attained {disk : Disk} {source : String} {settings : Settings}
    {first engine : Engine} (created : Engine.create disk source settings = .ok first)
    (attained : Attained first engine) : engine.Recalls := by
  refine sourceLaw_recalls.attained attained ?_
  obtain ⟨projectRoot, rfl⟩ := exists_of_create created
  exact fun entry member => absurd member List.not_mem_nil

/-! ## What a path is read as -/

section Reading

variable {engine : Engine} {disk : Disk} {path : String} {buffer : Buffer} {found : Path}

/-- An absolute path is looked up as it is written, if it is there. -/
theorem resolvePath_absolute_iff (absolute : (Path.ofText path).isAbsolute = true) :
    engine.resolvePath disk path = .ok (some found) ↔
      found = Path.ofText path ∧ disk.hasPath (Path.ofText path) = .ok true := by
  simp only [resolvePath, absolute, ↓reduceIte]
  cases disk.hasPath (Path.ofText path) with
  | error fault => simp [bind, Except.bind]
  | ok there => cases there <;> simp [bind, Except.bind, pure, Except.pure, eq_comm]

/-- What a path in no archive is looked up as is the shown source, or it is read. -/
theorem readOther_resolved (plain : Source.splitEntry? path = none)
    (resolves : engine.resolvePath disk path = .ok (some found)) :
    engine.readOther disk path = if found.text = engine.state.sourcePath then .ok none
      else (Source.ofFile disk found.text).map some := by
  rw [readOther, plain, resolves]
  rfl

/-- A path in no archive that is looked up as nothing cannot be read. -/
theorem readOther_unresolved (plain : Source.splitEntry? path = none)
    (unresolved : ∀ found, engine.resolvePath disk path ≠ .ok (some found)) :
    ∃ fault, engine.readOther disk path = .error fault := by
  rw [readOther, plain]
  cases resolves : engine.resolvePath disk path with
  | error fault => exact ⟨fault, rfl⟩
  | ok found =>
    cases found with
    | none => exact ⟨.source (.absent path), rfl⟩
    | some found => exact absurd resolves (unresolved found)

/-- What is read for the path of an entry is another source under this path. -/
theorem path_of_read_entry {result : Option Buffer} (entry : Source.splitEntry? path ≠ none)
    (read : engine.readOther disk path = .ok result) :
    ∃ buffer, result = some buffer ∧ buffer.path = path := by
  obtain ⟨⟨archive, name⟩, split⟩ := Option.ne_none_iff_exists'.mp entry
  rw [readOther, split] at read
  obtain ⟨buffer, own, rfl⟩ : ∃ buffer, Source.ofEntry disk archive name = .ok buffer ∧
      some buffer = result := by
    cases opens : Source.ofEntry disk archive name with
    | error fault =>
      simp only [opens] at read
      cases read
    | ok buffer =>
      simp only [opens] at read
      cases read
      exact ⟨buffer, rfl, rfl⟩
  refine ⟨buffer, rfl, ?_⟩
  rw [← Source.entryPath_of_splitEntry? split]
  simp only [Source.ofEntry] at own
  repeat' split at own
  all_goals cases own
  rfl

/-- What is read for a path in no archive is the file that the path is looked up as, and not the
shown source. -/
theorem resolves_of_read (plain : Source.splitEntry? path = none)
    (read : engine.readOther disk path = .ok (some buffer)) :
    ∃ found, engine.resolvePath disk path = .ok (some found) ∧ buffer.path = found.text ∧
      found.text ≠ engine.state.sourcePath := by
  by_cases resolved : ∃ found, engine.resolvePath disk path = .ok (some found)
  · obtain ⟨found, resolves⟩ := resolved
    rw [readOther_resolved plain resolves] at read
    split at read
    · cases read
    · rename_i other
      cases opens : Source.ofFile disk found.text with
      | error fault =>
        rw [opens] at read
        cases read
      | ok own =>
        rw [opens] at read
        cases read
        exact ⟨found, resolves, path_of_ofFile opens, other⟩
  · obtain ⟨fault, fails⟩ := readOther_unresolved plain (not_exists.mp resolved)
    cases fails.symm.trans read

/-- What is read for another path than the one of the shown source has another path, too. -/
theorem path_ne_of_read (other : path ≠ engine.state.sourcePath)
    (read : engine.readOther disk path = .ok (some buffer)) :
    buffer.path ≠ engine.state.sourcePath := by
  by_cases plain : Source.splitEntry? path = none
  · obtain ⟨found, _, own, apart⟩ := resolves_of_read plain read
    rwa [own]
  · obtain ⟨_, same, own⟩ := path_of_read_entry plain read
    cases same
    rwa [own]

/-- A path is read as the shown source exactly when it is in no archive and is looked up as the
shown source. -/
theorem readOther_none_iff :
    engine.readOther disk path = .ok none ↔ Source.splitEntry? path = none ∧
      ∃ found, engine.resolvePath disk path = .ok (some found) ∧
        found.text = engine.state.sourcePath := by
  constructor
  · intro read
    have plain : Source.splitEntry? path = none := Classical.byContradiction fun entry => by
      obtain ⟨_, same, _⟩ := path_of_read_entry entry read
      cases same
    refine ⟨plain, Classical.byContradiction fun apart => ?_⟩
    by_cases resolved : ∃ found, engine.resolvePath disk path = .ok (some found)
    · obtain ⟨found, resolves⟩ := resolved
      rw [readOther_resolved plain resolves,
        if_neg fun same => apart ⟨found, resolves, same⟩] at read
      cases opens : Source.ofFile disk found.text <;> rw [opens] at read <;> cases read
    · obtain ⟨fault, fails⟩ := readOther_unresolved plain (not_exists.mp resolved)
      cases fails.symm.trans read
  · rintro ⟨plain, found, resolves, same⟩
    rw [readOther_resolved plain resolves, if_pos same]

/-- A path that names the shown source is read as it exactly when it is in no archive and, if it is
absolute, is there and does not lead up. -/
theorem Denotes.readOther_iff (denotes : engine.Denotes disk path) :
    engine.readOther disk path = .ok none ↔ Source.splitEntry? path = none ∧
      ((Path.ofText path).isAbsolute = true → Path.above ∉ (Path.ofText path).names) ∧
      ((Path.ofText path).isAbsolute = true → disk.hasPath (Path.ofText path) = .ok true) := by
  rw [readOther_none_iff]
  refine and_congr_right fun _ => ?_
  by_cases absolute : (Path.ofText path).isAbsolute = true
  · have normal : (Path.ofText path).normal.text = engine.state.sourcePath := by
      rwa [Denotes, if_pos absolute] at denotes
    simp only [resolvePath_absolute_iff absolute, absolute, true_implies, ← normal]
    constructor
    · rintro ⟨_, ⟨rfl, there⟩, same⟩
      exact ⟨(Path.text_eq_normal_iff path).mp same, there⟩
    · rintro ⟨straight, there⟩
      exact ⟨_, ⟨rfl, there⟩, (Path.text_eq_normal_iff path).mpr straight⟩
  · rw [Denotes, if_neg absolute] at denotes
    exact ⟨fun _ => ⟨fun same => absurd same absolute, fun same => absurd same absolute⟩,
      fun _ => denotes⟩

end Reading

/-! ## Which paths open the shown source -/

section Opening

variable {engine : Engine} {disk : Disk} {path : String}

/-- A source that is remembered under a path that names the shown source has the path of it only
if the path is in no archive and, if it is absolute, does not lead up. -/
theorem Recalls.straight (recalls : engine.Recalls) (denotes : engine.Denotes disk path)
    (other : path ≠ engine.state.sourcePath) {buffer : Buffer}
    (known : engine.remembered? path = some buffer)
    (own : buffer.path = engine.state.sourcePath) :
    Source.splitEntry? path = none ∧
      ((Path.ofText path).isAbsolute = true → Path.above ∉ (Path.ofText path).names) := by
  obtain ⟨earlier, disk, read⟩ := recalls _ (mem_of_remembered known)
  have plain : Source.splitEntry? path = none := Classical.byContradiction fun entry => by
    obtain ⟨_, same, named⟩ := path_of_read_entry entry read
    cases same
    exact other (named.symm.trans own)
  refine ⟨plain, fun absolute => ?_⟩
  obtain ⟨found, resolves, named, _⟩ := resolves_of_read plain read
  rw [((resolvePath_absolute_iff absolute).mp resolves).1] at named
  rw [Denotes, if_pos absolute] at denotes
  exact (Path.text_eq_normal_iff path).mp (named.symm.trans (own.trans denotes.symm))

/-- Opening a path gives the shown source exactly when what is found for it, if anything, has the
path and the text that are shown. -/
theorem Mirrors.opensShown_iff_other (mirrors : engine.Mirrors) :
    engine.OpensShown disk path ↔ ∃ other, engine.otherBuffer? disk path = .ok other ∧
      ∀ buffer ∈ other, buffer.path = engine.state.sourcePath ∧
        buffer.text = engine.state.sourceText := by
  rw [OpensShown, openBuffer_eq]
  cases engine.otherBuffer? disk path with
  | error fault => simp [Except.map]
  | ok other =>
    cases other with
    | none => simp [Except.map, mirrors.path, mirrors.text]
    | some buffer => simp [Except.map]

/-- A path that names the shown source, and under which a source is remembered, opens the shown one
exactly when the one that is remembered is as it is shown. -/
theorem Recalls.opensShown_remembered_iff (recalls : engine.Recalls) (mirrors : engine.Mirrors)
    (denotes : engine.Denotes disk path) (other : path ≠ engine.state.sourcePath) {buffer : Buffer}
    (known : engine.remembered? path = some buffer) :
    engine.OpensShown disk path ↔ Source.splitEntry? path = none ∧
      ((Path.ofText path).isAbsolute = true → Path.above ∉ (Path.ofText path).names) ∧
      buffer.path = engine.state.sourcePath ∧ buffer.text = engine.state.sourceText := by
  obtain ⟨entry, there, rfl⟩ := Option.map_eq_some_iff.mp known
  rw [mirrors.opensShown_iff_other, otherBuffer?, if_neg other, there]
  constructor
  · rintro ⟨_, same, shown⟩
    cases same
    obtain ⟨path, text⟩ := shown _ rfl
    obtain ⟨plain, straight⟩ := recalls.straight denotes other known path
    exact ⟨plain, straight, path, text⟩
  · rintro ⟨_, _, shown⟩
    refine ⟨some entry.2, rfl, ?_⟩
    rintro _ ⟨⟩
    exact shown

/-- A path under which no source is remembered opens the shown one exactly when it is read as it. -/
theorem Mirrors.opensShown_read_iff (mirrors : engine.Mirrors)
    (other : path ≠ engine.state.sourcePath) (unknown : engine.remembered? path = none) :
    engine.OpensShown disk path ↔ engine.readOther disk path = .ok none := by
  rw [mirrors.opensShown_iff_other, otherBuffer?, if_neg other, Option.map_eq_none_iff.mp unknown]
  constructor
  · rintro ⟨found, read, shown⟩
    cases found with
    | none => exact read
    | some buffer => exact absurd (shown buffer rfl).1 (path_ne_of_read other read)
  · intro read
    exact ⟨none, read, by simp⟩

/-- What is opened for the source that is shown is its buffer. -/
theorem Mirrors.opensShown_iff (mirrors : engine.Mirrors) :
    engine.OpensShown disk path ↔ ∃ opened,
      engine.openBuffer disk path = .ok (engine.buffer, opened) := by
  constructor
  · rintro ⟨buffer, opened, opens, named, text⟩
    have same : buffer = engine.buffer := by
      rw [mirrors.path] at named
      rw [mirrors.text] at text
      cases buffer
      exact Buffer.mk.injEq .. ▸ ⟨named, text⟩
    exact ⟨opened, same ▸ opens⟩
  · rintro ⟨opened, opens⟩
    exact ⟨engine.buffer, opened, opens, mirrors.path.symm, mirrors.text.symm⟩

/-- A diagnostic that names a path is placed in the buffer that is opened for it. -/
theorem place_named {buffer : Buffer} {opened : List (String × Buffer)} {diagnostic : Diagnostic}
    (opens : engine.openBuffer disk path = .ok (buffer, opened))
    (named : diagnostic.file = some path) (origin : Origin) :
    place diagnostic origin (engine.openBuffer disk) =
      (diagnostic.placeIn path diagnostic.line buffer).map fun placement =>
        (placement, some opened) := by
  simp only [place, Diagnostic.place, named, opens]
  cases diagnostic.placeIn path diagnostic.line buffer <;> rfl

/-- Whatever was asked of a new engine, a path that names the source that is shown opens it exactly
in these cases: it is the path under which the source is shown; or it is in no archive, does not
lead up if it is absolute, and what is remembered under it, if anything, has the path and the text
that are shown; an absolute one that is not remembered has to be there. A diagnostic that names a
path which opens the shown source is placed in it. -/
theorem opens_shown_iff {start : Disk} {source : String} {settings : Settings} {first : Engine}
    (created : Engine.create start source settings = .ok first)
    (attained : Attained first engine) (denotes : engine.Denotes disk path) :
    (engine.OpensShown disk path ↔ path = engine.state.sourcePath ∨
      Source.splitEntry? path = none ∧
        ((Path.ofText path).isAbsolute = true → Path.above ∉ (Path.ofText path).names) ∧
        match engine.remembered? path with
        | some buffer =>
          buffer.path = engine.state.sourcePath ∧ buffer.text = engine.state.sourceText
        | none =>
          (Path.ofText path).isAbsolute = true → disk.hasPath (Path.ofText path) = .ok true) ∧
    (engine.OpensShown disk path → ∀ (diagnostic : Diagnostic) (origin : Origin),
      diagnostic.file = some path → ∃ opened,
        place diagnostic origin (engine.openBuffer disk) =
          (diagnostic.placeIn path diagnostic.line engine.buffer).map fun placement =>
            (placement, some opened)) := by
  have mirrors := mirrors_of_attained created attained
  have recalls := recalls_of_attained created attained
  refine ⟨?_, fun shows diagnostic origin named => ?_⟩
  · by_cases own : path = engine.state.sourcePath
    · have shown : engine.OpensShown disk path :=
        mirrors.opensShown_iff_other.mpr ⟨none, by rw [otherBuffer?, if_pos own], by simp⟩
      simp only [own, true_or, iff_true]
      rwa [own] at shown
    · simp only [own, false_or]
      cases known : engine.remembered? path with
      | some buffer => exact recalls.opensShown_remembered_iff mirrors denotes own known
      | none => exact (mirrors.opensShown_read_iff own known).trans denotes.readOther_iff
  · obtain ⟨opened, opens⟩ := mirrors.opensShown_iff.mp shows
    exact ⟨opened, place_named opens named origin⟩

/-- A relative path that is looked up as a path with the text of the shown one names the source. -/
theorem denotes_of_resolves (relative : (Path.ofText path).isAbsolute = false)
    (resolves : (engine.resolvePath disk path).toOption.join.map Path.text =
      some engine.state.sourcePath) : engine.Denotes disk path := by
  rw [Denotes, if_neg (Bool.eq_false_iff.mp relative)]
  obtain ⟨found, same, text⟩ := Option.map_eq_some_iff.mp resolves
  refine ⟨found, ?_, text⟩
  cases result : engine.resolvePath disk path with
  | error fault =>
    rw [result] at same
    cases same
  | ok known =>
    rw [result] at same
    exact congrArg Except.ok same

/-- The source of a project is opened by its path in the project, as long as no other source was
opened under this path. -/
theorem opens_shown_iff_relative :
    ∃ first, Engine.create (soleWorld "(a)").disk "/a.clj" plainSettings = .ok first ∧
      let engine := first.obey (soleWorld "(a)") .start
      Attained first engine ∧ engine.Denotes (soleWorld "(a)").disk "a.clj" ∧
      engine.OpensShown (soleWorld "(a)").disk "a.clj" := by
  obtain ⟨first, created, run⟩ := @exists_created _ (soleWorld "(a)").disk "/a.clj" plainSettings
    (fun first =>
      let engine := first.obey (soleWorld "(a)") .start
      (engine.state.sourcePath, engine.remembered? "a.clj",
        (engine.resolvePath (soleWorld "(a)").disk "a.clj").toOption.join.map Path.text))
    ("/a.clj", none, some "/a.clj") (by decide +kernel)
  obtain ⟨path, more⟩ := Prod.mk.inj run
  obtain ⟨unknown, resolves⟩ := Prod.mk.inj more
  have relative : (Path.ofText "a.clj").isAbsolute = false := by decide +kernel
  have attained := Attained.order (soleWorld "(a)") .start (@Attained.start first)
  have denotes : (first.obey (soleWorld "(a)") .start).Denotes (soleWorld "(a)").disk "a.clj" :=
    denotes_of_resolves relative (path ▸ resolves)
  refine ⟨first, created, attained, denotes, ?_⟩
  refine (opens_shown_iff created attained denotes).1.mpr (.inr ⟨by decide +kernel, ?_, ?_⟩)
  · simp [relative]
  · rw [unknown]
    simp [relative]

/-- A file tree with two sources. -/
def twoSources (second : String) : Disk :=
  ⟨[(["a.clj"], .file (Text.Utf8.encode "(a)")), (["b.clj"], .file (Text.Utf8.encode second))],
    Path.ofText "/"⟩

/-- A source that was opened under its path in the project, then shown, and then saved with another
text is still opened with the old text under this path. -/
theorem opens_stale_source :
    ∃ first, Engine.create (twoSources "(b)") "/a.clj" plainSettings = .ok first ∧
      ∃ engine, Attained first engine ∧ engine.Denotes (twoSources "(c)") "b.clj" ∧
        engine.state.sourceText = "(c)" ∧
        (engine.openBuffer (twoSources "(c)") "b.clj").toOption.map (·.1) =
          some ⟨"/b.clj", "(b)"⟩ ∧
        ¬engine.OpensShown (twoSources "(c)") "b.clj" := by
  let world : World := ⟨twoSources "(b)", silentWorld.transport⟩
  let opened (first : Engine) : Engine :=
    ((first.obey world .start).perform (openPath (twoSources "(b)") "b.clj")).1
  let shown (first : Engine) : Engine :=
    ((opened first).perform (visit (twoSources "(b)") ⟨"b.clj", 1, none, none⟩)).1
  let saved (first : Engine) : Engine := ((shown first).perform (loadSource (twoSources "(c)"))).1
  obtain ⟨first, created, run⟩ := @exists_created _ (twoSources "(b)") "/a.clj" plainSettings
    (fun first => ((saved first).state.sourcePath, (saved first).state.sourceText,
      ((saved first).resolvePath (twoSources "(c)") "b.clj").toOption.join.map Path.text,
      ((saved first).openBuffer (twoSources "(c)") "b.clj").toOption.map (·.1)))
    ("/b.clj", "(c)", some "/b.clj", some ⟨"/b.clj", "(b)"⟩) (by decide +kernel)
  obtain ⟨path, more⟩ := Prod.mk.inj run
  obtain ⟨text, more⟩ := Prod.mk.inj more
  obtain ⟨resolves, opens⟩ := Prod.mk.inj more
  have attained : Attained first (saved first) :=
    .loaded _ (.visited _ _ (.opened _ _ (.order world .start .start)))
  refine ⟨first, created, saved first, attained,
    denotes_of_resolves (by decide +kernel) (path ▸ resolves), text, opens, ?_⟩
  rintro ⟨buffer, _, found, _, other⟩
  rw [found] at opens
  cases opens
  exact absurd (other.trans text) (by decide)

end Opening

end EvalDesk.Engine
