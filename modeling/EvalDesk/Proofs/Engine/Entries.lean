import EvalDesk.Proofs.Engine.Recall
import EvalDesk.Proofs.Location.Address

/-!
# Entries of archives

What comes of a location in an archive. Archive and entry are joined to one path, and this path is
taken apart again at its first mark when it is read. So the entry is found unless the path of the
archive has a mark itself. A location that was printed for an entry leads back to it exactly when
its numbers are short, the path of the entry needs no percent sign, and the joined path is served
with the text of the entry.
-/
namespace EvalDesk

/-! ## The path of an entry -/

namespace Source

/-- The path of an entry is taken apart as it was joined, if the archive has no mark. -/
theorem splitEntry?_entryPath {archive : String} (whole : splitEntry? archive = none)
    (entry : String) : splitEntry? (entryPath archive entry) = some (archive, entry) := by
  have unmarked : Text.partition? entryMark.toList archive.toList = none :=
    Option.map_eq_none_iff.mp whole
  have split := Text.partition?_append_mark (show '!' ≠ '/' by decide) unmarked entry.toList
  have characters : (entryPath archive entry).toList =
      archive.toList ++ '!' :: '/' :: entry.toList := by simp [entryPath, entryMark]
  unfold splitEntry?
  rw [characters]
  exact (congrArg (Option.map _) split).trans (by simp)

/-- It is taken apart within the archive, if this has a mark. -/
theorem splitEntry?_entryPath_of_some {archive outer inner : String}
    (split : splitEntry? archive = some (outer, inner)) (entry : String) :
    splitEntry? (entryPath archive entry) = some (outer, entryPath inner entry) := by
  obtain ⟨⟨before, after⟩, found, same⟩ := Option.map_eq_some_iff.mp split
  cases same
  have later := Text.partition?_append found (entryMark.toList ++ entry.toList)
  unfold splitEntry?
  simp only [entryPath, String.toList_append, List.append_assoc, later,
    Option.map_some, Option.some.injEq, Prod.mk.injEq, true_and]
  rw [← String.toList_inj]
  simp

/-- An entry whose bytes are a text is read. -/
theorem ofEntry_eq_ok {disk : Disk} {archive entry text : String}
    {entries : List (String × List UInt8)} (there : disk.lookUp archive = .ok (.archive entries))
    (told : entryText entries entry = .ok text) :
    ofEntry disk archive entry = .ok ⟨entryPath archive entry, text⟩ := by
  simp only [ofEntry, there, told]

end Source

/-- Nothing has the empty path. -/
theorem Disk.ne_empty_of_lookUp {disk : Disk} {path : String} {node : Disk.Node}
    (there : disk.lookUp path = .ok node) : path ≠ "" := by
  rintro rfl
  cases there

namespace Engine

section Entry

variable {engine : Engine} {disk : Disk} {archive entry text : String}

/-- The engine has the text for the path of an archive and an entry. -/
inductive Serves (engine : Engine) (disk : Disk) (archive entry text : String) : Prop where
  /-- It is the source that is shown. -/
  | shown : Source.entryPath archive entry = engine.state.sourcePath →
    engine.buffer.text = text → Serves engine disk archive entry text
  /-- It is another source, which was opened before. -/
  | remembered {buffer : Buffer} : Source.entryPath archive entry ≠ engine.state.sourcePath →
    engine.remembered? (Source.entryPath archive entry) = some buffer → buffer.text = text →
    Serves engine disk archive entry text
  /-- It is not held yet, and the archive has no mark in its path. -/
  | read : Source.entryPath archive entry ≠ engine.state.sourcePath →
    engine.remembered? (Source.entryPath archive entry) = none →
    Source.splitEntry? archive = none → Serves engine disk archive entry text
  /-- It is not held yet, and is read as another entry of another archive, which has the same
  text. -/
  | misread {outer inner : String} {buffer : Buffer} :
    Source.entryPath archive entry ≠ engine.state.sourcePath →
    engine.remembered? (Source.entryPath archive entry) = none →
    Source.splitEntry? archive = some (outer, inner) →
    Source.ofEntry disk outer (Source.entryPath inner entry) = .ok buffer → buffer.text = text →
    Serves engine disk archive entry text

/-- Opening a path gives a text exactly when what is found for it has the text. -/
theorem exists_openBuffer_iff {path : String} :
    (∃ buffer opened, engine.openBuffer disk path = .ok (buffer, opened) ∧ buffer.text = text) ↔
      ∃ found, engine.otherBuffer? disk path = .ok found ∧
        (found.getD engine.buffer).text = text := by
  rw [openBuffer_eq]
  cases engine.otherBuffer? disk path with
  | error fault => exact iff_of_false nofun nofun
  | ok found =>
    constructor
    · rintro ⟨_, _, ⟨⟩, same⟩
      exact ⟨_, rfl, same⟩
    · rintro ⟨_, ⟨⟩, same⟩
      exact ⟨_, _, rfl, same⟩

/-- What is found for a path that is not the one of the source that is shown. -/
theorem otherBuffer?_eq {path : String} (other : path ≠ engine.state.sourcePath) :
    engine.otherBuffer? disk path =
      match engine.remembered? path with
      | some buffer => .ok (some buffer)
      | none => engine.readOther disk path := by
  rw [otherBuffer?, if_neg other, remembered?]
  cases engine.opened.find? (·.1 = path) <;> rfl

/-- Opening the path of an entry that can be read gives its text exactly when it is served. -/
theorem openBuffer_entry_iff {entries : List (String × List UInt8)}
    (there : disk.lookUp archive = .ok (.archive entries))
    (told : Source.entryText entries entry = .ok text) :
    (∃ buffer opened, engine.openBuffer disk (Source.entryPath archive entry) =
        .ok (buffer, opened) ∧ buffer.text = text) ↔ Serves engine disk archive entry text := by
  rw [exists_openBuffer_iff]
  constructor
  · rintro ⟨found, finds, same⟩
    by_cases shown : Source.entryPath archive entry = engine.state.sourcePath
    · rw [otherBuffer?, if_pos shown] at finds
      cases finds
      exact .shown shown same
    · rw [otherBuffer?_eq shown] at finds
      cases known : engine.remembered? (Source.entryPath archive entry) with
      | some buffer =>
        rw [known] at finds
        cases finds
        exact .remembered shown known same
      | none =>
        rw [known] at finds
        cases split : Source.splitEntry? archive with
        | none => exact .read shown known split
        | some parts =>
          obtain ⟨outer, inner⟩ := parts
          simp only [readOther, Source.splitEntry?_entryPath_of_some split] at finds
          cases reads : Source.ofEntry disk outer (Source.entryPath inner entry) with
          | error fault =>
            rw [reads] at finds
            cases finds
          | ok buffer =>
            rw [reads] at finds
            cases finds
            exact .misread shown known split reads same
  · intro serves
    cases serves with
    | shown shown same => exact ⟨none, if_pos shown, same⟩
    | @remembered buffer other known same =>
      exact ⟨some buffer, by rw [otherBuffer?_eq other, known], same⟩
    | read other unknown whole =>
      refine ⟨some ⟨Source.entryPath archive entry, text⟩, ?_, rfl⟩
      rw [otherBuffer?_eq other, unknown]
      simp only [readOther, Source.splitEntry?_entryPath whole, Source.ofEntry_eq_ok there told]
      rfl
    | @misread outer inner buffer other unknown split reads same =>
      refine ⟨some buffer, ?_, same⟩
      rw [otherBuffer?_eq other, unknown]
      simp only [readOther, Source.splitEntry?_entryPath_of_some split, reads]
      rfl

/-- A location in an archive is shown with a text exactly when the path of the entry is opened with
this text. -/
theorem visit_entry_iff {location : Location} (inside : location.archive = some archive)
    (filled : archive ≠ "") :
    (∃ after, engine.perform (visit disk location) = (after, .ok location) ∧
        after.buffer.text = text) ↔
      ∃ buffer opened, engine.openBuffer disk (Source.entryPath archive location.path) =
        .ok (buffer, opened) ∧ buffer.text = text := by
  simp only [visit_archived inside filled, openPath, perform_bind, perform_get, perform_lift]
  cases opens : engine.openBuffer disk (Source.entryPath archive location.path) with
  | error fault =>
    constructor
    · rintro ⟨after, fails, -⟩
      cases congrArg Prod.snd fails
    · rintro ⟨_, _, fails, -⟩
      cases fails
  | ok found =>
    obtain ⟨buffer, opened⟩ := found
    simp only [perform_modify, perform_pure]
    constructor
    · rintro ⟨after, shows, same⟩
      obtain ⟨rfl, -⟩ := Prod.mk.inj shows
      exact ⟨buffer, opened, rfl, same⟩
    · rintro ⟨_, _, ⟨⟩, same⟩
      exact ⟨_, rfl, same⟩

/-- A printed location leads back to an entry: it is read as the location of the entry, and visiting
this location makes the text of the entry the current source. -/
def LeadsBack (engine : Engine) (disk : Disk) (printed : Location.Printed)
    (archive entry text : String) : Prop :=
  ∃ location, Location.ofText? (String.ofList printed.written) = .ok (some location) ∧
    (location.archive = some archive ∧ location.path = entry) ∧
    ∃ after, engine.perform (visit disk location) = (after, .ok location) ∧
      after.buffer.text = text

/-- A location that is printed for an entry of an archive, which both can be read, leads back to it
exactly when its numbers are short, all characters of the path of the entry are written plainly in
an address, and the engine serves the text of the entry. -/
theorem leadsBack_iff {entries : List (String × List UInt8)}
    (there : disk.lookUp archive = .ok (.archive entries))
    (told : Source.entryText entries entry = .ok text) {printed : Location.Printed}
    (proper : printed.IsProper) (address : printed.address = Location.entryAddress archive entry) :
    LeadsBack engine disk printed archive entry text ↔
      ((∀ value ∈ printed.line, Location.IsShort value) ∧
        (∀ value ∈ printed.column, Location.IsShort value) ∧
        ∀ c ∈ entry.toList, Text.Percent.isKept c = true) ∧
      Serves engine disk archive entry text := by
  have filled := Disk.ne_empty_of_lookUp there
  rw [← Location.ofText?_entry_iff proper address, ← openBuffer_entry_iff there told]
  constructor
  · rintro ⟨location, reads, ⟨inside, path⟩, visits⟩
    rw [visit_entry_iff inside filled, path] at visits
    exact ⟨⟨location, reads, inside, path⟩, visits⟩
  · rintro ⟨⟨location, reads, inside, path⟩, opens⟩
    refine ⟨location, reads, ⟨inside, path⟩, ?_⟩
    rw [visit_entry_iff inside filled, path]
    exact opens

end Entry

/-- A file tree with a source, and an archive with one entry. -/
def archiveDisk (entry : String) : Disk :=
  ⟨[(["a.clj"], .file (Text.Utf8.encode "(a)")),
    (["m.jar"], .archive [(entry, Text.Utf8.encode "(b)")])], Path.ofText "/"⟩

/-- What is printed for an entry of this archive. -/
def printedEntry (entry : String) : Location.Printed :=
  ⟨Location.entryAddress "/m.jar" entry, some 1, none, [], [], [' '], [' '], [], []⟩

/-- What is printed for an entry has blanks in their places. -/
theorem isProper_printedEntry (entry : String) : (printedEntry entry).IsProper :=
  have blank : Text.IsRun Text.isSpace [' '] := by decide
  ⟨nofun, nofun, blank, blank, nofun, nofun⟩

/-- A location leads back to an entry whose path has letters, a slash and a dot. -/
theorem leadsBack_iff_letters :
    ∃ first, Engine.create (archiveDisk "b/c.clj") "/a.clj" plainSettings = .ok first ∧
      LeadsBack first (archiveDisk "b/c.clj") (printedEntry "b/c.clj") "/m.jar" "b/c.clj"
        "(b)" := by
  obtain ⟨first, created, held⟩ := @exists_created _ (archiveDisk "b/c.clj") "/a.clj" plainSettings
    (fun first => (first.state.sourcePath, first.opened)) ("/a.clj", []) (by decide +kernel)
  obtain ⟨shown, nothing⟩ := Prod.mk.inj held
  have there : (archiveDisk "b/c.clj").lookUp "/m.jar" =
      .ok (.archive [("b/c.clj", Text.Utf8.encode "(b)")]) := by decide +kernel
  refine ⟨first, created, (leadsBack_iff there (by decide +kernel)
    (isProper_printedEntry _) rfl).mpr
      ⟨⟨by decide, by decide, List.all_eq_true.mp (by decide +kernel)⟩, ?_⟩⟩
  refine .read ?_ ?_ (by decide +kernel)
  · rw [shown]
    decide
  · rw [remembered?, nothing]
    rfl

/-- For an entry with a blank in its path the location has another path, and cannot be visited. -/
theorem location_loses_entry :
    ∃ first, Engine.create (archiveDisk "a b.clj") "/a.clj" plainSettings = .ok first ∧
      (printedEntry "a b.clj").written =
        "[\"jar:file:/m.jar!/a%20b.clj\" 1 nil]".toList ∧
      (archiveDisk "a b.clj").lookUp "/m.jar" =
        .ok (.archive [("a b.clj", Text.Utf8.encode "(b)")]) ∧
      Source.entryText [("a b.clj", Text.Utf8.encode "(b)")] "a b.clj" = .ok "(b)" ∧
      Location.ofText? (String.ofList (printedEntry "a b.clj").written) =
        .ok (some ⟨"a%20b.clj", 1, none, some "/m.jar"⟩) ∧
      (first.perform (visit (archiveDisk "a b.clj")
        ⟨"a%20b.clj", 1, none, some "/m.jar"⟩)).2.toOption = none := by
  obtain ⟨first, created, fails⟩ := @exists_created _ (archiveDisk "a b.clj") "/a.clj" plainSettings
    (fun first => (first.perform (visit (archiveDisk "a b.clj")
      ⟨"a%20b.clj", 1, none, some "/m.jar"⟩)).2.toOption) none (by decide +kernel)
  exact ⟨first, created, by decide +kernel, by decide +kernel, by decide +kernel,
    by decide +kernel, fails⟩

end Engine
end EvalDesk
