import EvalDesk.Proofs.Datum.Writing
import EvalDesk.Proofs.Files
import EvalDesk.Proofs.Settings

/-!
# Saved settings

Settings that were loaded hold each default, in place, with the data of the file over it. Changes
keep this, and a table of this kind that is put over the defaults is what results. So the file that
a change writes gives the settings again, in their order, and saving them once more writes the same
text.
-/
namespace EvalDesk

/-- A text without carriage returns is read as it stands in its file. -/
theorem Text.unifyLineEnds_of_clear {text : List Char} (clear : '\r' ∉ text) :
    unifyLineEnds text = text := by
  induction text with
  | nil => rfl
  | cons c rest ih =>
    obtain ⟨other, later⟩ := not_or.mp (mt List.mem_cons.mpr clear)
    rw [unifyLineEnds]
    · rw [if_neg (Ne.symm other), ih later]
    · rintro _ rfl
      exact fun _ => other rfl

namespace Settings

/-! ## Settings over the defaults -/

/-- Settings as they are after loading and after changes: each key once and a text, those of the
defaults first, and data that can be written and read. -/
structure IsWhole (entries : Table) : Prop where
  /-- Each key is there once. -/
  once : entries.keys.Nodup
  /-- The keys of the defaults come first. -/
  first : defaults.keys <+: entries.keys
  /-- The keys are texts. -/
  texts : ∀ entry ∈ entries, entry.1.IsText
  /-- The data can be written and read. -/
  proper : ∀ entry ∈ entries, Json.Proper entry.2

/-- The defaults are such settings. -/
theorem isWhole_defaults : IsWhole defaults := by
  have paths : ∀ item ∈ [Datum.text "src", .text "test"], Json.Proper item := by
    simp only [List.forall_mem_cons]
    exact ⟨.text _, .text _, List.forall_mem_nil _⟩
  have texts : ∀ entry ∈ defaults, entry.1.IsText := by
    simp only [defaults, List.forall_mem_cons, Table.Key.isText, true_and]
    exact List.forall_mem_nil _
  have proper : ∀ entry ∈ defaults, Json.Proper entry.2 := by
    simp only [defaults, List.forall_mem_cons]
    exact ⟨.text _, .integer (by decide), .text _, .text _, .bool _, .list paths,
      .integer (by decide), .text _, List.forall_mem_nil _⟩
  exact ⟨by decide, List.prefix_refl _, texts, proper⟩

/-- A change keeps settings whole. -/
theorem IsWhole.put {entries : Table} (whole : IsWhole entries) (key : String) {value : Datum}
    (proper : Json.Proper value) : IsWhole (entries.put key value) :=
  ⟨Table.nodup_keys_put whole.once key value, Table.prefix_keys_put whole.first key value,
    Table.forall_mem_put whole.texts (Table.Key.isText key),
    Table.forall_mem_put whole.proper proper⟩

/-- A table that is read is put over the defaults to whole settings. -/
theorem isWhole_merge {entries : Table} (texts : ∀ entry ∈ entries, entry.1.IsText)
    (proper : ∀ entry ∈ entries, Json.Proper entry.2) : IsWhole (Table.merge defaults entries) :=
  ⟨Table.nodup_keys_merge isWhole_defaults.once entries,
    Table.prefix_keys_merge isWhole_defaults.first entries,
    Table.forall_mem_merge isWhole_defaults.texts texts,
    Table.forall_mem_merge isWhole_defaults.proper proper⟩

/-- Settings that a text gives are whole. -/
theorem isWhole_of_ofText {text : String} {entries : Table} (given : ofText text = .ok entries) :
    IsWhole entries := by
  rcases ofText_cases text with ⟨_, _, failed⟩ | ⟨_, ⟨own, holds, gives⟩ | ⟨_, gives⟩⟩
  · rw [failed] at given
    cases given
  · rw [gives] at given
    cases given
    cases Json.proper_of_holds holds with
    | table _ texts proper => exact isWhole_merge texts proper
  · rw [gives] at given
    cases given
    exact isWhole_defaults

/-- Settings that the file in a directory gives are whole. -/
theorem isWhole_of_read {disk : Disk} {directory : Path} {entries : Table}
    (given : read disk directory = .ok entries) : IsWhole entries := by
  unfold read at given
  dsimp only at given
  cases there : disk.hasPath (fileIn directory) with
  | error fault =>
    rw [there] at given
    cases given
  | ok found =>
    simp only [there, bind, Except.bind] at given
    split at given
    · cases given
      exact isWhole_defaults
    · split at given
      · exact isWhole_of_ofText given
      · cases given
        exact isWhole_defaults
      · cases given

/-- Settings that were loaded are whole, of the directory they were loaded from. -/
theorem isWhole_of_load {disk opened : Disk} {directory : Path} {settings : Settings}
    (loaded : load disk directory = (opened, .ok settings)) :
    opened = disk.makeDirectories directory ∧ settings.directory = directory ∧
      IsWhole settings.entries := by
  obtain ⟨tree, given⟩ := Prod.mk.inj loaded
  cases read : Settings.read (disk.makeDirectories directory) directory with
  | error fault =>
    rw [read] at given
    cases given
  | ok entries =>
    rw [read] at given
    cases given
    exact ⟨tree.symm, rfl, isWhole_of_read read⟩

/-- The text of whole settings is read as it stands in its file. -/
theorem fileText_text {settings : Settings} (whole : IsWhole settings.entries) :
    fileText settings.text = settings.text := by
  have proper : Json.Proper (.table settings.entries) := .table whole.once whole.texts whole.proper
  have clear : '\r' ∉ settings.text.toList := (Json.writtenClear_textAt proper 0).clear
  rw [fileText, Text.unifyLineEnds_of_clear clear]
  exact String.ofList_toList

/-- The text of whole settings gives them again. -/
theorem ofText_text {settings : Settings} (whole : IsWhole settings.entries) :
    ofText settings.text = .ok settings.entries := by
  have proper : Json.Proper (.table settings.entries) := .table whole.once whole.texts whole.proper
  rw [text, ofText, Json.read_write proper]
  exact congrArg Except.ok (Table.merge_eq_of_prefix whole.once whole.first)

/-! ## Files of settings -/

/-- The file of settings holds their text. -/
def IsSaved (settings : Settings) (disk : Disk) : Prop :=
  disk.lookUp (fileIn settings.directory).text =
    .ok (.file (Text.Utf8.encode settings.text))

/-- Saved settings are loaded as they are. -/
theorem IsSaved.load {settings : Settings} {disk : Disk} (saved : settings.IsSaved disk)
    (whole : IsWhole settings.entries) :
    (Settings.load disk settings.directory).2 = .ok settings := by
  rw [load_eq saved, Text.Utf8.decode_eq_ok_iff.mpr rfl]
  dsimp only
  rw [fileText_text whole, ofText_text whole]
  rfl

/-- Saved settings stay saved when they are loaded. -/
theorem IsSaved.opened {settings : Settings} {disk : Disk} (saved : settings.IsSaved disk) :
    settings.IsSaved (Settings.load disk settings.directory).1 :=
  (disk.grows_makeDirectories settings.directory).lookUp saved

/-- The file of a directory can be written: it is there, or nothing is while the directory is. -/
def HasPlace (disk : Disk) (directory : Path) : Prop :=
  (∃ content, disk.lookUp (fileIn directory).text = .ok (.file content)) ∨
    disk.Lacks (fileIn directory)

/-- Settings are saved where their file can be written. -/
theorem exists_save {settings : Settings} {disk : Disk} (place : HasPlace disk settings.directory) :
    ∃ after, settings.save disk = .ok after ∧ settings.IsSaved after := by
  rcases place with ⟨content, named⟩ | lacks
  · exact Disk.write_of_file named _
  · exact Disk.write_of_lacks (by decide) (by decide) lacks _

/-! ## Changes one after another -/

/-- Change settings one after another; a file that cannot be written ends it. -/
def setAll (settings : Settings) (disk : Disk) :
    List (String × Datum) → Settings × Except Fault Disk
  | [] => (settings, .ok disk)
  | (key, value) :: rest =>
    match settings.set disk key value with
    | (changed, .ok after) => changed.setAll after rest
    | (changed, .error fault) => (changed, .error fault)

/-- Changes as entries of a table. -/
def textKeyed (changes : List (String × Datum)) : Table :=
  changes.map fun change => (.text change.1, change.2)

/-- Changes to whole settings leave whole settings, and behind a change they are saved. -/
theorem exists_setAll {settings : Settings} {disk : Disk} (whole : IsWhole settings.entries)
    (place : HasPlace disk settings.directory) {changes : List (String × Datum)}
    (values : ∀ change ∈ changes, Json.Proper change.2) :
    ∃ final after, settings.setAll disk changes = (final, .ok after) ∧
      final.directory = settings.directory ∧
      final.entries = Table.merge settings.entries (textKeyed changes) ∧ IsWhole final.entries ∧
      (changes = [] ∧ final = settings ∧ after = disk ∨ final.IsSaved after) := by
  induction changes generalizing settings disk with
  | nil => exact ⟨settings, disk, rfl, rfl, rfl, whole, .inl ⟨rfl, rfl, rfl⟩⟩
  | cons change rest ih =>
    obtain ⟨key, value⟩ := change
    obtain ⟨own, later⟩ := List.forall_mem_cons.mp values
    let changed : Settings := { settings with entries := settings.entries.put key value }
    obtain ⟨after, written, saved⟩ := @exists_save changed disk place
    have made : settings.set disk key value = (changed, .ok after) :=
      congrArg (Prod.mk changed) written
    have step : settings.setAll disk ((key, value) :: rest) = changed.setAll after rest := by
      rw [setAll, made]
    obtain ⟨final, last, run, same, entries, done, either⟩ :=
      @ih changed after (whole.put key own) (.inl ⟨_, saved⟩) later
    refine ⟨final, last, step.trans run, same, entries, done, .inr ?_⟩
    rcases either with ⟨_, rfl, rfl⟩ | savedLast
    · exact saved
    · exact savedLast

/-- Settings come back from a tree: their file holds their text, it gives them when it is loaded,
and saving them again leaves it as it is. -/
structure ComesBack (settings : Settings) (disk : Disk) : Prop where
  /-- The file holds their text. -/
  saved : settings.IsSaved disk
  /-- They are loaded from it. -/
  loaded : (load disk settings.directory).2 = .ok settings
  /-- Behind loading and saving again the file holds the same text. -/
  again : ∃ after, settings.save (load disk settings.directory).1 = .ok after ∧
    after.lookUp (fileIn settings.directory).text = disk.lookUp (fileIn settings.directory).text

/-- Whole settings that are saved come back. -/
theorem IsSaved.comesBack {settings : Settings} {disk : Disk} (saved : settings.IsSaved disk)
    (whole : IsWhole settings.entries) : settings.ComesBack disk := by
  obtain ⟨after, written, again⟩ := exists_save (.inl ⟨_, saved.opened⟩)
  exact ⟨saved, saved.load whole, after, written, again.trans saved.symm⟩

/-- Settings that are loaded and changed come back. Every change is written, and the settings hold
what was loaded with the changes put into it. Other settings that are loaded from the directory are
the same, with the same keys in the same order, and behind at least one change their file holds
their text, which saving them again leaves as it is. Without a change this holds from the first time
on that they are saved. -/
theorem saved_settings_load {disk opened : Disk} {directory : Path} {settings : Settings}
    {changes : List (String × Datum)} (loaded : load disk directory = (opened, .ok settings))
    (place : (∃ content, disk.lookUp (fileIn directory).text = .ok (.file content)) ∨
      opened.Lacks (fileIn directory))
    (values : ∀ change ∈ changes, Json.Proper change.2) :
    ∃ final after, settings.setAll opened changes = (final, .ok after) ∧
      final.entries = Table.merge settings.entries (textKeyed changes) ∧
      (load after directory).2 = .ok final ∧
      (changes ≠ [] → final.ComesBack after) ∧
      ∃ saved, final.save (load after directory).1 = .ok saved ∧ final.ComesBack saved := by
  obtain ⟨rfl, rfl, whole⟩ := isWhole_of_load loaded
  have writable : HasPlace (disk.makeDirectories settings.directory) settings.directory := by
    refine place.imp ?_ id
    rintro ⟨content, named⟩
    exact ⟨content, (disk.grows_makeDirectories settings.directory).lookUp named⟩
  obtain ⟨final, after, run, directory, entries, done, either⟩ :=
    exists_setAll whole writable values
  refine ⟨final, after, run, entries, ?_⟩
  rw [← directory]
  rcases either with ⟨rfl, rfl, rfl⟩ | saved
  · -- Without a change the tree is still the one in which the settings were loaded.
    have same : load (disk.makeDirectories final.directory) final.directory =
        load disk final.directory := by
      simp only [load, Disk.makeDirectories_again]
    rw [same, loaded]
    obtain ⟨written, saves, saved⟩ := exists_save writable
    exact ⟨rfl, fun some_change => absurd rfl some_change, written, saves, saved.comesBack done⟩
  · have back := saved.comesBack done
    obtain ⟨written, saves, again⟩ := exists_save (.inl ⟨_, saved.opened⟩)
    exact ⟨back.loaded, fun _ => back, written, saves, again.comesBack done⟩

/-- A port that is loaded and set again comes back. -/
theorem saved_settings_load_port :
    ∃ opened settings, load (diskWith (Text.Utf8.encode portText)) home = (opened, .ok settings) ∧
      ∃ final after, settings.setAll opened [("port", .integer 2)] = (final, .ok after) ∧
        (load after home).2 = .ok final ∧ final.get? "port" = some (.integer 2) := by
  have held : (diskWith (Text.Utf8.encode portText)).lookUp (fileIn home).text =
      .ok (.file (Text.Utf8.encode portText)) := by decide +kernel
  have given : (load (diskWith (Text.Utf8.encode portText)) home).2 =
      .ok ⟨home, Table.merge defaults [("port", .integer 1)]⟩ := by
    rw [load_eq held, Text.Utf8.decode_eq_ok_iff.mpr rfl]
    dsimp only
    rw [show fileText portText = portText by decide +kernel, ofText_of_holds holds_portText]
    rfl
  have loaded : load (diskWith (Text.Utf8.encode portText)) home =
      (_, .ok ⟨home, Table.merge defaults [("port", .integer 1)]⟩) := Prod.ext rfl given
  have values : ∀ change ∈ [("port", Datum.integer 2)], Json.Proper change.2 :=
    List.forall_mem_singleton.mpr (.integer (by decide))
  obtain ⟨final, after, run, entries, back, -⟩ :=
    saved_settings_load loaded (.inl ⟨_, held⟩) values
  refine ⟨_, _, loaded, final, after, run, back, ?_⟩
  rw [get?, entries]
  exact Table.get?_put _ "port" (.integer 2)

end Settings

end EvalDesk
