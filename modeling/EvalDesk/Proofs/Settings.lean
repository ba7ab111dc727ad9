import EvalDesk.Proofs.Datum.Merging
import EvalDesk.Proofs.Datum.Reading
import EvalDesk.Proofs.Disk
import EvalDesk.Proofs.Text.Utf8
import EvalDesk.Settings

/-!
# Loading settings

Settings are loaded from a file of any bytes. A table in it is put over the defaults, and a text
that holds no table leaves them. Two kinds of files are faults, though: bytes that are those of no
text, and a text in which, behind parts of data that are written well, an integer stands that has
more digits than may be read.
-/
namespace EvalDesk.Settings

/-- The text of a file as it is read, with its line ends made line feeds. -/
def fileText (text : String) : String := String.ofList (Text.unifyLineEnds text.toList)

/-- A text that holds data comes to no integer that is too long. -/
theorem not_comesTo_of_holds {text : String} {value : Datum} (holds : Json.Holds text value)
    (count : Nat) : ¬Json.ComesTo text count := by
  intro comes
  have refused := Json.read_eq_integer_iff.mpr ⟨count, rfl, comes⟩
  rw [Json.read_eq_ok_iff.mpr holds] at refused
  contradiction

/-- A text holds no two data. -/
theorem holds_unique {text : String} {first second : Datum} (one : Json.Holds text first)
    (other : Json.Holds text second) : first = second := by
  have read := Json.read_eq_ok_iff.mpr one
  rw [Json.read_eq_ok_iff.mpr other] at read
  exact (Except.ok.inj read).symm

/-- A table is put over the defaults. -/
theorem ofText_of_holds {text : String} {entries : Table}
    (holds : Json.Holds text (.table entries)) :
    ofText text = .ok (Table.merge defaults entries) := by
  rw [ofText, Json.read_eq_ok_iff.mpr holds]

/-- An integer that is too long is a fault where it is reached. -/
theorem ofText_of_comesTo {text : String} {count : Nat} (comes : Json.ComesTo text count) :
    ofText text = .error (.integer (.tooLong count)) := by
  rw [ofText, Json.read_eq_integer_iff.mpr ⟨count, rfl, comes⟩]

/-- Every other text leaves the defaults. -/
theorem ofText_of_neither {text : String} (noTable : ∀ entries, ¬Json.Holds text (.table entries))
    (short : ∀ count, ¬Json.ComesTo text count) : ofText text = .ok defaults := by
  unfold ofText
  split
  · rename_i entries read
    exact absurd (Json.read_eq_ok_iff.mp read) (noTable entries)
  · rfl
  · rfl
  · rename_i flaw read
    obtain ⟨count, -, comes⟩ := Json.read_eq_integer_iff.mp read
    exact absurd comes (short count)

/-- What a text gives: a fault for an integer that is too long, else its table put over the
defaults, else the defaults. -/
theorem ofText_cases (text : String) :
    (∃ count, Json.ComesTo text count ∧ ofText text = .error (.integer (.tooLong count))) ∨
    (∀ count, ¬Json.ComesTo text count) ∧
      ((∃ entries, Json.Holds text (.table entries) ∧
          ofText text = .ok (Table.merge defaults entries)) ∨
        (∀ entries, ¬Json.Holds text (.table entries)) ∧ ofText text = .ok defaults) := by
  by_cases comes : ∃ count, Json.ComesTo text count
  · obtain ⟨count, comes⟩ := comes
    exact .inl ⟨count, comes, ofText_of_comesTo comes⟩
  have short := not_exists.mp comes
  by_cases holds : ∃ entries, Json.Holds text (.table entries)
  · obtain ⟨entries, holds⟩ := holds
    exact .inr ⟨short, .inl ⟨entries, holds, ofText_of_holds holds⟩⟩
  · have noTable := not_exists.mp holds
    exact .inr ⟨short, .inr ⟨noTable, ofText_of_neither noTable short⟩⟩

section Loading

variable {disk : Disk} {directory : Path} {content : List UInt8}

/-- Settings are loaded from the bytes of their file, whatever directories are made for it. -/
theorem load_eq (held : disk.lookUp (fileIn directory).text = .ok (.file content)) :
    (load disk directory).2 =
      match Text.Utf8.decode content with
      | .ok text => (ofText (fileText text)).map fun entries => { directory, entries }
      | .error flaw => .error (.undecodable flaw) := by
  have named := (disk.grows_makeDirectories directory).lookUp held
  have found := Disk.readText_of_file named
  have there : (disk.makeDirectories directory).hasPath (fileIn directory) = .ok true := by
    rw [Disk.hasPath, Disk.nodeAt, named]
    rfl
  simp only [load, read, there, found, bind, Except.bind]
  cases Text.Utf8.decode content with
  | error flaw => rfl
  | ok text => simp [fileText]

/-- The bytes of a file are those of no text, or of one that gives the settings. -/
theorem load_cases (held : disk.lookUp (fileIn directory).text = .ok (.file content)) :
    (∃ flaw, (∀ text, content ≠ Text.Utf8.encode text) ∧
      (load disk directory).2 = .error (.undecodable flaw)) ∨
    ∃ text, content = Text.Utf8.encode text ∧
      (load disk directory).2 =
        (ofText (fileText text)).map fun entries => { directory, entries } := by
  rw [load_eq held]
  cases read : Text.Utf8.decode content with
  | error flaw =>
    refine .inl ⟨flaw, fun text same => ?_, rfl⟩
    rw [Text.Utf8.decode_eq_ok_iff.mpr same] at read
    cases read
  | ok text => exact .inr ⟨text, Text.Utf8.decode_eq_ok_iff.mp read, rfl⟩

/-- Settings are loaded from a file exactly when its bytes are those of a text that comes to no
integer with too many digits. Then the table that the text holds is put over the defaults, and where
it holds none the settings are the defaults. Else the fault is that of the bytes or of the
integer. Left out are a limit of recursion for data that is nested very deep, and what becomes of an
escape for one half of a pair of units: it stands for no character, and is read here as the
replacement character. -/
theorem settings_load_iff (held : disk.lookUp (fileIn directory).text = .ok (.file content)) :
    ((∃ settings, (load disk directory).2 = .ok settings) ↔
      ∃ text, content = Text.Utf8.encode text ∧ ∀ count, ¬Json.ComesTo (fileText text) count) ∧
    (∀ settings, (load disk directory).2 = .ok settings →
      settings.directory = directory ∧
      (∀ text entries, content = Text.Utf8.encode text →
        Json.Holds (fileText text) (.table entries) →
          Overrides settings.entries defaults entries) ∧
      ((∀ text entries, content = Text.Utf8.encode text →
        ¬Json.Holds (fileText text) (.table entries)) → settings.entries = defaults)) ∧
    ∀ fault, (load disk directory).2 = .error fault →
      (∃ flaw, fault = .undecodable flaw ∧ ∀ text, content ≠ Text.Utf8.encode text) ∨
      ∃ text count, content = Text.Utf8.encode text ∧ Json.ComesTo (fileText text) count ∧
        fault = .integer (.tooLong count) := by
  rcases load_cases held with ⟨flaw, textless, loaded⟩ | ⟨text, rfl, loaded⟩
  · rw [loaded]
    refine ⟨⟨nofun, ?_⟩, nofun, ?_⟩
    · rintro ⟨text, same, -⟩
      exact absurd same (textless text)
    · rintro _ ⟨⟩
      exact .inl ⟨flaw, rfl, textless⟩
  rw [loaded]
  rcases ofText_cases (fileText text) with
    ⟨count, comes, given⟩ | ⟨short, ⟨entries, holds, given⟩ | ⟨noTable, given⟩⟩
  · rw [given]
    refine ⟨⟨nofun, ?_⟩, nofun, ?_⟩
    · rintro ⟨other, again, short⟩
      rw [← Text.Utf8.encode_injective again] at short
      exact absurd comes (short count)
    · rintro _ ⟨⟩
      exact .inr ⟨text, count, rfl, comes, rfl⟩
  · rw [given]
    refine ⟨⟨fun _ => ⟨text, rfl, short⟩, fun _ => ⟨_, rfl⟩⟩, ?_, nofun⟩
    rintro _ ⟨⟩
    refine ⟨rfl, fun other others again held => ?_, fun noTable => absurd holds (noTable _ _ rfl)⟩
    rw [← Text.Utf8.encode_injective again] at held
    cases holds_unique holds held
    exact Table.overrides_merge defaults (Json.nodup_keys_of_holds holds)
  · rw [given]
    refine ⟨⟨fun _ => ⟨text, rfl, short⟩, fun _ => ⟨_, rfl⟩⟩, ?_, nofun⟩
    rintro _ ⟨⟩
    refine ⟨rfl, fun other others again held => ?_, fun _ => rfl⟩
    rw [← Text.Utf8.encode_injective again] at held
    exact absurd held (noTable others)

end Loading

/-- A directory for settings. -/
def home : Path := ⟨.top, ["home"]⟩

/-- A tree with a file of settings in this directory. -/
def diskWith (content : List UInt8) : Disk :=
  ⟨[(["home"], .directory), (["home", fileName], .file content)], home⟩

/-- A table with a port, as it is written in a file. -/
def portText : String := "\x7b\"port\": 1\x7d"

/-- It holds this table. -/
theorem holds_portText : Json.Holds portText (.table [("port", .integer 1)]) := by
  have key : Json.Key "port" ['"', 'p', 'o', 'r', 't', '"', ':', ' '] :=
    .intro (Json.inside_self (by simp : ∀ c ∈ ['p', 'o', 'r', 't'], _))
      (List.forall_mem_nil _) (List.forall_mem_singleton.mpr rfl)
  have port : Json.Written (.datum (.integer 1)) (Json.minus false ++ ['1']) :=
    .number (.integer (.inr ⟨⟨by decide, List.forall_mem_singleton.mpr rfl⟩, by decide⟩)
      (by decide))
  exact ⟨[], _, [], List.forall_mem_nil _,
    .table (List.forall_mem_nil _) (.lastEntry key port (List.forall_mem_nil _)),
    List.forall_mem_nil _, by decide +kernel⟩

/-- A file that holds a table with a port gives the defaults with this port. -/
theorem settings_load_iff_port :
    (diskWith (Text.Utf8.encode portText)).lookUp (fileIn home).text =
        .ok (.file (Text.Utf8.encode portText)) ∧
      ∃ settings, (load (diskWith (Text.Utf8.encode portText)) home).2 = .ok settings ∧
        Overrides settings.entries defaults [("port", .integer 1)] := by
  have held : (diskWith (Text.Utf8.encode portText)).lookUp (fileIn home).text =
      .ok (.file (Text.Utf8.encode portText)) := by decide +kernel
  have holds : Json.Holds (fileText portText) (.table [("port", .integer 1)]) := by
    rw [show fileText portText = portText by decide +kernel]
    exact holds_portText
  obtain ⟨loads, given, -⟩ := settings_load_iff held
  obtain ⟨settings, loaded⟩ := loads.mpr ⟨portText, rfl, not_comesTo_of_holds holds⟩
  exact ⟨held, settings, loaded, (given settings loaded).2.1 portText _ rfl holds⟩

/-- A file that is not UTF-8 gives no settings at all. -/
theorem undecodable_file_gives_none :
    (diskWith [0xff, 0xfe]).lookUp (fileIn home).text = .ok (.file [0xff, 0xfe]) ∧
      ∀ settings, (load (diskWith [0xff, 0xfe]) home).2 ≠ .ok settings := by
  have held : (diskWith [0xff, 0xfe]).lookUp (fileIn home).text = .ok (.file [0xff, 0xfe]) := by
    decide +kernel
  refine ⟨held, fun settings loaded => ?_⟩
  rw [load_eq held, show Text.Utf8.decode [0xff, 0xfe] =
    .error ⟨0, 1, 0xff, .startByte⟩ by decide +kernel] at loaded
  cases loaded

end EvalDesk.Settings
