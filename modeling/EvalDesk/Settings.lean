import EvalDesk.Datum.Json
import EvalDesk.Datum.JsonText
import EvalDesk.Disk

/-!
# Settings

Settings are the entries of a file in a directory of their own, put over defaults. A file that is
missing, cannot be opened or holds no table leaves the defaults; bytes that are no text and numbers
that are too long are faults. Changing a setting writes the file again, with all settings.
-/
namespace EvalDesk

/-- Settings and the directory of their file. -/
structure Settings where
  /-- The directory of the file. -/
  directory : Path
  /-- All settings in order. -/
  entries : Table

namespace Settings

/-- The settings when the file gives none. -/
def defaults : Table :=
  [("host", .text "127.0.0.1"),
    ("port", .integer 7888),
    ("transport", .text ""),
    ("namespace", .text "user"),
    ("load_on_save", .bool true),
    ("source_roots", .list [.text "src", .text "test"]),
    ("transcript_limit", .integer 500),
    ("log_file", .text "/tmp/replpeek.log")]

/-- The name of the directory for settings below a home directory. -/
def directoryName : String := ".replpeek"

/-- The name of the file. -/
def fileName : String := "config.json"

/-- The path of the file in a directory. -/
def fileIn (directory : Path) : Path := directory.child fileName

/-- The settings that a text gives. -/
def ofText (text : String) : Except Fault Table :=
  match Json.read text with
  | .ok (.table entries) => .ok (Table.merge defaults entries)
  | .ok _ | .error .malformed => .ok defaults
  | .error (.integer flaw) => .error (.integer flaw)

/-- The settings that the file in a directory gives. -/
def read (disk : Disk) (directory : Path) : Except Fault Table := do
  let file := fileIn directory
  if !(← disk.hasPath file) then return defaults
  match disk.readText file.text with
  | .ok text => ofText text
  | .error (.system _ _) => return defaults
  | .error fault => throw fault

/-- Load the settings of a directory, which is made when it is missing. -/
def load (disk : Disk) (directory : Path) : Disk × Except Fault Settings :=
  let disk := disk.makeDirectories directory
  (disk, (read disk directory).map fun entries => { directory, entries })

/-- The setting under a key. -/
def get? (settings : Settings) (key : String) : Option Datum := settings.entries.get? key

/-- The setting under a key, or what stands for it when there is none. -/
def get (settings : Settings) (key : String) (otherwise : Datum) : Datum :=
  (settings.get? key).getD otherwise

/-- The text of the file for settings. -/
def text (settings : Settings) : String := Json.write (.table settings.entries)

/-- Write the file. The settings must be data that can be written: without bytes, and without an
integer that is too long. -/
def save (settings : Settings) (disk : Disk) : Except Fault Disk :=
  disk.write (fileIn settings.directory) (Text.Utf8.encode settings.text)

/-- Change a setting and write the file; the setting is changed even when the file cannot be
written. -/
def set (settings : Settings) (disk : Disk) (key : String) (value : Datum) :
    Settings × Except Fault Disk :=
  let changed := { settings with entries := settings.entries.put key value }
  (changed, changed.save disk)

/-- A setting that was changed has its new value. -/
theorem get?_set (settings : Settings) (disk : Disk) (key : String) (value : Datum) :
    (settings.set disk key value).1.get? key = some value := Table.get?_put _ key value

end Settings
end EvalDesk
