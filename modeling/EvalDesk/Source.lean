import EvalDesk.Buffer
import EvalDesk.Disk

/-!
# Reading sources

A source is read from a file, or from an entry of an archive. Its path as a buffer tells which: that
of the file, or those of the archive and the entry with a mark between them.
-/
namespace EvalDesk.Source

/-- The mark between the path of an archive and that of an entry. -/
def entryMark : String := "!/"

/-- The path of an entry of an archive. -/
def entryPath (archive entry : String) : String := archive ++ entryMark ++ entry

/-- The buffer of a file. -/
def ofFile (disk : Disk) (path : String) : Except Fault Buffer :=
  match disk.readText path with
  | .ok text => .ok { path, text }
  | .error (.system error _) => .error (.source (.unopened path error))
  | .error (.undecodable flaw) => .error (.source (.undecodable path flaw.reason))
  | .error fault => .error fault

/-- The text of an entry; its line ends stay as they are. -/
def entryText (entries : List (String × List UInt8)) (entry : String) :
    Except ArchiveProblem String :=
  match entries.find? (·.1 = entry) with
  | none => .error (.noEntry entry)
  | some (_, content) => (Text.Utf8.decode content).mapError .undecodable

/-- The buffer of an entry of an archive. -/
def ofEntry (disk : Disk) (archive entry : String) : Except Fault Buffer :=
  let unread (problem : ArchiveProblem) : Except Fault Buffer :=
    .error (.source (.unread entry archive problem))
  match disk.lookUp archive with
  | .error (.system error _) => unread (.unopened archive error)
  | .error fault => .error fault
  | .ok .directory => unread (.unopened archive .isDirectory)
  | .ok (.file _) => unread .notArchive
  | .ok (.archive entries) =>
    match entryText entries entry with
    | .error problem => unread problem
    | .ok text => .ok { path := entryPath archive entry, text }

/-- The path of an archive and of an entry in a path with the mark. -/
def splitEntry? (path : String) : Option (String × String) :=
  (Text.partition? entryMark.toList path.toList).map fun (archive, entry) =>
    (String.ofList archive, String.ofList entry)

end EvalDesk.Source
