import EvalDesk.Text.Integer
import EvalDesk.Text.Utf8

/-!
# Faults

Everything that can go wrong, as a cause with what is needed to tell it. The words for a cause are
in one place, `Fault.message`; a cause has a hint only where something can be done about it.
-/
namespace EvalDesk

/-- Why the file system refuses. -/
inductive SystemError where
  /-- Nothing has this path. -/
  | missing
  /-- A part of the path before its last one is no directory. -/
  | notDirectory
  /-- A directory stands where a file is needed. -/
  | isDirectory
  /-- A name in the path is longer than names may be. -/
  | nameTooLong
  deriving DecidableEq, Repr

/-- The number of a file system error. -/
def SystemError.code : SystemError → Nat
  | .missing => 2
  | .notDirectory => 20
  | .isDirectory => 21
  | .nameTooLong => 36

/-- The words for a file system error. -/
def SystemError.reason : SystemError → String
  | .missing => "No such file or directory"
  | .notDirectory => "Not a directory"
  | .isDirectory => "Is a directory"
  | .nameTooLong => "File name too long"

/-- The full words for a file system error at a path. -/
def SystemError.message (error : SystemError) (path : String) : String :=
  "[Errno " ++ toString error.code ++ "] " ++ error.reason ++ ": " ++ Text.quoted path

/-- Why an entry of an archive cannot be read. -/
inductive ArchiveProblem where
  /-- The archive cannot be opened. -/
  | unopened (path : String) (error : SystemError)
  /-- The file is no archive. -/
  | notArchive
  /-- The archive has no such entry. -/
  | noEntry (entry : String)
  /-- The entry is not UTF-8. -/
  | undecodable (flaw : Text.Utf8.Flaw)
  deriving DecidableEq, Repr

/-- The words for a problem with an archive; a missing entry is told as a literal. -/
def ArchiveProblem.message : ArchiveProblem → String
  | .unopened path error => error.message path
  | .notArchive => "File is not a zip file"
  | .noEntry entry =>
    Text.quoted ("There is no item named " ++ Text.quoted entry ++ " in the archive")
  | .undecodable flaw => flaw.message

/-- Why a source cannot be shown. -/
inductive SourceProblem where
  /-- The file cannot be opened. -/
  | unopened (path : String) (error : SystemError)
  /-- The file is not UTF-8. -/
  | undecodable (path : String) (reason : Text.Utf8.Reason)
  /-- The entry of the archive cannot be read. -/
  | unread (entry archive : String) (problem : ArchiveProblem)
  /-- No file has this path anywhere it is looked for. -/
  | absent (path : String)
  deriving DecidableEq, Repr

/-- The words for a source that cannot be shown. -/
def SourceProblem.message : SourceProblem → String
  | .unopened path error => "Cannot open " ++ path ++ ": " ++ error.reason
  | .undecodable path reason => "Cannot decode " ++ path ++ ": " ++ reason.message
  | .unread entry archive problem =>
    "Cannot read " ++ entry ++ " from " ++ archive ++ ": " ++ problem.message
  | .absent path => "No such file: " ++ path

/-- Why there is no connection. -/
inductive TransportProblem where
  /-- The setting names no module and factory. -/
  | invalidSetting (shown : String)
  /-- The module cannot be loaded. -/
  | unloadable (moduleName reason : String)
  /-- The module has no such factory. -/
  | noFactory (moduleName factory : String)
  /-- The server does not answer. -/
  | refused (host port reason : String)
  /-- The connection broke while a request was sent. -/
  | lost (reason : String)
  /-- The transport reports a problem of its own. -/
  | reported (text : String)
  deriving DecidableEq, Repr

/-- The words for a missing connection. -/
def TransportProblem.message : TransportProblem → String
  | .invalidSetting shown => "Invalid transport '" ++ shown ++ "'"
  | .unloadable moduleName reason =>
    "Cannot import transport module '" ++ moduleName ++ "': " ++ reason
  | .noFactory moduleName factory =>
    "Transport module '" ++ moduleName ++ "' has no attribute '" ++ factory ++ "'"
  | .refused host port reason => "Cannot connect to " ++ host ++ ":" ++ port ++ ": " ++ reason
  | .lost reason => "Connection lost: " ++ reason
  | .reported text => text

/-- What to do about a missing connection. -/
def TransportProblem.hint? : TransportProblem → Option String
  | .invalidSetting _ =>
    some "Set \"transport\" to module:callable in ~/.replpeek/config.json"
  | _ => none

/-- How a datum of the wrong kind was used; the kinds are those `Datum.kind` names. -/
inductive Misuse where
  /-- It was gone through one by one. -/
  | notIterable (kind : String)
  /-- It was asked whether it contains something. -/
  | notContainer (kind : String)
  /-- It was asked for a part that it does not have. -/
  | noMember (kind member : String)
  /-- It was matched as text. -/
  | notText (kind : String)
  /-- Bytes were matched as text. -/
  | bytesMatched
  /-- Bytes were trimmed by text. -/
  | bytesTrimmed
  /-- It was joined to text. -/
  | notJoinable (kind : String)
  /-- The two kinds do not go together in an operation. -/
  | operands (operation left right : String)
  /-- It was used as the end of a slice. -/
  | notSliceEnd
  /-- It was used as a key. -/
  | notKey (kind : String)
  /-- It was turned into an integer. -/
  | notNumber (kind : String)
  /-- It was used as a path. -/
  | notPath (kind : String)
  deriving DecidableEq, Repr

/-- The words for a wrong use. -/
def Misuse.message : Misuse → String
  | .notIterable kind => "'" ++ kind ++ "' object is not iterable"
  | .notContainer kind => "argument of type '" ++ kind ++ "' is not iterable"
  | .noMember kind member => "'" ++ kind ++ "' object has no attribute '" ++ member ++ "'"
  | .notText kind => "expected string or bytes-like object, got '" ++ kind ++ "'"
  | .bytesMatched => "cannot use a string pattern on a bytes-like object"
  | .bytesTrimmed => "a bytes-like object is required, not 'str'"
  | .notJoinable kind => "can only concatenate str (not \"" ++ kind ++ "\") to str"
  | .operands operation left right =>
    "unsupported operand type(s) for " ++ operation ++ ": '" ++ left ++ "' and '" ++ right ++ "'"
  | .notSliceEnd => "slice indices must be integers or None or have an __index__ method"
  | .notKey kind => "unhashable type: '" ++ kind ++ "'"
  | .notNumber kind =>
    "int() argument must be a string, a bytes-like object or a real number, not '" ++ kind ++ "'"
  | .notPath kind => "expected str, bytes or os.PathLike object, not " ++ kind

/-- A cause of failure. -/
inductive Fault where
  /-- A position outside a text. -/
  | outsideText
  /-- A position outside a list. -/
  | outsideList
  /-- A position that nothing could have, however long it is. -/
  | beyondPositions
  /-- A line outside a buffer. -/
  | outsideBuffer (line : Int) (lines : Nat)
  /-- A numeric field of a diagnostic that is no number. -/
  | malformedDiagnostic (field digits text : String)
  /-- A text that is no integer. -/
  | integer (flaw : Text.IntegerFlaw)
  /-- Bytes that are no text. -/
  | undecodable (flaw : Text.Utf8.Flaw)
  /-- A path with the character that ends names in it. -/
  | nullInPath
  /-- A refusal of the file system. -/
  | system (error : SystemError) (path : String)
  /-- A source that cannot be shown. -/
  | source (problem : SourceProblem)
  /-- A missing connection. -/
  | transport (problem : TransportProblem)
  /-- A datum of the wrong kind. -/
  | misuse (use : Misuse)
  /-- The name of a module is empty. -/
  | emptyModuleName
  /-- The name of a module is relative to a module that is not given. -/
  | relativeModuleName (name : String)
  /-- An infinity was turned into an integer. -/
  | infiniteInteger
  /-- The result that is no number was turned into an integer. -/
  | undefinedInteger
  /-- An integer is beyond all floating-point numbers. -/
  | beyondReals
  /-- A failure of another program, with the name of its kind and its text. -/
  | foreign (kind text : String)
  deriving DecidableEq, Repr

/-- The failure of another program that has a kind and a message; a missing key is told as a
literal. -/
def Fault.ofKind (kind message : String) : Fault :=
  if kind = "TransportError" then .transport (.reported message)
  else .foreign kind (if kind = "KeyError" then Text.quoted message else message)

/-- The fault of a position that is outside: positions are signed numbers of 64 bits, and one that
is no such number is told apart from the others. -/
def Fault.ofPosition (position : Int) (outside : Fault) : Fault :=
  if -(Nat.pow 2 63 : Int) ≤ position ∧ position < Nat.pow 2 63 then outside else .beyondPositions

/-- The words for a fault. -/
def Fault.message : Fault → String
  | .outsideText => "string index out of range"
  | .outsideList => "list index out of range"
  | .beyondPositions => "cannot fit 'int' into an index-sized integer"
  | .outsideBuffer line lines =>
    "line " ++ toString line ++ " outside buffer of " ++ toString lines ++ " lines"
  | .malformedDiagnostic field digits text =>
    "Unparseable " ++ field ++ " '" ++ digits ++ "' in diagnostic: " ++ text
  | .integer flaw => flaw.message
  | .undecodable flaw => flaw.message
  | .nullInPath => "embedded null byte"
  | .system error path => error.message path
  | .source problem => problem.message
  | .transport problem => problem.message
  | .misuse use => use.message
  | .emptyModuleName => "Empty module name"
  | .relativeModuleName name =>
    "the 'package' argument is required to perform a relative import for " ++ Text.quoted name
  | .infiniteInteger => "cannot convert float infinity to integer"
  | .undefinedInteger => "cannot convert float NaN to integer"
  | .beyondReals => "int too large to convert to float"
  | .foreign _ text => text

/-- What to do about a fault. -/
def Fault.hint? : Fault → Option String
  | .transport problem => problem.hint?
  | _ => none

end EvalDesk
