import EvalDesk.Datum.Basic
import EvalDesk.Text.Lines

/-!
# Making a connection

A transport is named by a module and a factory in it, with a colon between them. The module is
looked for among those that can be loaded, and the factory is called with host and port. Names of
modules may have parts with points between them: a module is a package when others stand in it.
-/
namespace EvalDesk

/-- Why a factory makes no connection. -/
inductive FactoryFailure where
  /-- The system refuses. -/
  | system (text : String)
  /-- The factory itself fails. -/
  | other (fault : Fault)

/-- A way to make a connection to a host and port. -/
abbrev Factory (Connection : Type) := Datum → Int → Except FactoryFailure Connection

/-- The modules that can be loaded, each with its factories. -/
abbrev Modules (Connection : Type) := List (String × List (String × Factory Connection))

/-- The part of a name before its last point, none when it has no point. -/
def parentName? (name : List Char) : Option (List Char) :=
  match (name.reverse.dropWhile (· ≠ '.')) with
  | [] => none
  | _ :: rest => some rest.reverse

/-- Other modules stand in a module. -/
def isPackage (known : List String) (name : List Char) : Bool :=
  known.any fun other => (name ++ ['.']).isPrefixOf other.toList

/-- Why a module cannot be loaded; its parents are looked for first. -/
def unloadable? (known : List String) (depth : Nat) (name : List Char) : Option String :=
  let missing := "No module named " ++ Text.quoted (String.ofList name)
  let found := if known.contains (String.ofList name) then none else some missing
  match depth, parentName? name with
  | depth + 1, some (c :: rest) =>
    match unloadable? known depth (c :: rest) with
    | some reason => some reason
    | none =>
      if isPackage known (c :: rest) then found
      else some (missing ++ "; " ++ Text.quoted (String.ofList (c :: rest)) ++ " is not a package")
  | _, _ => found

/-- Whether a setting has a colon between two parts; a list is asked for a colon among its items,
and a table for one among its keys. -/
def hasColon : Datum → Except Fault Bool
  | .text value => .ok (value.toList.contains ':')
  | .list items => .ok (items.any fun item => item.text? = some ":")
  | .table entries => .ok ((Table.keys entries).contains ":")
  | .bytes _ => .error (.misuse .bytesTrimmed)
  | other => .error (.misuse (.notContainer other.kind))

/-- The name of the module and of the factory in a setting. -/
def transportNames (setting : Datum) : Except Fault (List Char × List Char) := do
  if !setting.isPresent then throw (.transport (.invalidSetting (← setting.shown)))
  if !(← hasColon setting) then throw (.transport (.invalidSetting (← setting.shown)))
  match setting with
  | .text value => return (Text.partition? [':'] value.toList).getD (value.toList, [])
  | other => throw (.misuse (.noMember other.kind "partition"))

/-- The connection a setting names. -/
def connect {Connection : Type} (modules : Modules Connection) (setting host : Datum)
    (port : Int) : Except Fault Connection := do
  let (moduleName, factory) ← transportNames setting
  let shownModule := String.ofList moduleName
  if moduleName.isEmpty then throw .emptyModuleName
  if moduleName.head? = some '.' then throw (.relativeModuleName shownModule)
  match unloadable? (modules.map (·.1)) moduleName.length moduleName with
  | some reason => throw (.transport (.unloadable shownModule reason))
  | none =>
    let factories := ((modules.find? (·.1 = shownModule)).map (·.2)).getD []
    match factories.find? (·.1 = String.ofList factory) with
    | none => throw (.transport (.noFactory shownModule (String.ofList factory)))
    | some (_, make) =>
      match make host port with
      | .ok connection => return connection
      | .error (.system text) =>
        throw (.transport (.refused (← host.shown) (toString port) text))
      | .error (.other fault) => throw fault

end EvalDesk
