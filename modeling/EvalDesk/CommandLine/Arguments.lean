import EvalDesk.CommandLine.Words

/-!
# Arguments of a command line

One word may name the source; the separator may stand on either side of it. Each switch takes one
argument, and of several arguments for one switch the last counts; the separator attached to a
switch takes back what was given before. The help is shown as soon as it is met, before words that
mean nothing are told.
-/
namespace EvalDesk.CommandLine

/-- The arguments that were given. -/
structure Arguments where
  /-- The source. -/
  file : Option String
  /-- The host of the server. -/
  host : Option String
  /-- The port of the server. -/
  port : Option Int
  /-- The transport to the server. -/
  transport : Option String
  deriving DecidableEq, Repr

/-- No arguments. -/
def Arguments.empty : Arguments := ⟨none, none, none, none⟩

/-- What a command line asks for. -/
inductive Wish where
  /-- The help. -/
  | help
  /-- Work with these arguments. -/
  | work (arguments : Arguments)
  deriving DecidableEq, Repr

/-- What was made of the words so far. -/
structure Reading where
  /-- The arguments. -/
  arguments : Arguments
  /-- The place of the source is taken. -/
  placed : Bool
  /-- The words that mean nothing. -/
  unrecognized : List String
  deriving DecidableEq, Repr

namespace Reading

/-- The reading before any word. -/
def start : Reading := ⟨.empty, false, []⟩

/-- A word means nothing. -/
def reject (reading : Reading) (word : String) : Reading :=
  { reading with unrecognized := reading.unrecognized ++ [word] }

/-- A word takes the place of the source. -/
def place (reading : Reading) (file : Option String) : Reading :=
  { reading with placed := true, arguments := { reading.arguments with file } }

/-- A switch takes an argument. -/
def take (reading : Reading) (switch : Switch) (text : String) : Except Flaw Reading :=
  let arguments := reading.arguments
  match switch with
  | .help => .error (.unused text)
  | .host => .ok { reading with arguments := { arguments with host := some text } }
  | .transport => .ok { reading with arguments := { arguments with transport := some text } }
  | .port =>
    match Text.readInteger text with
    | .ok number => .ok { reading with arguments := { arguments with port := some number } }
    | .error _ => .error (.notInteger switch text)

/-- A switch is as if it had not been given. -/
def drop (reading : Reading) (switch : Switch) : Reading :=
  let arguments := reading.arguments
  match switch with
  | .help => reading
  | .host => { reading with arguments := { arguments with host := none } }
  | .port => { reading with arguments := { arguments with port := none } }
  | .transport => { reading with arguments := { arguments with transport := none } }

/-- A switch takes an argument that is attached to it. The separator is none even there. -/
def takeAttached (reading : Reading) (switch : Switch) (text : String) : Except Flaw Reading :=
  if text = separatorText then .ok (reading.drop switch) else reading.take switch text

end Reading

/-- What keeps the help from being shown when letters are attached to its letter: each of them has
to be that letter again, and what starts with another one is told. -/
def helpFlaw? : List Char → Option Flaw
  | [] => some (.unused "")
  | ['h'] => none
  | 'h' :: rest => helpFlaw? rest
  | other => some (.unused (String.ofList other))

/-- The help with what is attached to it. -/
def askHelp (short : Bool) : Option String → Except Flaw Wish
  | none => .ok .help
  | some attached =>
    match if short then helpFlaw? attached.toList else some (.unused attached) with
    | some flaw => .error flaw
    | none => .ok .help

/-- What words ask for after some others. -/
def readFrom (reading : Reading) : List Word → Except Flaw Wish
  | [] =>
    if reading.unrecognized = [] then .ok (.work reading.arguments)
    else .error (.unrecognized reading.unrecognized)
  | .unknown text :: rest => readFrom (reading.reject text) rest
  | .named .help short attached :: _ => askHelp short attached
  | .named switch _ (some attached) :: rest => do
    readFrom (← reading.takeAttached switch attached) rest
  | .named switch _ none :: .argument text :: rest => do
    readFrom (← reading.take switch text) rest
  | .named switch _ none :: _ => .error (.lacking switch)
  | .argument text :: .separator :: rest =>
    if reading.placed then readFrom ((reading.reject text).reject separatorText) rest
    else readFrom (reading.place text) rest
  | .argument text :: rest =>
    if reading.placed then readFrom (reading.reject text) rest
    else readFrom (reading.place text) rest
  | .separator :: .argument text :: rest =>
    if reading.placed then readFrom ((reading.reject separatorText).reject text) rest
    else readFrom (reading.place text) rest
  | .separator :: rest =>
    if reading.placed then readFrom (reading.reject separatorText) rest
    else readFrom (reading.place none) rest

/-- What a command line asks for. -/
def read (words : List String) : Except Flaw Wish := do readFrom .start (← classifyAll words)

end EvalDesk.CommandLine
