import EvalDesk.Text.Integer
import EvalDesk.Text.Quoted

/-!
# Words of a command line

A word that starts with a dash and is longer than that may name a switch: with a name of it, with a
part of a name that fits no other, or with an argument attached. Negative numbers and words with a
blank in them are arguments all the same, and so is everything behind the separator.
-/
namespace EvalDesk.CommandLine

/-- A switch. -/
inductive Switch where
  /-- Show the help. -/
  | help
  /-- The host of the server. -/
  | host
  /-- The port of the server. -/
  | port
  /-- The transport to the server. -/
  | transport
  deriving DecidableEq, Repr

/-- The name of the help by one letter. -/
def shortHelp : String := "-h"

/-- The names of the switches. -/
def names : List (String × Switch) :=
  [(shortHelp, .help), ("--help", .help), ("--host", .host), ("--port", .port),
    ("--transport", .transport)]

/-- A switch as it is told in an error. -/
def Switch.title : Switch → String
  | .help => "-h/--help"
  | .host => "--host"
  | .port => "--port"
  | .transport => "--transport"

/-- What a word is. -/
inductive Word where
  /-- An argument. -/
  | argument (text : String)
  /-- The first word that only separates. -/
  | separator
  /-- The name of a switch, by one letter or not, with the argument that is attached. -/
  | named (switch : Switch) (short : Bool) (attached : Option String)
  /-- A name of no switch. -/
  | unknown (text : String)
  deriving DecidableEq, Repr

/-- What is wrong with a command line. -/
inductive Flaw where
  /-- A word may stand for several names. -/
  | ambiguous (word : String) (names : List String)
  /-- A switch lacks its argument. -/
  | lacking (switch : Switch)
  /-- The help has an argument. -/
  | unused (text : String)
  /-- The argument of a switch is no integer. -/
  | notInteger (switch : Switch) (text : String)
  /-- Words that mean nothing. -/
  | unrecognized (words : List String)
  deriving DecidableEq, Repr

/-- The words for a flaw. -/
def Flaw.message : Flaw → String
  | .ambiguous word names =>
    "ambiguous option: " ++ word ++ " could match " ++ ", ".intercalate names
  | .lacking switch => "argument " ++ switch.title ++ ": expected one argument"
  | .unused text =>
    "argument " ++ Switch.help.title ++ ": ignored explicit argument " ++ Text.quoted text
  | .notInteger switch text =>
    "argument " ++ switch.title ++ ": invalid int value: " ++ Text.quoted text
  | .unrecognized words => "unrecognized arguments: " ++ " ".intercalate words

/-- The word that separates. -/
def separatorText : String := "--"

/-- The switch with a name. -/
def named? (name : String) : Option Switch := (names.find? (·.1 = name)).map (·.2)

/-- A word without the equals sign and the argument behind it, and that argument. -/
def splitMarked (word : List Char) : List Char × Option String :=
  match Text.partition? ['='] word with
  | some (name, text) => (name, some (String.ofList text))
  | none => (word, none)

/-- The names that a word may be a part of, each with what the word stands for then. A word with
one dash stands for the name by its letter, with the rest attached. -/
def candidates (word : List Char) : List (String × Word) :=
  if word.take 2 = ['-', '-'] then
    let (start, attached) := splitMarked word
    (names.filter fun (name, _) => start.isPrefixOf name.toList).map fun (name, switch) =>
      (name, .named switch (name = shortHelp) attached)
  else
    (names.filter fun (name, _) => name.toList = word.take 2).map fun (name, switch) =>
      (name, .named switch true (some (String.ofList (word.drop 2))))

/-- A negative number: digits, or a point with digits behind it. A line feed may end it. -/
def isNegativeNumber (word : List Char) : Bool :=
  match word with
  | '-' :: rest =>
    let body := if rest.getLast? = some '\n' then rest.dropLast else rest
    match body.dropWhile Text.isDecimal with
    | [] => !body.isEmpty
    | '.' :: digits => !digits.isEmpty && digits.all Text.isDecimal
    | _ => false
  | _ => false

/-- What a word is that stands before the separator. -/
def classify (word : String) : Except Flaw Word :=
  let chars := word.toList
  if chars.head? ≠ some '-' then .ok (.argument word)
  else
    match named? word, splitMarked chars with
    | some switch, _ => .ok (.named switch (word = shortHelp) none)
    | none, (name, attached) =>
      if chars.length = 1 then .ok (.argument word)
      else
        match attached.bind fun _ => named? (String.ofList name) with
        | some switch => .ok (.named switch (String.ofList name = shortHelp) attached)
        | none =>
          match candidates chars with
          | [(_, found)] => .ok found
          | [] =>
            if isNegativeNumber chars ∨ chars.contains ' ' then .ok (.argument word)
            else .ok (.unknown word)
          | many => .error (.ambiguous word (many.map (·.1)))

/-- What the words of a command line are. -/
def classifyAll : List String → Except Flaw (List Word)
  | [] => .ok []
  | word :: rest =>
    if word = separatorText then .ok (.separator :: rest.map .argument)
    else do
      let first ← classify word
      return first :: (← classifyAll rest)

end EvalDesk.CommandLine
