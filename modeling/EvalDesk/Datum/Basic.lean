import EvalDesk.Fault
import EvalDesk.Number.Decimal

/-!
# Data of any shape

A server answers with data of any shape, and a settings file may hold such data too. A table keeps
its entries in the order in which their keys were first put in, one entry a key. Mostly the keys are
texts, but any datum that holds no others can be one.
-/
namespace EvalDesk

/-- A key of a table. Keys of different kinds are different, also where they are numbers of one
value; tables are only searched for texts. -/
inductive Table.Key where
  /-- The absent datum. -/
  | null
  /-- A truth value. -/
  | bool (value : Bool)
  /-- An integer of any size. -/
  | integer (value : Int)
  /-- A floating-point number. -/
  | real (value : Binary64)
  /-- A text. -/
  | text (value : String)
  /-- Bytes. -/
  | bytes (value : List UInt8)
  deriving DecidableEq, Inhabited, Repr

/-- A text where a key is needed. -/
instance : Coe String Table.Key := ⟨.text⟩

/-- A datum as it stands in an answer of the server or in a settings file. -/
inductive Datum where
  /-- The absent datum. -/
  | null
  /-- A truth value. -/
  | bool (value : Bool)
  /-- An integer of any size. -/
  | integer (value : Int)
  /-- A floating-point number. -/
  | real (value : Binary64)
  /-- A text. -/
  | text (value : String)
  /-- Bytes that stand for text or for anything else. -/
  | bytes (value : List UInt8)
  /-- Data in order. -/
  | list (items : List Datum)
  /-- Data under keys. -/
  | table (entries : List (Table.Key × Datum))
  deriving Inhabited, Repr

/-- Entries of a table. -/
abbrev Table := List (Table.Key × Datum)

namespace Table

/-- A key as a datum. -/
def Key.datum : Key → Datum
  | .null => .null
  | .bool value => .bool value
  | .integer value => .integer value
  | .real value => .real value
  | .text value => .text value
  | .bytes value => .bytes value

/-- The datum under a key. -/
def get? (table : Table) (key : Key) : Option Datum :=
  (table.find? (·.1 = key)).map (·.2)

/-- The datum under a key, or the absent datum. -/
def get (table : Table) (key : Key) : Datum := (table.get? key).getD .null

/-- Whether the table has the key. -/
def has (table : Table) (key : Key) : Bool := (table.get? key).isSome

/-- Put a datum under a key: in the place of the entry that has the key, else at the end. -/
def put : Table → Key → Datum → Table
  | [], key, datum => [(key, datum)]
  | (other, old) :: rest, key, datum =>
    if other = key then (key, datum) :: rest else (other, old) :: put rest key datum

/-- Put all entries of a second table into a first. -/
def merge (table entries : Table) : Table :=
  entries.foldl (fun table (key, datum) => table.put key datum) table

/-- The keys of a table in order. -/
def keys (table : Table) : List Key := table.map (·.1)

/-- What was put under a key is found there. -/
theorem get?_put (table : Table) (key : Key) (datum : Datum) :
    (table.put key datum).get? key = some datum := by
  induction table with
  | nil => simp [put, get?]
  | cons entry rest ih =>
    obtain ⟨name, old⟩ := entry
    simp only [put]
    split
    · simp [get?]
    · rename_i other
      simpa [get?, other] using ih

/-- Putting a datum under one key leaves the other keys as they are. -/
theorem get?_put_of_ne (table : Table) {key other : Key} (datum : Datum)
    (different : other ≠ key) : (table.put key datum).get? other = table.get? other := by
  induction table with
  | nil => simp [put, get?, Ne.symm different]
  | cons entry rest ih =>
    obtain ⟨name, old⟩ := entry
    simp only [put]
    split
    · rename_i same
      subst same
      simp [get?, Ne.symm different]
    · by_cases found : name = other
      · simp [get?, found]
      · simpa [get?, found] using ih

/-- A new key comes last, and a known one keeps its place. -/
theorem keys_put (table : Table) (key : Key) (datum : Datum) :
    (table.put key datum).keys = if key ∈ table.keys then table.keys else table.keys ++ [key] := by
  induction table with
  | nil => simp [put, keys]
  | cons entry rest ih =>
    obtain ⟨name, old⟩ := entry
    simp only [put]
    by_cases same : name = key
    · simp [same, keys]
    · have apart : ¬key = name := fun equal => same equal.symm
      simp only [keys] at ih
      simp only [same, ↓reduceIte, keys, List.map_cons, List.mem_cons, apart, false_or]
      by_cases known : key ∈ List.map (·.1) rest
      · simp only [known, ↓reduceIte] at ih ⊢
        rw [ih]
      · simp only [known, ↓reduceIte] at ih ⊢
        rw [ih]
        rfl

end Table

namespace Datum

/-- The word for the kind of a datum. -/
def kind : Datum → String
  | .null => "NoneType"
  | .bool _ => "bool"
  | .integer _ => "int"
  | .real _ => "float"
  | .text _ => "str"
  | .bytes _ => "bytes"
  | .list _ => "list"
  | .table _ => "dict"

/-- Whether a datum counts as present: neither absent, false, zero nor empty. -/
def isPresent : Datum → Bool
  | .null => false
  | .bool value => value
  | .integer value => value ≠ 0
  | .real value => !value.isZero
  | .text value => value ≠ ""
  | .bytes value => !value.isEmpty
  | .list items => !items.isEmpty
  | .table entries => !entries.isEmpty

/-- The text of an optional text datum. -/
def text? : Datum → Option String
  | .text value => some value
  | _ => none

/-- An optional text as a datum. -/
def ofText? (value : Option String) : Datum := (value.map .text).getD .null

end Datum

/-- The literal of a key, however long an integer is. -/
def Table.Key.literal : Table.Key → String
  | .null => "None"
  | .bool value => if value then "True" else "False"
  | .integer value => toString value
  | .real value => value.text
  | .text value => Text.quoted value
  | .bytes value => Text.quotedBytes value

/-- A key may be written: it is no integer with too many digits. -/
def Table.Key.isWritable : Table.Key → Bool
  | .integer value => Text.isWritable value
  | _ => true

namespace Datum

mutual

/-- The literal of a datum, however long its integers are. -/
def literal : Datum → String
  | .null => Table.Key.null.literal
  | .bool value => (Table.Key.bool value).literal
  | .integer value => (Table.Key.integer value).literal
  | .real value => (Table.Key.real value).literal
  | .text value => (Table.Key.text value).literal
  | .bytes value => (Table.Key.bytes value).literal
  | .list items => "[" ++ ", ".intercalate (literals items) ++ "]"
  | .table entries => "\x7b" ++ ", ".intercalate (entryLiterals entries) ++ "\x7d"

/-- The literals of data in order. -/
def literals : List Datum → List String
  | [] => []
  | item :: rest => item.literal :: literals rest

/-- The literals of the entries of a table. -/
def entryLiterals : List (Table.Key × Datum) → List String
  | [] => []
  | (key, value) :: rest => (key.literal ++ ": " ++ value.literal) :: entryLiterals rest

end

mutual

/-- A datum may be written: no integer in it has too many digits. A limit of recursion for data that
is nested very deep is left out. -/
def isWritable : Datum → Bool
  | .integer value => Text.isWritable value
  | .list items => areWritable items
  | .table entries => entriesWritable entries
  | _ => true

/-- All of some data may be written. -/
def areWritable : List Datum → Bool
  | [] => true
  | item :: rest => item.isWritable && areWritable rest

/-- All entries of a table may be written. -/
def entriesWritable : List (Table.Key × Datum) → Bool
  | [] => true
  | (key, value) :: rest => key.isWritable && value.isWritable && entriesWritable rest

end

/-- A datum as it is shown: a text as it is, all else as a literal. One that may not be written is
refused. -/
def shown (datum : Datum) : Except Fault String :=
  if datum.isWritable then
    match datum with
    | .text value => .ok value
    | other => .ok other.literal
  else .error (.integer .unwritable)

/-- A datum is shown exactly when it may be written. -/
theorem exists_shown_iff {datum : Datum} :
    (∃ text, datum.shown = .ok text) ↔ datum.isWritable = true := by
  unfold shown
  by_cases writable : datum.isWritable = true
  · rw [if_pos writable]
    refine iff_of_true ?_ writable
    split
    · exact ⟨_, rfl⟩
    · exact ⟨_, rfl⟩
  · rw [if_neg writable]
    refine iff_of_false ?_ writable
    rintro ⟨_, ⟨⟩⟩

end Datum
end EvalDesk
