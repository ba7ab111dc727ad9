import EvalDesk.Proofs.Datum.Writing

/-!
# Data that can be shown

Whatever is shown of a datum tells all of it, so an integer that is too long to be written refuses
the whole, wherever it stands: in a list, in a table, or as a key. Data that is read from a text
has no such integer.
-/
namespace EvalDesk

/-- Data that can be shown. -/
inductive Datum.Writable : Datum → Prop
  /-- The absent datum. -/
  | null : Writable .null
  /-- A truth value. -/
  | bool (value : Bool) : Writable (.bool value)
  /-- An integer with no more digits than may be written. -/
  | integer {value : Int} (short : value.natAbs < 10 ^ Text.maximalDigits) :
      Writable (.integer value)
  /-- A floating-point number. -/
  | real (value : Binary64) : Writable (.real value)
  /-- A text. -/
  | text (value : String) : Writable (.text value)
  /-- Bytes. -/
  | bytes (value : List UInt8) : Writable (.bytes value)
  /-- A list of such data. -/
  | list {items : List Datum} (all : ∀ item ∈ items, Writable item) : Writable (.list items)
  /-- A table of such data under keys that can be shown too. -/
  | table {entries : Table} (keys : ∀ entry ∈ entries, Writable entry.1.datum)
      (all : ∀ entry ∈ entries, Writable entry.2) : Writable (.table entries)

/-- An integer may be written when it is less than the power of ten with one digit too many. -/
theorem Text.isWritable_iff {value : Int} :
    isWritable value = true ↔ value.natAbs < 10 ^ maximalDigits := by
  rw [isWritable, decide_eq_true_iff]
  exact Nat.length_toDigits_le_iff (by decide) (by decide)

/-- A key may be written when it can be shown as a datum. -/
theorem Table.Key.isWritable_iff {key : Table.Key} :
    key.isWritable = true ↔ key.datum.Writable := by
  cases key with
  | null => exact iff_of_true rfl .null
  | bool value => exact iff_of_true rfl (.bool value)
  | integer value =>
    refine Text.isWritable_iff.trans ⟨.integer, fun writable => ?_⟩
    cases writable with
    | integer short => exact short
  | real value => exact iff_of_true rfl (.real value)
  | text value => exact iff_of_true rfl (.text value)
  | bytes value => exact iff_of_true rfl (.bytes value)

namespace Datum

/-- Data in order may be written when each of it may. -/
theorem areWritable_iff {items : List Datum} :
    areWritable items = true ↔ ∀ item ∈ items, item.isWritable = true := by
  induction items with
  | nil => exact iff_of_true rfl (List.forall_mem_nil _)
  | cons item rest ih => rw [areWritable, Bool.and_eq_true, ih, List.forall_mem_cons]

/-- Entries may be written when each key and each datum may. -/
theorem entriesWritable_iff {entries : Table} :
    entriesWritable entries = true ↔
      ∀ entry ∈ entries, entry.1.isWritable = true ∧ entry.2.isWritable = true := by
  induction entries with
  | nil => exact iff_of_true rfl (List.forall_mem_nil _)
  | cons entry rest ih =>
    rw [entriesWritable, Bool.and_eq_true, Bool.and_eq_true, ih, List.forall_mem_cons]

/-- The datum of an entry is smaller than the entries. -/
theorem sizeOf_lt_entries {entries : Table} {entry : Table.Key × Datum} (member : entry ∈ entries) :
    sizeOf entry.2 < sizeOf entries := by
  have among : sizeOf entry < sizeOf entries := List.sizeOf_lt_of_mem member
  have parts : sizeOf entry = 1 + sizeOf entry.1 + sizeOf entry.2 := Prod.mk.sizeOf_spec _ _
  omega

/-- Data that may be written can be shown. -/
theorem writable_of_isWritable : (datum : Datum) → datum.isWritable = true → datum.Writable
  | .null, _ => .null
  | .bool value, _ => .bool value
  | .integer _, writable => .integer (Text.isWritable_iff.mp writable)
  | .real value, _ => .real value
  | .text value, _ => .text value
  | .bytes value, _ => .bytes value
  | .list _, writable => .list fun item member =>
    writable_of_isWritable item (areWritable_iff.mp writable item member)
  | .table _, writable =>
    have each := entriesWritable_iff.mp writable
    .table (fun entry member => Table.Key.isWritable_iff.mp (each entry member).1)
      fun entry member => writable_of_isWritable entry.2 (each entry member).2
decreasing_by
  · have smaller := List.sizeOf_lt_of_mem member
    simp only [list.sizeOf_spec]
    omega
  · have smaller := sizeOf_lt_entries member
    simp only [table.sizeOf_spec]
    omega

/-- Data may be written exactly when it can be shown. -/
theorem isWritable_iff {datum : Datum} : datum.isWritable = true ↔ datum.Writable := by
  refine ⟨writable_of_isWritable datum, fun writable => ?_⟩
  induction writable with
  | integer short => exact Text.isWritable_iff.mpr short
  | list _ ih => exact areWritable_iff.mpr ih
  | table keys _ _ ih =>
    exact entriesWritable_iff.mpr fun entry member =>
      ⟨Table.Key.isWritable_iff.mpr (keys entry member), ih entry member⟩
  | _ => rfl

/-- A datum is shown exactly when it can be. -/
theorem exists_shown_iff_writable {datum : Datum} :
    (∃ text, datum.shown = .ok text) ↔ datum.Writable :=
  exists_shown_iff.trans isWritable_iff

end Datum

/-- Data that is written to a file and read again can be shown. -/
theorem Json.Proper.isWritable {datum : Datum} (proper : Json.Proper datum) :
    datum.isWritable = true := by
  induction proper with
  | integer short => exact decide_eq_true short
  | list _ ih => exact Datum.areWritable_iff.mpr ih
  | table _ texts _ ih =>
    refine Datum.entriesWritable_iff.mpr fun entry member => ⟨?_, ih entry member⟩
    obtain ⟨name, key⟩ := texts entry member
    rw [key]
    rfl
  | _ => rfl

end EvalDesk
