import EvalDesk.Datum.JsonText
import EvalDesk.Proofs.Datum.Merging
import EvalDesk.Proofs.Datum.Reading
import EvalDesk.Proofs.Datum.Reals
import EvalDesk.Proofs.Text.Utf8

/-!
# What is written is read back

Data that is proper is written as the grammar of data says, without a carriage return, so reading
the text gives the data again. Proper data has no bytes, no integer with too many digits, and in its
tables texts as keys, each once; and all data that is read is proper.
-/
namespace EvalDesk

/-- A key is a text. -/
def Table.Key.IsText (key : Table.Key) : Prop := ∃ name, key = .text name

/-- A text is a key of this kind. -/
theorem Table.Key.isText (name : String) : Table.Key.IsText name := ⟨name, rfl⟩

namespace Json

open Text

/-- Data that can be written and read. -/
inductive Proper : Datum → Prop
  /-- The absent datum. -/
  | null : Proper .null
  /-- A truth value. -/
  | bool (value : Bool) : Proper (.bool value)
  /-- An integer that is not too long. -/
  | integer {value : Int} (short : (Nat.toDigits 10 value.natAbs).length ≤ maximalDigits) :
      Proper (.integer value)
  /-- A number of 64 bits. -/
  | real {value : Binary64} (isProper : value.IsProper) : Proper (.real value)
  /-- A text. -/
  | text (value : String) : Proper (.text value)
  /-- A list of such data. -/
  | list {items : List Datum} (all : ∀ item ∈ items, Proper item) : Proper (.list items)
  /-- A table of such data with texts as keys, each once. -/
  | table {entries : Table} (once : entries.keys.Nodup) (texts : ∀ entry ∈ entries, entry.1.IsText)
      (all : ∀ entry ∈ entries, Proper entry.2) : Proper (.table entries)

/-! ## Strings -/

/-- The number of hexadecimal digits with another one behind them. -/
theorem hexNumber?_append {digits : List Char} {number : Nat}
    (before : hexNumber? digits = some number) {value : Nat} (small : value < 16) :
    hexNumber? (digits ++ [hexDigit value]) = some (number * 16 + value) := by
  simp only [hexNumber?] at before ⊢
  rw [List.foldlM_append, before]
  simp [hexValue?_hexDigit small]

/-- Four digits write a unit. -/
theorem writesUnit_hexText {unit : Nat} (small : unit < 0x10000) :
    WritesUnit (hexText 4 unit) unit := by
  have read : ∀ width number : Nat, number < 16 ^ width →
      (hexText width number).length = width ∧ hexNumber? (hexText width number) = some number := by
    intro width
    induction width with
    | zero =>
      intro number nothing
      rw [Nat.lt_one_iff.mp nothing]
      exact ⟨rfl, rfl⟩
    | succ width ih =>
      intro number bound
      obtain ⟨length, value⟩ := ih (number / 16) (by rw [Nat.pow_succ] at bound; omega)
      constructor
      · rw [hexText, List.length_append, length]
        rfl
      · rw [hexText, hexNumber?_append value (Nat.mod_lt _ (by decide))]
        congr 1
        omega
  obtain ⟨four, value⟩ := read 4 unit small
  exact ⟨four, value⟩

/-- A character of one unit is written by the escape of this unit. -/
theorem inside_unitEscape {c : Char} (small : c.toNat < 0x10000) {written chars : List Char}
    (rest : Inside written chars) : Inside (unitEscape c.toNat ++ written) (c :: chars) := by
  have gap := Utf8.toNat_cases c
  have high : isHighUnit c.toNat = false := by
    simp only [isHighUnit, Bool.and_eq_false_iff, decide_eq_false_iff_not]
    omega
  have low : isLowUnit c.toNat = false := by
    simp only [isLowUnit, Bool.and_eq_false_iff, decide_eq_false_iff_not]
    omega
  have own : unitChar c.toNat = c := by
    rw [unitChar, high, low]
    exact Char.ofNat_toNat c
  have escapes : Escapes (hexText 4 c.toNat) (unitChar c.toNat) written :=
    .single (writesUnit_hexText small) fun isHigh => by rw [high] at isHigh; contradiction
  rw [own] at escapes
  exact .units escapes rest

/-- A character beyond the first plane is written by the escapes of its two units. -/
theorem inside_unitEscapes {c : Char} (large : 0x10000 ≤ c.toNat) {written chars : List Char}
    (rest : Inside written chars) :
    Inside (unitEscape (0xd800 + (c.toNat - 0x10000) / 0x400) ++
      unitEscape (0xdc00 + (c.toNat - 0x10000) % 0x400) ++ written) (c :: chars) := by
  have bound := Utf8.toNat_cases c
  generalize first : 0xd800 + (c.toNat - 0x10000) / 0x400 = high
  generalize second : 0xdc00 + (c.toNat - 0x10000) % 0x400 = low
  have isHigh : isHighUnit high = true := by
    simp only [isHighUnit, Bool.and_eq_true, decide_eq_true_eq]
    omega
  have isLow : isLowUnit low = true := by
    simp only [isLowUnit, Bool.and_eq_true, decide_eq_true_eq]
    omega
  have own : Char.ofNat (0x10000 + (high - 0xd800) * 0x400 + (low - 0xdc00)) = c := by
    rw [show 0x10000 + (high - 0xd800) * 0x400 + (low - 0xdc00) = c.toNat by omega]
    exact Char.ofNat_toNat c
  have escapes : Escapes (hexText 4 high ++ '\\' :: 'u' :: hexText 4 low)
      (Char.ofNat (0x10000 + (high - 0xd800) * 0x400 + (low - 0xdc00))) written :=
    .pair (writesUnit_hexText (by omega)) isHigh (writesUnit_hexText (by omega)) isLow
  rw [own] at escapes
  have inside := Inside.units escapes rest
  simpa [unitEscape] using inside

/-- A character is written inside a string as something that stands for it. -/
theorem inside_escape_append (c : Char) {written chars : List Char} (rest : Inside written chars) :
    Inside (escape c ++ written) (c :: chars) := by
  unfold escape
  split
  · rename_i marked
    rw [Bool.or_eq_true, decide_eq_true_eq, decide_eq_true_eq] at marked
    rcases marked with rfl | rfl
    · exact .letter rfl rest
    · exact .letter rfl rest
  · rename_i unmarked
    rw [Bool.or_eq_true, decide_eq_true_eq, decide_eq_true_eq, not_or] at unmarked
    split_ifs with feed carriage tab back form visible small
    · exact feed ▸ .letter rfl rest
    · exact carriage ▸ .letter rfl rest
    · exact tab ▸ .letter rfl rest
    · exact back ▸ .letter rfl rest
    · exact form ▸ .letter rfl rest
    · rw [Bool.and_eq_true, decide_eq_true_eq, decide_eq_true_eq] at visible
      exact .plain visible.1 unmarked.1 unmarked.2 rest
    · exact inside_unitEscape small rest
    · exact inside_unitEscapes (Nat.le_of_not_lt small) rest

/-- Characters are written inside a string as something that stands for them. -/
theorem inside_flatMap_escape (chars : List Char) : Inside (chars.flatMap escape) chars := by
  induction chars with
  | nil => exact .nil
  | cons c rest ih => exact inside_escape_append c ih

/-! ## Carriage returns -/

/-- No carriage return stands inside a string. -/
theorem Inside.clear {inside chars : List Char} (written : Inside inside chars) :
    '\r' ∉ inside := by
  have noDigit : hexValue? '\r' = none := by decide
  induction written with
  | nil => exact List.not_mem_nil
  | plain visible _ _ _ ih =>
    refine List.not_mem_cons_of_ne_of_not_mem ?_ ih
    rintro rfl
    exact absurd visible (by decide)
  | letter escape _ ih =>
    refine List.not_mem_cons_of_ne_of_not_mem (by decide)
      (List.not_mem_cons_of_ne_of_not_mem ?_ ih)
    rintro rfl
    contradiction
  | units escapes _ ih =>
    refine List.not_mem_cons_of_ne_of_not_mem (by decide)
      (List.not_mem_cons_of_ne_of_not_mem (by decide) ?_)
    rw [List.mem_append, not_or]
    refine ⟨?_, ih⟩
    cases escapes with
    | single unit => exact notMem_of_writesUnit unit noDigit
    | pair first _ second =>
      simp [notMem_of_writesUnit first noDigit, notMem_of_writesUnit second noDigit]

/-- No carriage return is a digit. -/
theorem Digits.clear {digits : List Char} (isDigits : Digits digits) : '\r' ∉ digits :=
  fun member => absurd (isDigits.decimal _ member) (by decide)

/-- No carriage return stands in a whole part. -/
theorem Whole.clear {whole : List Char} (isWhole : Whole whole) : '\r' ∉ whole := by
  rcases isWhole with rfl | ⟨isDigits, -⟩
  · decide
  · exact isDigits.clear

/-- No carriage return stands in an exponent. -/
theorem Power.clear {written : List Char} {power : Int} (isPower : Power written power) :
    '\r' ∉ written := by
  obtain ⟨marked, signed, isDigits⟩ := isPower
  have sign : ∀ sign ∈ exponentSigns, '\r' ∉ sign.1 := by decide
  have other : ∀ letter : Char, letter = 'e' ∨ letter = 'E' → '\r' ≠ letter := by
    rintro letter (rfl | rfl) <;> decide
  rw [List.mem_cons, List.mem_append, not_or, not_or]
  exact ⟨other _ marked, sign _ signed, isDigits.clear⟩

/-- No carriage return stands in a number. -/
theorem Unsigned.clear {negative : Bool} {written : List Char} {value : Datum}
    (isNumber : Unsigned negative written value) : '\r' ∉ minus negative ++ written := by
  have sign : '\r' ∉ minus negative := by cases negative <;> decide
  rw [List.mem_append, not_or]
  refine ⟨sign, ?_⟩
  cases isNumber with
  | integer isWhole => exact isWhole.clear
  | decimals isWhole isDigits => simp [isWhole.clear, isDigits.clear]
  | power isWhole isPower => simp [isWhole.clear, isPower.clear]
  | both isWhole isDigits isPower => simp [isWhole.clear, isDigits.clear, isPower.clear]

/-! ## Data -/

/-- A part of data as it is written, without a carriage return. -/
structure WrittenClear (part : Part) (written : List Char) : Prop where
  /-- It is written. -/
  isWritten : Written part written
  /-- It has no carriage return. -/
  clear : '\r' ∉ written

/-- A constant has no carriage return. -/
theorem writtenClear_constant {name : String} {value : Datum}
    (listed : (name, value) ∈ constants) : WrittenClear (.datum value) name.toList := by
  refine ⟨.constant listed, ?_⟩
  simp only [constants, List.mem_cons, Prod.mk.injEq, List.not_mem_nil, or_false] at listed
  rcases listed with ⟨rfl, -⟩ | ⟨rfl, -⟩ | ⟨rfl, -⟩ | ⟨rfl, -⟩ | ⟨rfl, -⟩ | ⟨rfl, -⟩ <;> decide

/-- A number has no carriage return. -/
theorem writtenClear_number {negative : Bool} {written : List Char} {value : Datum}
    (isNumber : Unsigned negative written value) :
    WrittenClear (.datum value) (minus negative ++ written) := ⟨.number isNumber, isNumber.clear⟩

/-- The text of an integer is its sign and the numeral of its size. -/
theorem toString_toList (value : Int) :
    (toString value).toList = minus (decide (value < 0)) ++ Nat.toDigits 10 value.natAbs := by
  cases value with
  | ofNat number =>
    have positive : ¬Int.ofNat number < 0 := Int.not_lt.mpr (Int.natCast_nonneg number)
    rw [decide_eq_false positive]
    exact String.toList_ofList
  | negSucc number =>
    rw [decide_eq_true (Int.negSucc_lt_zero number)]
    exact String.toList_append.trans (congrArg _ String.toList_ofList)

/-- How an integer is written. -/
theorem writtenClear_integer {value : Int}
    (short : (Nat.toDigits 10 value.natAbs).length ≤ maximalDigits) :
    WrittenClear (.datum (.integer value)) (toString value).toList := by
  have isNumber :=
    @Unsigned.integer (decide (value < 0)) _ (whole_toDigits value.natAbs) short
  have own : (if decide (value < 0) = true then -(value.natAbs : Int) else value.natAbs) =
      value := by
    simp only [decide_eq_true_eq]
    split <;> omega
  rw [digitsValue_toDigits, own] at isNumber
  rw [toString_toList]
  exact writtenClear_number isNumber

/-- How a floating-point number is written. -/
theorem writtenClear_real {value : Binary64} (isProper : value.IsProper) :
    WrittenClear (.datum (.real value)) (realText value).toList := by
  cases value with
  | finite negative significand exponent =>
    obtain ⟨written, text, isNumber⟩ := Binary64.unsigned_text negative isProper
    show WrittenClear _ (Binary64.text (.finite negative significand exponent)).toList
    rw [text]
    exact writtenClear_number isNumber
  | infinite negative =>
    cases negative with
    | false =>
      show WrittenClear _ "Infinity".toList
      exact writtenClear_constant (by simp [constants])
    | true =>
      show WrittenClear _ "-Infinity".toList
      exact writtenClear_constant (by simp [constants])
  | undefined =>
    show WrittenClear _ "NaN".toList
    exact writtenClear_constant (by simp [constants])

/-- How a text is written. -/
theorem writtenClear_text (value : String) :
    WrittenClear (.datum (.text value)) (stringText value).toList := by
  have inside := inside_flatMap_escape value.toList
  have text : (stringText value).toList = '"' :: (value.toList.flatMap escape ++ ['"']) := by
    simp [stringText]
  rw [text]
  refine ⟨?_, by simp [inside.clear]⟩
  have written := Written.text inside
  rwa [String.ofList_toList] at written

/-- How a key is written. -/
theorem key_stringText (key : String) : Key key ((stringText key).toList ++ ": ".toList) := by
  have inside := inside_flatMap_escape key.toList
  have isKey := Key.intro inside (List.forall_mem_nil _)
    (List.forall_mem_singleton.mpr rfl : Blanks [' '])
  rw [String.ofList_toList] at isKey
  simpa [stringText] using isKey

/-- The start of a line is blank. -/
theorem blanks_lineStart (level : Nat) : Blanks (lineStart level).toList := by
  intro c member
  simp only [lineStart, String.toList_append, String.toList_ofList] at member
  rcases List.mem_append.mp member with feed | blank
  · rw [List.mem_singleton.mp feed]
    rfl
  · rw [List.eq_of_mem_replicate blank]
    rfl

/-- The start of a line has no carriage return. -/
theorem clear_lineStart (level : Nat) : '\r' ∉ (lineStart level).toList := by
  simp [lineStart]

/-- How the items of a list are written, each at the start of a line, with the start of a line
behind them. -/
theorem exists_items {level outer : Nat} {values : List Datum} (some_item : values ≠ [])
    (each : ∀ value ∈ values, WrittenClear (.datum value) (textAt level value).toList) :
    ∃ written, WrittenClear (.items values) written ∧
      (",".intercalate (itemTexts level values) ++ lineStart outer).toList =
        (lineStart level).toList ++ written := by
  induction values with
  | nil => contradiction
  | cons value rest ih =>
    obtain ⟨own, later⟩ := List.forall_mem_cons.mp each
    cases rest with
    | nil =>
      refine ⟨(textAt level value).toList ++ (lineStart outer).toList,
        ⟨.lastItem own.isWritten (blanks_lineStart outer), ?_⟩, ?_⟩
      · simp [own.clear, clear_lineStart]
      · simp [itemTexts]
    | cons next more =>
      obtain ⟨others, ⟨isWritten, clear⟩, text⟩ := ih (List.cons_ne_nil _ _) later
      refine ⟨(textAt level value).toList ++ ([] ++ ',' :: ((lineStart level).toList ++ others)),
        ⟨.item own.isWritten (List.forall_mem_nil _) (blanks_lineStart level) isWritten, ?_⟩, ?_⟩
      · simp [own.clear, clear_lineStart, clear]
      · rw [← text]
        simp [itemTexts]

/-- How the entries of a table are written, each at the start of a line, with the start of a line
behind them. -/
theorem exists_entries {level outer : Nat} {values : Table} (some_entry : values ≠ [])
    (texts : ∀ entry ∈ values, entry.1.IsText)
    (each : ∀ entry ∈ values, WrittenClear (.datum entry.2) (textAt level entry.2).toList) :
    ∃ written, WrittenClear (.entries values) written ∧
      (",".intercalate (entryTexts level values) ++ lineStart outer).toList =
        (lineStart level).toList ++ written := by
  induction values with
  | nil => contradiction
  | cons entry rest ih =>
    obtain ⟨_, value⟩ := entry
    obtain ⟨⟨key, rfl⟩, names⟩ := List.forall_mem_cons.mp texts
    obtain ⟨own, later⟩ := List.forall_mem_cons.mp each
    have isKey := key_stringText key
    have clearKey := (writtenClear_text key).clear
    cases rest with
    | nil =>
      refine ⟨(stringText key).toList ++ ": ".toList ++
          ((textAt level value).toList ++ (lineStart outer).toList),
        ⟨.lastEntry isKey own.isWritten (blanks_lineStart outer), ?_⟩, ?_⟩
      · simp [clearKey, own.clear, clear_lineStart]
      · simp [entryTexts, keyText]
    | cons next more =>
      obtain ⟨others, ⟨isWritten, clear⟩, text⟩ := ih (List.cons_ne_nil _ _) names later
      refine ⟨(stringText key).toList ++ ": ".toList ++ ((textAt level value).toList ++
          ([] ++ ',' :: ((lineStart level).toList ++ others))),
        ⟨.entry isKey own.isWritten (List.forall_mem_nil _) (blanks_lineStart level) isWritten, ?_⟩,
        ?_⟩
      · simp [clearKey, own.clear, clear_lineStart, clear]
      · rw [← text]
        simp [entryTexts, keyText]

/-- The text of a list with items. -/
theorem textAt_list {level : Nat} {items : List Datum} (some_item : items ≠ []) :
    textAt level (.list items) =
      "[" ++ (",".intercalate (itemTexts (level + 1) items) ++ lineStart level) ++ "]" := by
  rw [textAt]
  · simp only [String.append_assoc]
  · exact some_item

/-- The text of a table with entries. -/
theorem textAt_table {level : Nat} {entries : Table} (some_entry : entries ≠ []) :
    textAt level (.table entries) =
      "\x7b" ++ (",".intercalate (entryTexts (level + 1) entries) ++ lineStart level) ++
        "\x7d" := by
  rw [textAt]
  · simp only [String.append_assoc]
  · exact some_entry

/-- A list is written as one where each of its items is. -/
theorem writtenClear_list {level : Nat} {items : List Datum}
    (each : ∀ item ∈ items, WrittenClear (.datum item) (textAt (level + 1) item).toList) :
    WrittenClear (.datum (.list items)) (textAt level (.list items)).toList := by
  by_cases empty : items = []
  · subst empty
    rw [textAt]
    exact ⟨.noItems (List.forall_mem_nil _), by decide⟩
  · obtain ⟨written, ⟨isWritten, clear⟩, text⟩ := @exists_items (level + 1) level _ empty each
    have parts : (textAt level (.list items)).toList =
        '[' :: ((lineStart (level + 1)).toList ++ (written ++ [']'])) := by
      rw [textAt_list empty, String.toList_append, String.toList_append, text]
      simp
    rw [parts]
    exact ⟨.list (blanks_lineStart _) isWritten, by simp [clear_lineStart, clear]⟩

/-- A table that has each key once, and texts as keys, is written as one where each of its values
is. -/
theorem writtenClear_table {level : Nat} {entries : Table} (once : entries.keys.Nodup)
    (texts : ∀ entry ∈ entries, entry.1.IsText)
    (each : ∀ entry ∈ entries,
      WrittenClear (.datum entry.2) (textAt (level + 1) entry.2).toList) :
    WrittenClear (.datum (.table entries)) (textAt level (.table entries)).toList := by
  by_cases empty : entries = []
  · subst empty
    rw [textAt]
    exact ⟨.noEntries (List.forall_mem_nil _), by decide⟩
  · obtain ⟨written, ⟨isWritten, clear⟩, text⟩ :=
      @exists_entries (level + 1) level _ empty texts each
    have parts : (textAt level (.table entries)).toList =
        '\x7b' :: ((lineStart (level + 1)).toList ++ (written ++ ['\x7d'])) := by
      rw [textAt_table empty, String.toList_append, String.toList_append, text]
      simp
    have table := Written.table (blanks_lineStart (level + 1)) isWritten
    rw [@Table.merge_eq_of_prefix [] _ once List.nil_prefix] at table
    rw [parts]
    exact ⟨table, by simp [clear_lineStart, clear]⟩

/-- Proper data is written at every level as what it is. -/
theorem writtenClear_textAt {value : Datum} (proper : Proper value) (level : Nat) :
    WrittenClear (.datum value) (textAt level value).toList := by
  induction proper generalizing level with
  | null =>
    rw [textAt]
    exact writtenClear_constant (by simp [constants])
  | bool value =>
    rw [textAt]
    cases value with
    | false => exact writtenClear_constant (by simp [constants])
    | true => exact writtenClear_constant (by simp [constants])
  | integer short =>
    rw [textAt]
    exact writtenClear_integer short
  | real isProper =>
    rw [textAt]
    exact writtenClear_real isProper
  | text value =>
    rw [textAt]
    exact writtenClear_text value
  | list _ ih => exact writtenClear_list fun item member => ih item member (level + 1)
  | table once texts _ ih =>
    exact writtenClear_table once texts fun entry member => ih entry member (level + 1)

/-- The text of proper data holds it. -/
theorem holds_write {value : Datum} (proper : Proper value) : Holds (write value) value :=
  ⟨[], _, [], List.forall_mem_nil _, (writtenClear_textAt proper 0).isWritten,
    List.forall_mem_nil _, (List.append_nil _).symm⟩

/-- Proper data that is written is read back. -/
theorem read_write {value : Datum} (proper : Proper value) : read (write value) = .ok value :=
  read_eq_ok_iff.mpr (holds_write proper)

/-! ## Data that is read -/

/-- A number that is read is proper. -/
theorem proper_of_unsigned {negative : Bool} {written : List Char} {value : Datum}
    (isNumber : Unsigned negative written value) : Proper value := by
  cases isNumber with
  | integer isWhole short =>
    have size : (if negative = true then -(digitsValue written : Int)
        else digitsValue written).natAbs = digitsValue written := by split <;> omega
    apply Proper.integer
    rw [size]
    exact (length_toDigits_digitsValue_le isWhole.digits).trans short
  | decimals => exact .real (Binary64.isProper_ofDecimal _ _ _)
  | power => exact .real (Binary64.isProper_ofDecimal _ _ _)
  | both => exact .real (Binary64.isProper_ofDecimal _ _ _)

/-- A constant is proper. -/
theorem proper_of_constant {name : String} {value : Datum} (listed : (name, value) ∈ constants) :
    Proper value := by
  simp only [constants, List.mem_cons, Prod.mk.injEq, List.not_mem_nil, or_false] at listed
  rcases listed with ⟨-, rfl⟩ | ⟨-, rfl⟩ | ⟨-, rfl⟩ | ⟨-, rfl⟩ | ⟨-, rfl⟩ | ⟨-, rfl⟩
  · exact .null
  · exact .bool true
  · exact .bool false
  · exact .real trivial
  · exact .real trivial
  · exact .real trivial

/-- A part of data is proper. -/
def Part.IsProper : Part → Prop
  | .datum value => Proper value
  | .items values => ∀ value ∈ values, Proper value
  | .entries values => (∀ entry ∈ values, entry.1.IsText) ∧ ∀ entry ∈ values, Proper entry.2

/-- What is written is proper. -/
theorem proper_of_written {part : Part} {written : List Char} (isWritten : Written part written) :
    part.IsProper := by
  induction isWritten with
  | constant listed => exact proper_of_constant listed
  | number isNumber => exact proper_of_unsigned isNumber
  | text => exact .text _
  | noItems => exact .list (List.forall_mem_nil _)
  | list _ _ ih => exact .list ih
  | noEntries => exact .table List.nodup_nil (List.forall_mem_nil _) (List.forall_mem_nil _)
  | table _ _ ih =>
    have none_twice : (Table.keys []).Nodup := List.nodup_nil
    exact .table (Table.nodup_keys_merge none_twice _)
      (Table.forall_mem_merge (List.forall_mem_nil _) ih.1)
      (Table.forall_mem_merge (List.forall_mem_nil _) ih.2)
  | lastItem _ _ ih => exact List.forall_mem_singleton.mpr ih
  | item _ _ _ _ ih others => exact List.forall_mem_cons.mpr ⟨ih, others⟩
  | lastEntry _ _ _ ih =>
    exact ⟨List.forall_mem_singleton.mpr (Table.Key.isText _), List.forall_mem_singleton.mpr ih⟩
  | entry _ _ _ _ _ ih others =>
    exact ⟨List.forall_mem_cons.mpr ⟨Table.Key.isText _, others.1⟩,
      List.forall_mem_cons.mpr ⟨ih, others.2⟩⟩

/-- Data that is read is proper. -/
theorem proper_of_holds {text : String} {value : Datum} (holds : Holds text value) :
    Proper value := by
  obtain ⟨_, _, _, -, isWritten, -, -⟩ := holds
  exact proper_of_written isWritten

end Json

end EvalDesk
