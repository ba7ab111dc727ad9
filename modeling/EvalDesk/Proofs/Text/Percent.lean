import EvalDesk.Proofs.Text.Utf8
import EvalDesk.Text.Percent
import Mathlib.Algebra.BigOperators.Group.List.Basic
import Mathlib.Data.List.SplitBy

/-!
# Texts in addresses

How an address writes a text: byte by byte, a few of them plainly and every other as a percent sign
and two digits. Any text is read back from what is written so. Reading takes the whole for one run
of ASCII characters, so that the bytes of a character are never torn apart. A text that is not read
back but taken as it stands is the right one exactly when all its characters are written plainly.
-/
namespace EvalDesk.Text.Percent

/-! ## Writing -/

/-- A character that is written plainly. -/
def isKept (c : Char) : Bool := c.isAlphanum || ['-', '.', '_', '~', '/'].contains c

/-- The digit of a value below sixteen, in upper case. -/
def upperDigit (value : Nat) : Char := (hexDigit value).toUpper

/-- A byte as it is written. -/
def encodeByte (byte : UInt8) : List Char :=
  if isKept (Char.ofNat byte.toNat) then [Char.ofNat byte.toNat]
  else ['%', upperDigit (byte.toNat / 16), upperDigit (byte.toNat % 16)]

/-- A text as it is written. -/
def encode (text : String) : List Char := (Utf8.encode text).flatMap encodeByte

/-- What is written consists of ASCII characters, and marks of addresses and of literals are none
of them. -/
theorem plain_of_mem_encode {text : String} {c : Char} (member : c ∈ encode text) :
    isAscii c = true ∧ c ∉ ['!', '"', '\\'] := by
  have all : ∀ value : Fin 256, (encodeByte (UInt8.ofNat value)).all (fun c =>
      isAscii c && decide (c ∉ ['!', '"', '\\'])) = true := by decide +kernel
  obtain ⟨byte, -, written⟩ := List.mem_flatMap.mp member
  have plain := all ⟨byte.toNat, byte.toNat_lt⟩
  rw [UInt8.ofNat_toNat] at plain
  obtain ⟨ascii, other⟩ := Bool.and_eq_true_iff.mp (List.all_eq_true.mp plain c written)
  exact ⟨ascii, of_decide_eq_true other⟩

/-! ## Reading -/

/-- An upper-case digit is read as its value. -/
theorem hexValue?_upperDigit {value : Nat} (small : value < 16) :
    hexValue? (upperDigit value) = some value := by
  have all : ∀ value : Fin 16, hexValue? (upperDigit value) = some value.val := by decide
  exact all ⟨value, small⟩

/-- A byte that was written is read, whatever stands behind it. -/
theorem bytesOf_encodeByte (byte : UInt8) (rest : List Char) :
    bytesOf (encodeByte byte ++ rest) = byte :: bytesOf rest := by
  have bound : byte.toNat < 256 := byte.toNat_lt
  rw [encodeByte]
  split
  · rename_i kept
    have plain : Char.ofNat byte.toNat ≠ '%' := by
      intro same
      rw [same] at kept
      contradiction
    have number : (Char.ofNat byte.toNat).toNat = byte.toNat :=
      Utf8.toNat_ofNat_of_lt (by omega)
    rw [List.singleton_append, bytesOf, number]
    · exact congrArg (· :: bytesOf rest) UInt8.ofNat_toNat
    · intro high low more same
      exact absurd same plain
  · have value : hexNumber? [upperDigit (byte.toNat / 16), upperDigit (byte.toNat % 16)] =
        some byte.toNat := by
      simp only [hexNumber?, List.foldlM_cons, List.foldlM_nil,
        hexValue?_upperDigit (show byte.toNat / 16 < 16 by omega),
        hexValue?_upperDigit (show byte.toNat % 16 < 16 by omega), Option.map_some,
        Option.bind_eq_bind, Option.bind_some, Option.pure_def, Option.some.injEq]
      omega
    rw [List.cons_append, List.cons_append, List.singleton_append, bytesOf, value]
    exact congrArg (· :: bytesOf rest) UInt8.ofNat_toNat

/-- The bytes that were written are read. -/
theorem bytesOf_flatMap (bytes : List UInt8) : bytesOf (bytes.flatMap encodeByte) = bytes := by
  induction bytes with
  | nil => rw [List.flatMap_nil, bytesOf]
  | cons byte rest ih => rw [List.flatMap_cons, bytesOf_encodeByte, ih]

end EvalDesk.Text.Percent

namespace EvalDesk.Text.Utf8

/-- The lenient reader reads the bytes of characters as these. -/
theorem decodeLenientChars_flatMap (chars : List Char) :
    decodeLenientChars (chars.flatMap String.utf8EncodeChar) = chars := by
  induction chars with
  | nil => rw [List.flatMap_nil, decodeLenientChars]
  | cons c more ih =>
    have writes := writes_utf8EncodeChar c
    rw [List.flatMap_cons]
    cases bytes : String.utf8EncodeChar c with
    | nil =>
      rw [bytes] at writes
      cases writes
    | cons first tail =>
      rw [bytes] at writes
      rw [List.cons_append, decodeLenientChars, front_of_writes writes]
      exact congrArg (c :: ·) (by rw [List.drop_left, ih])

end EvalDesk.Text.Utf8

namespace EvalDesk.Text.Percent

/-- A text that was written is read back. -/
theorem decode_encode (text : String) : decode (encode text) = text.toList := by
  have ascii : ∀ c ∈ encode text, isAscii c = true := fun _ member => (plain_of_mem_encode member).1
  have bytes : Utf8.decodeLenientChars (bytesOf (encode text)) = text.toList := by
    rw [encode, bytesOf_flatMap, Utf8.encode_eq, Utf8.decodeLenientChars_flatMap]
  by_cases empty : encode text = []
  · rw [← bytes, empty, bytesOf, Utf8.decodeLenientChars]
    rfl
  · have chain : (encode text).IsChain fun c next => (isAscii c == isAscii next) = true := by
      refine (List.pairwise_iff_getElem.mpr fun i j low high _ => ?_).isChain
      rw [ascii _ (List.getElem_mem low), ascii _ (List.getElem_mem high)]
      rfl
    rw [decode, List.splitBy_of_isChain empty chain, List.flatMap_singleton, decodeRun,
      if_pos (List.all_eq_true.mpr ascii), bytes]

/-! ## What is written plainly -/

/-- A character as it is written. -/
def encodeChar (c : Char) : List Char := (String.utf8EncodeChar c).flatMap encodeByte

/-- A text is written character by character. -/
theorem encode_eq (text : String) : encode text = text.toList.flatMap encodeChar := by
  rw [encode, Utf8.encode_eq, List.flatMap_assoc]
  rfl

/-- Kept characters are ASCII characters. -/
theorem toNat_lt_of_isKept {c : Char} (kept : isKept c = true) : c.toNat < 0x80 := by
  rcases Bool.or_eq_true_iff.mp kept with plain | mark
  · have below (limit : Char) (small : limit.val.toNat < 0x80) (high : c.val ≤ limit.val) :
        c.toNat < 0x80 := Nat.lt_of_le_of_lt (UInt32.le_iff_toNat_le.mp high) small
    rcases Bool.or_eq_true_iff.mp plain with letter | digit
    · rcases Bool.or_eq_true_iff.mp letter with upper | lower
      · exact below 'Z' (by decide) (of_decide_eq_true upper).2
      · exact below 'z' (by decide) (of_decide_eq_true (Bool.and_eq_true_iff.mp lower).2)
    · exact below '9' (by decide) (of_decide_eq_true (Bool.and_eq_true_iff.mp digit).2)
  · have all : ['-', '.', '_', '~', '/'].all (fun c => decide (c.toNat < 0x80)) = true := by decide
    exact of_decide_eq_true (List.all_eq_true.mp all c (List.contains_iff_mem.mp mark))

/-- A kept character is written plainly. -/
theorem encodeChar_of_isKept {c : Char} (kept : isKept c = true) : encodeChar c = [c] := by
  have small := toNat_lt_of_isKept kept
  have byte : (UInt8.ofNat c.toNat).toNat = c.toNat := Utf8.byte_toNat (by omega)
  rw [encodeChar, Utf8.utf8EncodeChar_eq rfl, if_pos (by omega), List.flatMap_singleton, encodeByte,
    byte, Char.ofNat_toNat, if_pos kept]

/-- What takes at least one place each takes at least as many places together. -/
theorem length_le_length_flatMap {α : Type} {write : α → List Char} (items : List α)
    (filled : ∀ item, 0 < (write item).length) :
    items.length ≤ (items.flatMap write).length := by
  have each : ∀ places ∈ items.map fun item => (write item).length, 1 ≤ places := by
    intro places member
    obtain ⟨item, -, rfl⟩ := List.mem_map.mp member
    exact filled item
  have total := List.length_le_sum_of_one_le _ each
  rwa [List.length_map, ← List.length_flatMap] at total

/-- Several bytes take more than one place. -/
theorem length_le_length_encodeByte (bytes : List UInt8) :
    bytes.length ≤ (bytes.flatMap encodeByte).length := by
  refine length_le_length_flatMap bytes fun byte => ?_
  rw [encodeByte]
  split <;> simp

/-- A character that is not kept takes more than one place. -/
theorem one_lt_length_encodeChar {c : Char} (odd : isKept c = false) :
    1 < (encodeChar c).length := by
  have writes := Utf8.writes_utf8EncodeChar c
  have places := length_le_length_encodeByte (String.utf8EncodeChar c)
  rw [encodeChar]
  generalize String.utf8EncodeChar c = bytes at writes places
  cases writes with
  | one lead => simp [encodeByte, odd]
  | two => exact places
  | three => exact Nat.lt_of_succ_lt places
  | four => exact Nat.lt_of_succ_lt (Nat.lt_of_succ_lt places)

/-- A character takes at least one place. -/
theorem length_encodeChar_pos (c : Char) : 0 < (encodeChar c).length := by
  cases kept : isKept c with
  | true => simp [encodeChar_of_isKept kept]
  | false => exact Nat.zero_lt_of_lt (one_lt_length_encodeChar kept)

/-- A text is written as it is exactly when all its characters are kept. -/
theorem encode_eq_toList_iff {text : String} :
    encode text = text.toList ↔ ∀ c ∈ text.toList, isKept c = true := by
  rw [encode_eq]
  induction text.toList with
  | nil => simp
  | cons c rest ih =>
    cases kept : isKept c with
    | true =>
      rw [List.flatMap_cons, encodeChar_of_isKept kept, List.singleton_append, List.cons.injEq, ih]
      simp [kept]
    | false =>
      have longer : (c :: rest).length < ((c :: rest).flatMap encodeChar).length := by
        have odd := one_lt_length_encodeChar kept
        have others := length_le_length_flatMap rest length_encodeChar_pos
        rw [List.flatMap_cons, List.length_append, List.length_cons]
        omega
      refine iff_of_false (fun same => ?_) fun all => ?_
      · rw [same] at longer
        exact Nat.lt_irrefl _ longer
      · exact absurd (all c (.head _)) (by simp [kept])

end EvalDesk.Text.Percent
