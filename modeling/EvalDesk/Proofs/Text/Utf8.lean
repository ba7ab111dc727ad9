import EvalDesk.Text.Utf8
import Mathlib.Data.List.Basic

/-!
# Bytes and their text

The strict reader of bytes reads a text exactly from the bytes of this text. So the bytes that it
refuses are those of no text.
-/
namespace EvalDesk.Text.Utf8

/-! ## One character -/

/-- Bytes that write a character: one below 128, or a first byte and as many continuing ones as it
asks for. -/
inductive Writes : List UInt8 → Char → Prop
  /-- One byte. -/
  | one {first : UInt8} (lead : first.toNat < 0x80) : Writes [first] (Char.ofNat first.toNat)
  /-- Two bytes. -/
  | two {first second : UInt8} (low : 0xc2 ≤ first.toNat) (high : first.toNat < 0xe0)
      (next : continues second = true) :
      Writes [first, second] (Char.ofNat ((first.toNat - 0xc0) * 64 + payload second))
  /-- Three bytes. -/
  | three {first second third : UInt8} (low : 0xe0 ≤ first.toNat) (high : first.toNat < 0xf0)
      (next : mayFollow first.toNat second = true) (last : continues third = true) :
      Writes [first, second, third]
        (Char.ofNat (((first.toNat - 0xe0) * 64 + payload second) * 64 + payload third))
  /-- Four bytes. -/
  | four {first second third fourth : UInt8} (low : 0xf0 ≤ first.toNat)
      (high : first.toNat < 0xf5) (next : mayFollow first.toNat second = true)
      (later : continues third = true) (last : continues fourth = true) :
      Writes [first, second, third, fourth]
        (Char.ofNat ((((first.toNat - 0xf0) * 64 + payload second) * 64 + payload third) * 64
          + payload fourth))

/-- The bytes of a character are read whatever stands behind them. -/
theorem front_of_writes {first : UInt8} {more : List UInt8} {c : Char}
    (writes : Writes (first :: more) c) (rest : List UInt8) :
    front first (more ++ rest) = .ok (c, more.length) := by
  cases writes with
  | one lead => simp [front, lead]
  | two low high next =>
    have above : ¬first.toNat < 0x80 := by omega
    have lead : ¬first.toNat < 0xc2 := by omega
    simp [front, above, lead, high, next]
  | three low high next last =>
    have above : ¬first.toNat < 0x80 := by omega
    have lead : ¬first.toNat < 0xc2 := by omega
    have long : ¬first.toNat < 0xe0 := by omega
    simp [front, above, lead, long, high, next, last]
  | four low high next later last =>
    have above : ¬first.toNat < 0x80 := by omega
    have lead : ¬first.toNat < 0xc2 := by omega
    have long : ¬first.toNat < 0xe0 := by omega
    have longer : ¬first.toNat < 0xf0 := by omega
    simp [front, above, lead, long, longer, high, next, later, last]

/-- A character that was read is written by the bytes it takes. -/
theorem exists_writes_of_front {first : UInt8} {rest : List UInt8} {c : Char} {taken : Nat}
    (read : front first rest = .ok (c, taken)) :
    ∃ more, Writes (first :: more) c ∧ rest = more ++ rest.drop taken := by
  have result : ∀ {found : Char} {length : Nat},
      (.ok (found, length) : Except (Reason × Nat) (Char × Nat)) = .ok (c, taken) →
        found = c ∧ length = taken := by
    intro found length same
    rwa [Except.ok.injEq, Prod.mk.injEq] at same
  unfold front at read
  dsimp only at read
  split at read
  · rename_i lead
    obtain ⟨rfl, rfl⟩ := result read
    exact ⟨[], .one lead, rfl⟩
  split at read
  · cases read
  split at read
  · split at read
    · cases read
    · split at read
      · rename_i next
        obtain ⟨rfl, rfl⟩ := result read
        exact ⟨[_], .two (by omega) (by omega) next, rfl⟩
      · cases read
  split at read
  · split at read
    · cases read
    · split at read
      · cases read
      · rename_i next
        split at read
        · cases read
        · split at read
          · rename_i last
            obtain ⟨rfl, rfl⟩ := result read
            exact ⟨[_, _], .three (by omega) (by omega) (by simpa using next) last, rfl⟩
          · cases read
  split at read
  · split at read
    · cases read
    · split at read
      · cases read
      · rename_i next
        split at read
        · cases read
        · split at read
          · cases read
          · rename_i later
            split at read
            · cases read
            · split at read
              · rename_i last
                obtain ⟨rfl, rfl⟩ := result read
                exact ⟨[_, _, _], .four (by omega) (by omega) (by simpa using next)
                  (by simpa using later) last, rfl⟩
              · cases read
  · cases read

/-- The bounds of a second byte. -/
theorem mayFollow_iff {first : Nat} {second : UInt8} :
    mayFollow first second = true ↔ 0x80 ≤ second.toNat ∧ second.toNat < 0xc0 ∧
      (first = 0xe0 → 0xa0 ≤ second.toNat) ∧ (first = 0xed → second.toNat < 0xa0) ∧
      (first = 0xf0 → 0x90 ≤ second.toNat) ∧ (first = 0xf4 → second.toNat < 0x90) := by
  unfold mayFollow secondRange
  split_ifs <;> simp only [Bool.and_eq_true, decide_eq_true_eq] <;> omega

/-- The bounds of a continuing byte. -/
theorem continues_iff {byte : UInt8} :
    continues byte = true ↔ 0x80 ≤ byte.toNat ∧ byte.toNat < 0xc0 := by
  simp [continues]

/-- The code points of characters leave a gap. -/
theorem toNat_cases (c : Char) : c.toNat < 0xd800 ∨ 0xdfff < c.toNat ∧ c.toNat < 0x110000 := by
  simpa [UInt32.isValidChar, Nat.isValidChar] using c.valid

/-- The number of a character that is written by its number. -/
theorem toNat_ofNat_of_lt {point : Nat}
    (valid : point < 0xd800 ∨ 0xdfff < point ∧ point < 0x110000) :
    (Char.ofNat point).toNat = point := by
  rw [Char.ofNat, dif_pos valid]
  rfl

/-- The number of a byte that is made from its number. -/
theorem byte_toNat {number : Nat} (small : number < 256) : (UInt8.ofNat number).toNat = number := by
  rw [UInt8.toNat_ofNat', Nat.mod_eq_of_lt small]

/-- A byte is made from its number. -/
theorem byte_ofNat (byte : UInt8) {number : Nat} (same : number = byte.toNat) :
    UInt8.ofNat number = byte := by
  rw [same, UInt8.ofNat_toNat]

/-- The bytes of a character, by its number. -/
theorem utf8EncodeChar_eq {c : Char} {point : Nat} (same : c.toNat = point) :
    String.utf8EncodeChar c =
      if point ≤ 0x7f then [UInt8.ofNat point]
      else if point ≤ 0x7ff then
        [UInt8.ofNat (point / 64 % 32 + 192), UInt8.ofNat (point % 64 + 128)]
      else if point ≤ 0xffff then
        [UInt8.ofNat (point / 4096 % 16 + 224), UInt8.ofNat (point / 64 % 64 + 128),
          UInt8.ofNat (point % 64 + 128)]
      else
        [UInt8.ofNat (point / 262144 % 8 + 240), UInt8.ofNat (point / 4096 % 64 + 128),
          UInt8.ofNat (point / 64 % 64 + 128), UInt8.ofNat (point % 64 + 128)] := by
  rw [← same]
  rfl

/-- The bytes that write a character are its bytes. -/
theorem utf8EncodeChar_of_writes {bytes : List UInt8} {c : Char} (writes : Writes bytes c) :
    String.utf8EncodeChar c = bytes := by
  cases writes with
  | @one first lead =>
    rw [utf8EncodeChar_eq (toNat_ofNat_of_lt (by omega)), if_pos (by omega), byte_ofNat first rfl]
  | @two first second low high next =>
    have bounds := continues_iff.mp next
    unfold payload
    rw [utf8EncodeChar_eq (toNat_ofNat_of_lt (by omega)), if_neg (by omega), if_pos (by omega),
      byte_ofNat first (by omega), byte_ofNat second (by omega)]
  | @three first second third low high next last =>
    have middle := mayFollow_iff.mp next
    have bounds := continues_iff.mp last
    unfold payload
    rw [utf8EncodeChar_eq (toNat_ofNat_of_lt (by omega)), if_neg (by omega), if_neg (by omega),
      if_pos (by omega), byte_ofNat first (by omega), byte_ofNat second (by omega),
      byte_ofNat third (by omega)]
  | @four first second third fourth low high next later last =>
    have middle := mayFollow_iff.mp next
    have bounds := continues_iff.mp later
    have end_bounds := continues_iff.mp last
    unfold payload
    rw [utf8EncodeChar_eq (toNat_ofNat_of_lt (by omega)), if_neg (by omega), if_neg (by omega),
      if_neg (by omega), byte_ofNat first (by omega), byte_ofNat second (by omega),
      byte_ofNat third (by omega), byte_ofNat fourth (by omega)]

/-- The bytes of a character write it. -/
theorem writes_utf8EncodeChar (c : Char) : Writes (String.utf8EncodeChar c) c := by
  have points := toNat_cases c
  have whole := Char.ofNat_toNat c
  rw [utf8EncodeChar_eq rfl]
  generalize c.toNat = point at points whole
  subst whole
  -- Each byte is known by its number alone from here on, so that the rest is arithmetic.
  split_ifs with one two three
  · have lead := byte_toNat (show point < 256 by omega)
    generalize UInt8.ofNat point = first at lead ⊢
    rw [← lead]
    exact .one (by omega)
  · have lead := byte_toNat (show point / 64 % 32 + 192 < 256 by omega)
    have tail := byte_toNat (show point % 64 + 128 < 256 by omega)
    generalize UInt8.ofNat (point / 64 % 32 + 192) = first at lead ⊢
    generalize UInt8.ofNat (point % 64 + 128) = second at tail ⊢
    have value : (first.toNat - 0xc0) * 64 + payload second = point := by
      unfold payload
      omega
    rw [← value]
    exact .two (by omega) (by omega) (continues_iff.mpr (by omega))
  · have lead := byte_toNat (show point / 4096 % 16 + 224 < 256 by omega)
    have middle := byte_toNat (show point / 64 % 64 + 128 < 256 by omega)
    have tail := byte_toNat (show point % 64 + 128 < 256 by omega)
    generalize UInt8.ofNat (point / 4096 % 16 + 224) = first at lead ⊢
    generalize UInt8.ofNat (point / 64 % 64 + 128) = second at middle ⊢
    generalize UInt8.ofNat (point % 64 + 128) = third at tail ⊢
    have value : ((first.toNat - 0xe0) * 64 + payload second) * 64 + payload third = point := by
      unfold payload
      omega
    rw [← value]
    exact .three (by omega) (by omega) (mayFollow_iff.mpr (by omega)) (continues_iff.mpr (by omega))
  · have lead := byte_toNat (show point / 262144 % 8 + 240 < 256 by omega)
    have middle := byte_toNat (show point / 4096 % 64 + 128 < 256 by omega)
    have late := byte_toNat (show point / 64 % 64 + 128 < 256 by omega)
    have tail := byte_toNat (show point % 64 + 128 < 256 by omega)
    generalize UInt8.ofNat (point / 262144 % 8 + 240) = first at lead ⊢
    generalize UInt8.ofNat (point / 4096 % 64 + 128) = second at middle ⊢
    generalize UInt8.ofNat (point / 64 % 64 + 128) = third at late ⊢
    generalize UInt8.ofNat (point % 64 + 128) = fourth at tail ⊢
    have value : (((first.toNat - 0xf0) * 64 + payload second) * 64 + payload third) * 64 +
        payload fourth = point := by
      unfold payload
      omega
    rw [← value]
    exact .four (by omega) (by omega) (mayFollow_iff.mpr (by omega)) (continues_iff.mpr (by omega))
      (continues_iff.mpr (by omega))

/-! ## Texts -/

/-- The list of the bytes in an array, from a position on. -/
theorem toList_loop (bytes : ByteArray) (position : Nat) (reversed : List UInt8) :
    ByteArray.toList.loop bytes position reversed =
      reversed.reverse ++ bytes.data.toList.drop position := by
  fun_induction ByteArray.toList.loop bytes position reversed with
  | case1 position reversed inside ih =>
    have bound : position < bytes.data.toList.length := by simpa using inside
    rw [ih, List.drop_eq_getElem_cons bound, ByteArray.get!,
      getElem!_pos bytes.data position inside]
    simp
  | case2 position reversed outside =>
    have bound : bytes.data.toList.length ≤ position := by simpa using outside
    simp [List.drop_eq_nil_of_le bound]

/-- The bytes of a text are those of its characters in order. -/
theorem encode_eq (text : String) : encode text = text.toList.flatMap String.utf8EncodeChar := by
  rw [encode, String.toUTF8_eq_toByteArray, ← String.utf8Encode_toList, List.utf8Encode,
    ByteArray.toList, toList_loop, List.toList_data_toByteArray]
  simp

/-- The first character of the bytes of characters is read, and the bytes of the others are left. -/
theorem front_of_flatMap {first : UInt8} {rest : List UInt8} {chars : List Char}
    (same : first :: rest = chars.flatMap String.utf8EncodeChar) :
    ∃ c taken more, chars = c :: more ∧ front first rest = .ok (c, taken) ∧
      rest.drop taken = more.flatMap String.utf8EncodeChar := by
  cases chars with
  | nil => cases same
  | cons c more =>
    have writes := writes_utf8EncodeChar c
    rw [List.flatMap_cons] at same
    generalize String.utf8EncodeChar c = bytes at same writes
    cases bytes with
    | nil => cases writes
    | cons lead tail =>
      cases same
      exact ⟨c, tail.length, more, rfl, front_of_writes writes _, List.drop_left⟩

/-- Bytes are read as characters exactly when they are the bytes of these. -/
theorem decodeFrom_eq_ok_iff {position : Nat} {bytes : List UInt8} {chars : List Char} :
    decodeFrom position bytes = .ok chars ↔ bytes = chars.flatMap String.utf8EncodeChar := by
  fun_induction decodeFrom position bytes generalizing chars with
  | case1 =>
    constructor
    · rintro ⟨⟩
      rfl
    · intro same
      cases chars with
      | nil => rfl
      | cons c more =>
        have writes := writes_utf8EncodeChar c
        rw [List.flatMap_cons, eq_comm, List.append_eq_nil_iff] at same
        rw [same.1] at writes
        cases writes
  | case2 position first rest reason length flaw =>
    constructor
    · rintro ⟨⟩
    · intro same
      obtain ⟨c, taken, more, -, read, -⟩ := front_of_flatMap same
      rw [flaw] at read
      cases read
  | case3 position first rest c taken read ih =>
    constructor
    · intro found
      cases later : decodeFrom (position + taken + 1) (rest.drop taken) with
      | error flaw =>
        rw [later] at found
        cases found
      | ok more =>
        rw [later] at found
        cases found
        obtain ⟨bytes, writes, split⟩ := exists_writes_of_front read
        rw [List.flatMap_cons, utf8EncodeChar_of_writes writes, ← ih.mp later, List.cons_append,
          ← split]
    · intro same
      obtain ⟨found, length, more, rfl, again, left⟩ := front_of_flatMap same
      rw [read] at again
      cases again
      rw [ih.mpr left]
      rfl

/-- Bytes are read as a text exactly when they are the bytes of this text. -/
theorem decode_eq_ok_iff {bytes : List UInt8} {text : String} :
    decode bytes = .ok text ↔ bytes = encode text := by
  rw [encode_eq, ← @decodeFrom_eq_ok_iff 0, decode]
  constructor
  · intro found
    cases read : decodeFrom 0 bytes with
    | error flaw =>
      rw [read] at found
      cases found
    | ok chars =>
      rw [read] at found
      cases found
      rw [String.toList_ofList]
  · intro read
    rw [read]
    exact congrArg Except.ok String.ofList_toList

/-- Bytes are those of one text at most. -/
theorem encode_injective {text other : String} (same : encode text = encode other) :
    text = other := by
  have read := decode_eq_ok_iff.mpr same
  rw [decode_eq_ok_iff.mpr rfl] at read
  exact Except.ok.inj read

end EvalDesk.Text.Utf8
