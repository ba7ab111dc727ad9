import EvalDesk.Datum.Json
import Mathlib.Data.List.Basic

/-!
# Blanks and strings in data

What is written between data, and inside the quotes of a string, is said here without its reader.
The reader takes it off the front of an input whatever stands behind: blanks up to the first
character that is none, a string up to its own closing quote. What was read as a string is written
as one.
-/
namespace EvalDesk.Json

/-! ## Blanks -/

/-- Nothing but blanks. -/
def Blanks (written : List Char) : Prop := ∀ c ∈ written, isBlank c = true

/-- No blank stands at the front. -/
def Unblanked (input : List Char) : Prop := ∀ c ∈ input.head?, isBlank c = false

/-- Blanks are skipped up to the first character that is none. -/
theorem skipBlanks_append {written input : List Char} (blanks : Blanks written)
    (stops : Unblanked input) : skipBlanks (written ++ input) = input := by
  rw [skipBlanks, List.dropWhile_append_of_pos blanks]
  cases input with
  | nil => rfl
  | cons c rest =>
    rw [List.dropWhile_cons_of_neg]
    simp [stops c rfl]

/-- What is skipped is blank. -/
theorem exists_blanks (input : List Char) :
    ∃ written, Blanks written ∧ input = written ++ skipBlanks input :=
  ⟨input.takeWhile isBlank, fun _ => List.all_eq_true.mp List.all_takeWhile _,
    List.takeWhile_append_dropWhile.symm⟩

/-! ## Strings -/

/-- Four hexadecimal digits write a unit. -/
structure WritesUnit (digits : List Char) (unit : Nat) : Prop where
  /-- There are four of them. -/
  four : digits.length = 4
  /-- They write the number. -/
  value : Text.hexNumber? digits = some unit

/-- A unit is read from the digits at the front. -/
theorem codeUnit?_append {digits : List Char} {unit : Nat} (written : WritesUnit digits unit)
    (rest : List Char) : codeUnit? (digits ++ rest) = some (unit, rest) := by
  obtain ⟨four, value⟩ := written
  obtain ⟨a, b, c, d, rfl⟩ := List.length_eq_four.mp four
  simp [codeUnit?, value]

/-- A unit that was read is written at the front. -/
theorem exists_digits_of_codeUnit? {input rest : List Char} {unit : Nat}
    (read : codeUnit? input = some (unit, rest)) :
    ∃ digits, WritesUnit digits unit ∧ input = digits ++ rest := by
  unfold codeUnit? at read
  split at read
  · rename_i a b c d behind
    obtain ⟨number, value, same⟩ := Option.map_eq_some_iff.mp read
    cases same
    exact ⟨[a, b, c, d], ⟨rfl, value⟩, rfl⟩
  · contradiction

/-- The escape of a low unit stands at the front. -/
def LowAhead (input : List Char) : Prop :=
  ∃ digits unit rest, WritesUnit digits unit ∧ isLowUnit unit = true ∧
    input = '\\' :: 'u' :: (digits ++ rest)

/-- What stands behind the letter of an escape of units, the character it writes, and what follows:
a high unit and a low one write a character together, every other unit one of its own. -/
inductive Escapes : List Char → Char → List Char → Prop
  /-- A unit of its own. -/
  | single {digits behind : List Char} {unit : Nat} (written : WritesUnit digits unit)
      (alone : isHighUnit unit = true → ¬LowAhead behind) : Escapes digits (unitChar unit) behind
  /-- Two units for one character. -/
  | pair {first second behind : List Char} {high low : Nat} (front : WritesUnit first high)
      (isHigh : isHighUnit high = true) (next : WritesUnit second low)
      (isLow : isLowUnit low = true) :
      Escapes (first ++ '\\' :: 'u' :: second)
        (Char.ofNat (0x10000 + (high - 0xd800) * 0x400 + (low - 0xdc00))) behind

/-- The escape of a low unit stands at the front exactly when such a unit is read there. -/
theorem lowAhead_cons_iff {more : List Char} :
    LowAhead ('\\' :: 'u' :: more) ↔
      ∃ unit rest, codeUnit? more = some (unit, rest) ∧ isLowUnit unit = true := by
  constructor
  · rintro ⟨digits, unit, rest, written, low, same⟩
    simp only [List.cons.injEq, true_and] at same
    exact ⟨unit, rest, same ▸ codeUnit?_append written rest, low⟩
  · rintro ⟨unit, rest, read, low⟩
    obtain ⟨digits, written, rfl⟩ := exists_digits_of_codeUnit? read
    exact ⟨digits, unit, rest, written, low, rfl⟩

/-- An escape of units is read from the front. -/
theorem escapedUnit?_append {written rest : List Char} {c : Char}
    (escapes : Escapes written c rest) :
    escapedUnit? (written ++ rest) = some (c, rest) := by
  cases escapes with
  | single written alone =>
    simp only [escapedUnit?, codeUnit?_append written, Option.bind_eq_bind, Option.bind_some]
    split
    · rename_i high
      split
      · rename_i more
        split
        · rename_i second tail later
          have apart : ¬isLowUnit second = true := fun low =>
            alone high (lowAhead_cons_iff.mpr ⟨second, tail, later, low⟩)
          rw [if_neg apart]
          rfl
        · rfl
      · rfl
    · rfl
  | pair front high next low =>
    simp [escapedUnit?, codeUnit?_append front, codeUnit?_append next, high, low]

/-- An escape of units that was read is written at the front. -/
theorem exists_escape {input rest : List Char} {c : Char}
    (read : escapedUnit? input = some (c, rest)) :
    ∃ written, Escapes written c rest ∧ input = written ++ rest := by
  unfold escapedUnit? at read
  obtain ⟨⟨unit, behind⟩, front, result⟩ := Option.bind_eq_some_iff.mp read
  clear read
  obtain ⟨digits, written, rfl⟩ := exists_digits_of_codeUnit? front
  dsimp only at result
  -- The character is that of the one unit unless a low unit is read behind a high one.
  split at result
  · rename_i high
    split at result
    · rename_i more
      split at result
      · rename_i second tail later
        split at result
        · rename_i low
          simp only [Option.pure_def, Option.some.injEq, Prod.mk.injEq] at result
          obtain ⟨rfl, rfl⟩ := result
          obtain ⟨others, next, rfl⟩ := exists_digits_of_codeUnit? later
          exact ⟨_, .pair written high next low, by simp⟩
        · rename_i apart
          cases result
          refine ⟨_, .single written fun _ => ?_, rfl⟩
          rw [lowAhead_cons_iff, later]
          rintro ⟨_, _, same, low⟩
          cases same
          exact apart low
      · rename_i none
        cases result
        refine ⟨_, .single written fun _ => ?_, rfl⟩
        rw [lowAhead_cons_iff, none]
        rintro ⟨_, _, same, -⟩
        contradiction
    · rename_i other
      cases result
      refine ⟨_, .single written fun _ => ?_, rfl⟩
      rintro ⟨_, _, _, -, -, same⟩
      exact other _ same
  · rename_i low
    cases result
    exact ⟨_, .single written fun high => absurd high low, rfl⟩

/-- What is no hexadecimal digit is not among the digits of a unit. -/
theorem notMem_of_writesUnit {digits : List Char} {unit : Nat} (written : WritesUnit digits unit)
    {mark : Char} (none : Text.hexValue? mark = .none) : mark ∉ digits := by
  obtain ⟨four, value⟩ := written
  obtain ⟨a, b, c, d, rfl⟩ := List.length_eq_four.mp four
  intro member
  simp only [List.mem_cons, List.not_mem_nil, or_false] at member
  simp only [Text.hexNumber?, List.foldlM_cons, List.foldlM_nil] at value
  rcases member with rfl | rfl | rfl | rfl <;> simp [none] at value

/-- What stands behind the closing quote is no part of an escape inside. -/
theorem lowAhead_append_iff {inside rest : List Char} :
    LowAhead (inside ++ '"' :: rest) ↔ LowAhead inside := by
  constructor
  · rintro ⟨digits, unit, behind, written, low, same⟩
    have unquoted : '"' ∉ '\\' :: 'u' :: digits := by
      simp [notMem_of_writesUnit written (by decide : Text.hexValue? '"' = none)]
    have split : '\\' :: 'u' :: (digits ++ behind) = ('\\' :: 'u' :: digits) ++ behind := rfl
    rw [split, List.append_eq_append_iff] at same
    rcases same with ⟨between, escaped, ends⟩ | ⟨between, inner, -⟩
    · cases between with
      | nil => exact ⟨digits, unit, [], written, low, by simpa using escaped.symm⟩
      | cons c between =>
        simp only [List.cons_append, List.cons.injEq] at ends
        rw [escaped, ← ends.1] at unquoted
        simp at unquoted
    · exact ⟨digits, unit, between, written, low, inner⟩
  · rintro ⟨digits, unit, behind, written, low, rfl⟩
    exact ⟨digits, unit, behind ++ '"' :: rest, written, low, by simp⟩

/-- An escape inside a string does not depend on what stands behind the closing quote. -/
theorem escapes_append_iff {written inside rest : List Char} {c : Char} :
    Escapes written c (inside ++ '"' :: rest) ↔ Escapes written c inside := by
  constructor
  · rintro (⟨written, alone⟩ | ⟨front, high, next, low⟩)
    · exact .single written fun high => mt lowAhead_append_iff.mpr (alone high)
    · exact .pair front high next low
  · rintro (⟨written, alone⟩ | ⟨front, high, next, low⟩)
    · exact .single written fun high => mt lowAhead_append_iff.mp (alone high)
    · exact .pair front high next low

/-- What is written inside the quotes of a string, and the characters it stands for. -/
inductive Inside : List Char → List Char → Prop
  /-- Nothing. -/
  | nil : Inside [] []
  /-- A character that stands for itself. -/
  | plain {c : Char} {written chars : List Char} (visible : 0x20 ≤ c.toNat) (unquoted : c ≠ '"')
      (unescaped : c ≠ '\\') (rest : Inside written chars) : Inside (c :: written) (c :: chars)
  /-- A one-letter escape. -/
  | letter {c meant : Char} {written chars : List Char} (escape : escapeChar? c = some meant)
      (rest : Inside written chars) : Inside ('\\' :: c :: written) (meant :: chars)
  /-- An escape of units. -/
  | units {c : Char} {escape written chars : List Char} (escapes : Escapes escape c written)
      (rest : Inside written chars) : Inside ('\\' :: 'u' :: (escape ++ written)) (c :: chars)

/-- Characters that need no escape are written as they are. -/
theorem inside_self {chars : List Char}
    (plain : ∀ c ∈ chars, 0x20 ≤ c.toNat ∧ c ≠ '"' ∧ c ≠ '\\') : Inside chars chars := by
  induction chars with
  | nil => exact .nil
  | cons c rest ih =>
    obtain ⟨⟨visible, unquoted, unescaped⟩, others⟩ := List.forall_mem_cons.mp plain
    exact .plain visible unquoted unescaped (ih others)

/-- A string is read up to its closing quote. -/
theorem stringFrom_of_inside {inside chars : List Char} (written : Inside inside chars)
    (rest : List Char) : ∀ (fuel : Nat) (reversed : List Char), inside.length < fuel →
      stringFrom fuel reversed (inside ++ '"' :: rest) =
        .ok (String.ofList (reversed.reverse ++ chars), rest) := by
  induction written with
  | nil =>
    intro fuel reversed enough
    obtain ⟨fuel, rfl⟩ := Nat.exists_eq_add_of_lt enough
    simp [stringFrom]
  | @plain c _ _ visible unquoted unescaped _ ih =>
    intro fuel reversed enough
    obtain ⟨fuel, rfl⟩ := Nat.exists_eq_add_one_of_ne_zero (Nat.ne_zero_of_lt enough)
    have seen : ¬c.toNat < 0x20 := by omega
    simp only [List.cons_append, List.length_cons, Nat.add_lt_add_iff_right] at enough ⊢
    rw [stringFrom]
    · rw [if_neg seen, ih _ _ enough]
      simp
    · exact unquoted
    · intro rest same
      exact absurd same unescaped
    · intro other rest same
      exact absurd same unescaped
    · intro same
      exact absurd same unescaped
  | @letter c meant _ _ escape _ ih =>
    intro fuel reversed enough
    obtain ⟨fuel, rfl⟩ := Nat.exists_eq_add_one_of_ne_zero (Nat.ne_zero_of_lt enough)
    have other : c ≠ 'u' := by
      rintro rfl
      contradiction
    simp only [List.cons_append, List.length_cons] at enough ⊢
    rw [stringFrom]
    · rw [escape]
      simp only
      rw [ih _ _ (by omega)]
      simp
    · exact other
  | @units c escape inside _ escapes _ ih =>
    intro fuel reversed enough
    obtain ⟨fuel, rfl⟩ := Nat.exists_eq_add_one_of_ne_zero (Nat.ne_zero_of_lt enough)
    simp only [List.cons_append, List.append_assoc, List.length_cons, List.length_append]
      at enough ⊢
    rw [stringFrom, escapedUnit?_append (escapes_append_iff.mpr escapes)]
    simp only
    rw [ih _ _ (by omega)]
    simp

/-- What was read as a string stands inside its quotes, and where no string is read the input is
malformed. -/
theorem stringFrom_cases : ∀ (fuel : Nat) (reversed input : List Char),
    (∃ inside chars rest, Inside inside chars ∧ input = inside ++ '"' :: rest ∧
      stringFrom fuel reversed input = .ok (String.ofList (reversed.reverse ++ chars), rest)) ∨
    stringFrom fuel reversed input = .error .malformed := by
  intro fuel
  induction fuel with
  | zero => exact fun _ _ => .inr rfl
  | succ fuel ih =>
    intro reversed input
    unfold stringFrom
    split
    · exact .inr rfl
    · exact .inl ⟨[], [], _, .nil, rfl, by simp⟩
    · split
      · rename_i c behind read
        obtain ⟨escape, escapes, rfl⟩ := exists_escape read
        refine (ih (c :: reversed) behind).imp ?_ id
        rintro ⟨inside, chars, rest, written, rfl, found⟩
        refine ⟨_, _, rest, .units (escapes_append_iff.mp escapes) written, by simp, ?_⟩
        simpa using found
      · exact .inr rfl
    · rename_i c behind _
      split
      · rename_i meant escape
        refine (ih (meant :: reversed) behind).imp ?_ id
        rintro ⟨inside, chars, rest, written, rfl, found⟩
        exact ⟨_, _, rest, .letter escape written, rfl, by simpa using found⟩
      · exact .inr rfl
    · exact .inr rfl
    · rename_i c behind unquoted _ unescaped lone
      split
      · exact .inr rfl
      · rename_i visible
        refine (ih (c :: reversed) behind).imp ?_ id
        rintro ⟨inside, chars, rest, written, rfl, found⟩
        refine ⟨_, _, rest, .plain (by omega) unquoted ?_ written, rfl, by simpa using found⟩
        rintro rfl
        cases more : inside ++ '"' :: rest with
        | nil => exact lone rfl more
        | cons d behind => exact unescaped d behind rfl more

end EvalDesk.Json
