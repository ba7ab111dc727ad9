import EvalDesk.Proofs.Datum.Grammar
import Mathlib.Data.List.TakeWhile

/-!
# Reading finds what is written

The reader of data goes by the grammar. What is written is read, given fuel for twice its length;
where an integer that is too long stands next the reader refuses it as such; and whatever the reader
makes of an input, the input was of one of these two forms or is malformed. So a text is read
exactly as the datum it holds.
-/
namespace EvalDesk.Json

/-! ## One step of the readers -/

/-- A quote starts a text. -/
theorem datum_quote (fuel : Nat) (rest : List Char) :
    datum (fuel + 1) ('"' :: rest) =
      (stringFrom fuel [] rest).map fun (value, rest) => (.text value, rest) := by
  rw [datum]

/-- A closing bracket ends an empty list. -/
theorem datum_brackets (fuel : Nat) {before : List Char} (blanks : Blanks before)
    (rest : List Char) :
    datum (fuel + 1) ('[' :: (before ++ ']' :: rest)) = .ok (.list [], rest) := by
  rw [datum, skipBlanks_cons blanks rfl]
  rfl

/-- What starts data in brackets is read as items. -/
theorem datum_bracket (fuel : Nat) {before input : List Char} (blanks : Blanks before)
    (front : Front input) : datum (fuel + 1) ('[' :: (before ++ input)) = items fuel [] input := by
  rw [datum, skipBlanks_starts blanks front]
  obtain ⟨c, rest, rfl, starts⟩ := front
  split
  · rename_i same
    exact absurd (List.cons.inj same).1 starts.2.1
  · rfl

/-- A closing brace ends an empty table. -/
theorem datum_braces (fuel : Nat) {before : List Char} (blanks : Blanks before)
    (rest : List Char) :
    datum (fuel + 1) ('\x7b' :: (before ++ '\x7d' :: rest)) = .ok (.table [], rest) := by
  rw [datum, skipBlanks_cons blanks rfl]
  rfl

/-- What starts data in braces is read as entries. -/
theorem datum_brace (fuel : Nat) {before input : List Char} (blanks : Blanks before)
    (front : Front input) :
    datum (fuel + 1) ('\x7b' :: (before ++ input)) = entries fuel [] input := by
  rw [datum, skipBlanks_starts blanks front]
  obtain ⟨c, rest, rfl, starts⟩ := front
  split
  · rename_i same
    exact absurd (List.cons.inj same).1 starts.2.2
  · rfl

/-- Any other character starts a constant or a number. -/
theorem datum_other (fuel : Nat) {c : Char} (rest : List Char)
    (other : c ∉ ['"', '[', '\x7b']) :
    datum (fuel + 1) (c :: rest) =
      match constant? (c :: rest) with
      | some found => .ok found
      | none => if c = '-' then number true rest else number false (c :: rest) := by
  rw [datum.eq_def]
  dsimp only
  split
  · rename_i same
    cases same
  · rename_i same
    cases same
    exact absurd (by decide) other
  · rename_i same
    cases same
    exact absurd (by decide) other
  · rename_i same
    cases same
    exact absurd (by decide) other
  · rename_i same
    cases same
    rfl

/-- A number is read with its sign. -/
theorem datum_number (fuel : Nat) {whole : List Char} (negative : Bool) (isWhole : Whole whole)
    (rest : List Char) :
    datum (fuel + 1) (minus negative ++ (whole ++ rest)) = number negative (whole ++ rest) := by
  have unlisted := constant?_number negative isWhole rest
  obtain ⟨c, more, same, isNumber⟩ := isWhole.front negative rest
  have other : c ∉ ['"', '[', '\x7b'] := by
    intro member
    simp only [List.mem_cons, List.not_mem_nil, or_false] at member
    rcases member with rfl | rfl | rfl <;> simp at isNumber
  rw [same] at unlisted
  rw [same, datum_other fuel more other, unlisted]
  cases negative with
  | true =>
    cases same
    rfl
  | false =>
    rw [minus, if_neg (by decide), List.nil_append] at same
    have unsigned : ¬c = '-' := by
      rintro rfl
      obtain ⟨first, tail, rfl, digit⟩ := isWhole.exists_digit
      cases same
      contradiction
    simp only [if_neg unsigned, same]

/-- What happens behind an item. -/
theorem items_of_datum {fuel : Nat} {reversed : List Datum} {input behind : List Char}
    {item : Datum} (read : datum fuel input = .ok (item, behind)) :
    items (fuel + 1) reversed input =
      match skipBlanks behind with
      | ']' :: rest => .ok (.list (item :: reversed).reverse, rest)
      | ',' :: rest => items fuel (item :: reversed) (skipBlanks rest)
      | _ => .error .malformed := by
  rw [items, read]
  rfl

/-- Behind an item and a comma the next items are read. -/
theorem items_next {fuel : Nat} {reversed : List Datum} {input behind before next : List Char}
    {item : Datum} (read : datum fuel input = .ok (item, behind ++ ',' :: (before ++ next)))
    (blanks : Blanks behind) (more : Blanks before) (front : Front next) :
    items (fuel + 1) reversed input = items fuel (item :: reversed) next := by
  rw [items_of_datum read, skipBlanks_cons blanks rfl]
  exact congrArg _ (skipBlanks_starts more front)

/-- A flaw of an item is one of the list. -/
theorem items_of_flaw {fuel : Nat} {reversed : List Datum} {input : List Char} {flaw : Flaw}
    (read : datum fuel input = .error flaw) : items (fuel + 1) reversed input = .error flaw := by
  rw [items, read]
  rfl

/-- What is read behind a key. -/
def entryValue (fuel : Nat) (known : Table) (key : String) (input : List Char) :
    Except Flaw (Datum × List Char) := do
  let (value, rest) ← datum fuel input
  match skipBlanks rest with
  | '\x7d' :: rest => .ok (.table (known.put key value), rest)
  | ',' :: rest => entries fuel (known.put key value) (skipBlanks rest)
  | _ => .error .malformed

/-- A key is read with its colon. -/
theorem entries_of_key {fuel : Nat} {known : Table} {key : String} {front input : List Char}
    (isKey : Key key front) (enough : front.length ≤ fuel) (starts : Front input) :
    entries (fuel + 1) known (front ++ input) = entryValue fuel known key input := by
  obtain ⟨isInside, blanks, more⟩ := isKey
  rename_i inside chars before behind
  simp only [List.length_cons, List.length_append] at enough
  have read := stringFrom_of_inside isInside (before ++ ':' :: (behind ++ input)) fuel []
    (by omega)
  have colon : skipBlanks (before ++ ':' :: (behind ++ input)) = ':' :: (behind ++ input) :=
    skipBlanks_cons blanks rfl
  simp only [List.cons_append, List.append_assoc]
  rw [entries, read]
  simp only [bind, Except.bind, colon, skipBlanks_starts more starts]
  rfl

/-- What happens behind the value of an entry. -/
theorem entryValue_of_datum {fuel : Nat} {known : Table} {key : String}
    {input behind : List Char} {value : Datum} (read : datum fuel input = .ok (value, behind)) :
    entryValue fuel known key input =
      match skipBlanks behind with
      | '\x7d' :: rest => .ok (.table (known.put key value), rest)
      | ',' :: rest => entries fuel (known.put key value) (skipBlanks rest)
      | _ => .error .malformed := by
  rw [entryValue, read]
  rfl

/-- Behind a value and a comma the next entries are read. -/
theorem entryValue_next {fuel : Nat} {known : Table} {key : String}
    {input behind before next : List Char} {value : Datum}
    (read : datum fuel input = .ok (value, behind ++ ',' :: (before ++ next)))
    (blanks : Blanks behind) (more : Blanks before) (front : Front next) :
    entryValue fuel known key input = entries fuel (known.put key value) next := by
  rw [entryValue_of_datum read, skipBlanks_cons blanks rfl]
  exact congrArg _ (skipBlanks_starts more front)

/-- A flaw of a value is one of the table. -/
theorem entryValue_of_flaw {fuel : Nat} {known : Table} {key : String} {input : List Char}
    {flaw : Flaw} (read : datum fuel input = .error flaw) :
    entryValue fuel known key input = .error flaw := by
  rw [entryValue, read]
  rfl

/-! ## What is written is read -/

/-- The reader of a part finds it, given fuel for twice what is written: a datum up to where no
number goes on, items and entries up to the end of their list or table. -/
def Part.IsRead : Part → List Char → Prop
  | .datum value, written => ∀ (fuel : Nat) (rest : List Char), 2 * written.length ≤ fuel →
      EndsNumber rest → Json.datum fuel (written ++ rest) = .ok (value, rest)
  | .items values, written => ∀ (fuel : Nat) (reversed : List Datum) (rest : List Char),
      2 * written.length < fuel →
        Json.items fuel reversed (written ++ ']' :: rest) =
          .ok (.list (reversed.reverse ++ values), rest)
  | .entries values, written => ∀ (fuel : Nat) (known : Table) (rest : List Char),
      2 * written.length < fuel →
        Json.entries fuel known (written ++ '\x7d' :: rest) =
          .ok (.table (Table.merge known values), rest)

/-- Behind a datum in a list or table nothing of a number goes on. -/
theorem endsNumber_mark {behind : List Char} (blanks : Blanks behind) (mark : Char)
    (listed : mark ∈ [',', ']', '\x7d']) (rest : List Char) :
    EndsNumber (behind ++ mark :: rest) := by
  apply endsNumber_append blanks
  simp only [List.mem_cons, List.not_mem_nil, or_false] at listed
  rcases listed with rfl | rfl | rfl <;>
    exact endsNumber_cons ⟨rfl, by decide, by decide, by decide⟩ rest

/-- What is written is read. -/
theorem isRead_of_written {part : Part} {written : List Char} (isWritten : Written part written) :
    part.IsRead written := by
  induction isWritten with
  | @constant name value listed =>
    intro fuel rest enough _
    have front : ∃ c more, name.toList = c :: more ∧ c ∉ ['"', '[', '\x7b'] := by
      simp only [constants, List.mem_cons, Prod.mk.injEq, List.not_mem_nil, or_false] at listed
      rcases listed with ⟨rfl, -⟩ | ⟨rfl, -⟩ | ⟨rfl, -⟩ | ⟨rfl, -⟩ | ⟨rfl, -⟩ | ⟨rfl, -⟩ <;>
        exact ⟨_, _, rfl, by decide⟩
    obtain ⟨c, more, same, other⟩ := front
    have read := constant?_append listed rest
    rw [same, List.length_cons] at enough
    obtain ⟨fuel, rfl⟩ := Nat.exists_eq_add_one_of_ne_zero (by omega : fuel ≠ 0)
    rw [same, List.cons_append] at read ⊢
    rw [datum_other fuel _ other, read]
  | @number negative written value isNumber =>
    intro fuel rest enough ends
    obtain ⟨whole, behind, isWhole, same⟩ := isNumber.whole
    have positive := List.length_pos_of_ne_nil isWhole.ne_nil
    rw [same, List.length_append, List.length_append] at enough
    obtain ⟨fuel, rfl⟩ := Nat.exists_eq_add_one_of_ne_zero (by omega : fuel ≠ 0)
    rw [← number_of_unsigned isNumber ends, same, List.append_assoc, List.append_assoc,
      datum_number fuel negative isWhole]
  | @text inside chars isInside =>
    intro fuel rest enough _
    simp only [List.length_cons, List.length_append, List.length_nil] at enough
    obtain ⟨fuel, rfl⟩ := Nat.exists_eq_add_one_of_ne_zero (by omega : fuel ≠ 0)
    have read := stringFrom_of_inside isInside rest fuel [] (by omega)
    rw [List.cons_append, List.append_assoc, List.singleton_append, datum_quote, read]
    rfl
  | noItems blanks =>
    intro fuel rest enough _
    simp only [List.length_cons, List.length_append, List.length_nil] at enough
    obtain ⟨fuel, rfl⟩ := Nat.exists_eq_add_one_of_ne_zero (by omega : fuel ≠ 0)
    rw [List.cons_append, List.append_assoc, List.singleton_append, datum_brackets fuel blanks]
  | @list before written values blanks isItems ih =>
    intro fuel rest enough _
    simp only [List.length_cons, List.length_append, List.length_nil] at enough
    obtain ⟨fuel, rfl⟩ := Nat.exists_eq_add_one_of_ne_zero (by omega : fuel ≠ 0)
    simp only [List.cons_append, List.append_assoc, List.nil_append]
    rw [datum_bracket fuel blanks (front_append isItems.front _), ih fuel [] rest (by omega)]
    rfl
  | noEntries blanks =>
    intro fuel rest enough _
    simp only [List.length_cons, List.length_append, List.length_nil] at enough
    obtain ⟨fuel, rfl⟩ := Nat.exists_eq_add_one_of_ne_zero (by omega : fuel ≠ 0)
    rw [List.cons_append, List.append_assoc, List.singleton_append, datum_braces fuel blanks]
  | @table before written values blanks isEntries ih =>
    intro fuel rest enough _
    simp only [List.length_cons, List.length_append, List.length_nil] at enough
    obtain ⟨fuel, rfl⟩ := Nat.exists_eq_add_one_of_ne_zero (by omega : fuel ≠ 0)
    simp only [List.cons_append, List.append_assoc, List.nil_append]
    rw [datum_brace fuel blanks (front_append isEntries.front _), ih fuel [] rest (by omega)]
  | lastItem _ blanks ih =>
    intro fuel reversed rest enough
    simp only [List.length_append] at enough
    obtain ⟨fuel, rfl⟩ := Nat.exists_eq_add_one_of_ne_zero (by omega : fuel ≠ 0)
    have read := ih fuel _ (by omega) (endsNumber_mark blanks ']' (by decide) rest)
    rw [List.append_assoc, items_of_datum read, skipBlanks_cons blanks rfl]
    simp
  | @item written behind before others value values _ blanks more isItems ih later =>
    intro fuel reversed rest enough
    simp only [List.length_append, List.length_cons] at enough
    obtain ⟨fuel, rfl⟩ := Nat.exists_eq_add_one_of_ne_zero (by omega : fuel ≠ 0)
    simp only [List.append_assoc, List.cons_append]
    have read := ih fuel (behind ++ ',' :: (before ++ (others ++ ']' :: rest))) (by omega)
      (endsNumber_mark blanks ',' (by decide) _)
    rw [items_next read blanks more (front_append isItems.front _), later fuel _ rest (by omega)]
    simp
  | lastEntry isKey isValue blanks ih =>
    intro fuel known rest enough
    simp only [List.length_append] at enough
    obtain ⟨fuel, rfl⟩ := Nat.exists_eq_add_one_of_ne_zero (by omega : fuel ≠ 0)
    have read := ih fuel _ (by omega) (endsNumber_mark blanks '\x7d' (by decide) rest)
    simp only [List.append_assoc]
    rw [entries_of_key isKey (by omega) (front_append isValue.front _),
      entryValue_of_datum read, skipBlanks_cons blanks rfl]
    rfl
  | @entry key front written behind before others value values isKey isValue blanks more isEntries
      ih later =>
    intro fuel known rest enough
    simp only [List.length_append, List.length_cons] at enough
    obtain ⟨fuel, rfl⟩ := Nat.exists_eq_add_one_of_ne_zero (by omega : fuel ≠ 0)
    simp only [List.append_assoc, List.cons_append]
    have read := ih fuel (behind ++ ',' :: (before ++ (others ++ '\x7d' :: rest))) (by omega)
      (endsNumber_mark blanks ',' (by decide) _)
    rw [entries_of_key isKey (by omega) (front_append isValue.front _),
      entryValue_next read blanks more (front_append isEntries.front _),
      later fuel _ rest (by omega)]
    rfl

/-! ## What is too long is refused -/

/-- The reader at a place refuses the input for an integer with that many digits, given fuel for
twice the input. -/
def Place.Refuses : Place → Nat → List Char → Prop
  | .datum, count, input => ∀ fuel : Nat, 2 * input.length ≤ fuel →
      Json.datum fuel input = .error (.integer (.tooLong count))
  | .items, count, input => ∀ (fuel : Nat) (reversed : List Datum), 2 * input.length < fuel →
      Json.items fuel reversed input = .error (.integer (.tooLong count))
  | .entries, count, input => ∀ (fuel : Nat) (known : Table), 2 * input.length < fuel →
      Json.entries fuel known input = .error (.integer (.tooLong count))

/-- Where an integer that is too long stands next the reader refuses it as such. -/
theorem refuses_of_overlong {place : Place} {count : Nat} {input : List Char}
    (overlong : Overlong place count input) : place.Refuses count input := by
  induction overlong with
  | @number negative whole rest isWhole long ends =>
    intro fuel enough
    have positive := List.length_pos_of_ne_nil isWhole.ne_nil
    rw [List.length_append, List.length_append] at enough
    obtain ⟨fuel, rfl⟩ := Nat.exists_eq_add_one_of_ne_zero (by omega : fuel ≠ 0)
    rw [datum_number fuel negative isWhole, number_of_long isWhole long ends]
  | list blanks isLong ih =>
    intro fuel enough
    simp only [List.length_cons, List.length_append] at enough
    obtain ⟨fuel, rfl⟩ := Nat.exists_eq_add_one_of_ne_zero (by omega : fuel ≠ 0)
    rw [datum_bracket fuel blanks isLong.front, ih fuel [] (by omega)]
  | table blanks isLong ih =>
    intro fuel enough
    simp only [List.length_cons, List.length_append] at enough
    obtain ⟨fuel, rfl⟩ := Nat.exists_eq_add_one_of_ne_zero (by omega : fuel ≠ 0)
    rw [datum_brace fuel blanks isLong.front, ih fuel [] (by omega)]
  | item _ ih =>
    intro fuel reversed enough
    obtain ⟨fuel, rfl⟩ := Nat.exists_eq_add_one_of_ne_zero (by omega : fuel ≠ 0)
    exact items_of_flaw (ih fuel (by omega))
  | @laterItem written behind before input value count item blanks more isLong ih =>
    intro fuel reversed enough
    simp only [List.length_append, List.length_cons] at enough
    obtain ⟨fuel, rfl⟩ := Nat.exists_eq_add_one_of_ne_zero (by omega : fuel ≠ 0)
    have read := isRead_of_written item fuel (behind ++ ',' :: (before ++ input)) (by omega)
      (endsNumber_mark blanks ',' (by decide) _)
    rw [items_next read blanks more isLong.front, ih fuel _ (by omega)]
  | entry isKey isLong ih =>
    intro fuel known enough
    simp only [List.length_append] at enough
    obtain ⟨fuel, rfl⟩ := Nat.exists_eq_add_one_of_ne_zero (by omega : fuel ≠ 0)
    rw [entries_of_key isKey (by omega) isLong.front]
    exact entryValue_of_flaw (ih fuel (by omega))
  | @laterEntry key front written behind before input value count isKey isValue blanks more isLong
      ih =>
    intro fuel known enough
    simp only [List.length_append, List.length_cons] at enough
    obtain ⟨fuel, rfl⟩ := Nat.exists_eq_add_one_of_ne_zero (by omega : fuel ≠ 0)
    have read := isRead_of_written isValue fuel (behind ++ ',' :: (before ++ input)) (by omega)
      (endsNumber_mark blanks ',' (by decide) _)
    rw [entries_of_key isKey (by omega) (front_append isValue.front _),
      entryValue_next read blanks more isLong.front, ih fuel _ (by omega)]

/-! ## Nothing else is read -/

/-- What a result says of the input at a place: something was taken off that is written there, an
integer that is too long stands next, or the input is malformed. -/
def Explains (place : Place) (taken : Datum → List Char → Prop) (input : List Char)
    (result : Except Flaw (Datum × List Char)) : Prop :=
  (∃ value written rest, taken value written ∧ input = written ++ rest ∧
    result = .ok (value, rest)) ∨
  (∃ count, Overlong place count input ∧ result = .error (.integer (.tooLong count))) ∨
  result = .error .malformed

/-- A datum was taken off. -/
def TakenDatum (value : Datum) (written : List Char) : Prop := Written (.datum value) written

/-- Items were taken off up to the end of their list. -/
def TakenItems (reversed : List Datum) (value : Datum) (written : List Char) : Prop :=
  ∃ values inner, value = .list (reversed.reverse ++ values) ∧ written = inner ++ [']'] ∧
    Written (.items values) inner

/-- Entries were taken off up to the end of their table. -/
def TakenEntries (known : Table) (value : Datum) (written : List Char) : Prop :=
  ∃ values inner, value = .table (Table.merge known values) ∧ written = inner ++ ['\x7d'] ∧
    Written (.entries values) inner

variable {fuel : Nat}

/-- A datum is explained when what is in brackets and braces is. -/
theorem datum_explains
    (listed : ∀ reversed input, Explains .items (TakenItems reversed) input
      (items fuel reversed input))
    (tabled : ∀ known input, Explains .entries (TakenEntries known) input
      (entries fuel known input)) (input : List Char) :
    Explains .datum TakenDatum input (datum (fuel + 1) input) := by
  rw [datum.eq_def]
  dsimp only
  split
  · exact .inr (.inr rfl)
  · rename_i rest
    rcases stringFrom_cases fuel [] rest with ⟨inside, chars, behind, isInside, rfl, read⟩ | flaw
    · rw [read]
      exact .inl ⟨_, _, behind, .text isInside, by simp, rfl⟩
    · rw [flaw]
      exact .inr (.inr rfl)
  · rename_i rest
    obtain ⟨before, blanks, same⟩ := exists_blanks rest
    split
    · rename_i behind ends
      rw [ends] at same
      exact .inl ⟨_, _, behind, .noItems blanks, by simp [same], rfl⟩
    · rcases listed [] (skipBlanks rest) with
        ⟨_, _, behind, ⟨values, inner, rfl, rfl, isItems⟩, inner_eq, read⟩ |
          ⟨count, overlong, flaw⟩ | flaw
      · refine .inl ⟨_, _, behind, .list blanks isItems, ?_, read⟩
        rw [same, inner_eq]
        simp
      · exact .inr (.inl ⟨count, by rw [same]; exact .list blanks overlong, flaw⟩)
      · exact .inr (.inr flaw)
  · rename_i rest
    obtain ⟨before, blanks, same⟩ := exists_blanks rest
    split
    · rename_i behind ends
      rw [ends] at same
      exact .inl ⟨_, _, behind, .noEntries blanks, by simp [same], rfl⟩
    · rcases tabled [] (skipBlanks rest) with
        ⟨_, _, behind, ⟨values, inner, rfl, rfl, isEntries⟩, inner_eq, read⟩ |
          ⟨count, overlong, flaw⟩ | flaw
      · refine .inl ⟨_, _, behind, .table blanks isEntries, ?_, read⟩
        rw [same, inner_eq]
        simp
      · exact .inr (.inl ⟨count, by rw [same]; exact .table blanks overlong, flaw⟩)
      · exact .inr (.inr flaw)
  · rename_i c rest _ _ _
    split
    · rename_i value read
      obtain ⟨name, listed, same⟩ := exists_constant read
      exact .inl ⟨_, _, value.2, .constant listed, same, rfl⟩
    · have signed : ∃ negative unsigned, c :: rest = minus negative ++ unsigned ∧
          (if c = '-' then number true rest else number false (c :: rest)) =
            number negative unsigned := by
        split
        · rename_i same
          exact ⟨true, rest, by rw [same]; rfl, rfl⟩
        · exact ⟨false, c :: rest, rfl, rfl⟩
      obtain ⟨negative, unsigned, same, read⟩ := signed
      rw [read, same]
      rcases number_cases negative unsigned with
        ⟨written, value, behind, isNumber, rfl, found⟩ |
          ⟨whole, behind, isWhole, long, ends, rfl, flaw⟩ | flaw
      · exact .inl ⟨value, _, behind, .number isNumber, by simp, found⟩
      · exact .inr (.inl ⟨_, .number isWhole long ends, flaw⟩)
      · exact .inr (.inr flaw)

/-- Items are explained when a datum and the items behind it are. -/
theorem items_explains
    (single : ∀ input, Explains .datum TakenDatum input (datum fuel input))
    (listed : ∀ reversed input, Explains .items (TakenItems reversed) input
      (items fuel reversed input)) (reversed : List Datum) (input : List Char) :
    Explains .items (TakenItems reversed) input (items (fuel + 1) reversed input) := by
  rcases single input with ⟨item, written, behind, isItem, rfl, read⟩ |
    ⟨count, overlong, flaw⟩ | flaw
  · rw [items_of_datum read]
    obtain ⟨blank, blanks, same⟩ := exists_blanks behind
    split
    · rename_i rest ends
      rw [ends] at same
      exact .inl ⟨_, _, rest, ⟨[item], _, by simp, rfl, .lastItem isItem blanks⟩,
        by simp [same], rfl⟩
    · rename_i rest ends
      rw [ends] at same
      obtain ⟨before, more, skipped⟩ := exists_blanks rest
      rcases listed (item :: reversed) (skipBlanks rest) with
        ⟨_, _, last, ⟨values, inner, rfl, rfl, isItems⟩, inner_eq, found⟩ |
          ⟨count, overlong, flaw⟩ | flaw
      · refine .inl ⟨_, _, last, ⟨item :: values, _, by simp, rfl,
          .item isItem blanks more isItems⟩, ?_, found⟩
        rw [same, skipped, inner_eq]
        simp
      · refine .inr (.inl ⟨count, ?_, flaw⟩)
        rw [same, skipped]
        exact .laterItem isItem blanks more overlong
      · exact .inr (.inr flaw)
    · exact .inr (.inr rfl)
  · exact .inr (.inl ⟨count, .item overlong, items_of_flaw flaw⟩)
  · exact .inr (.inr (items_of_flaw flaw))

/-- What the reader of entries finds at the front: a key, or nothing of the form of an entry. -/
theorem entries_cases (known : Table) (input : List Char) :
    (∃ key front behind, Key key front ∧ input = front ++ behind ∧
      entries (fuel + 1) known input = entryValue fuel known key behind) ∨
    entries (fuel + 1) known input = .error .malformed := by
  rw [entries.eq_def]
  dsimp only
  split
  · rename_i rest
    rcases stringFrom_cases fuel [] rest with ⟨inside, chars, behind, isInside, rfl, read⟩ | flaw
    · rw [read]
      obtain ⟨before, blanks, same⟩ := exists_blanks behind
      simp only [bind, Except.bind]
      split
      · rename_i value colon
        rw [colon] at same
        obtain ⟨blank, more, skipped⟩ := exists_blanks value
        refine .inl ⟨_, _, skipBlanks value, .intro isInside blanks more, ?_, rfl⟩
        rw [same]
        simp [← skipped]
      · exact .inr rfl
    · rw [flaw]
      exact .inr rfl
  · exact .inr rfl

/-- Entries are explained when a datum and the entries behind it are. -/
theorem entries_explains
    (single : ∀ input, Explains .datum TakenDatum input (datum fuel input))
    (tabled : ∀ known input, Explains .entries (TakenEntries known) input
      (entries fuel known input)) (known : Table) (input : List Char) :
    Explains .entries (TakenEntries known) input (entries (fuel + 1) known input) := by
  rcases entries_cases known input with ⟨key, front, input, isKey, rfl, atKey⟩ | flaw
  swap
  · exact .inr (.inr flaw)
  rw [atKey]
  rcases single input with ⟨value, written, behind, isValue, rfl, read⟩ |
    ⟨count, overlong, flaw⟩ | flaw
  · rw [entryValue_of_datum read]
    obtain ⟨blank, blanks, same⟩ := exists_blanks behind
    split
    · rename_i rest ends
      rw [ends] at same
      exact .inl ⟨_, _, rest, ⟨[(key, value)], _, rfl, rfl, .lastEntry isKey isValue blanks⟩,
        by simp [same], rfl⟩
    · rename_i rest ends
      rw [ends] at same
      obtain ⟨before, more, skipped⟩ := exists_blanks rest
      rcases tabled (known.put key value) (skipBlanks rest) with
        ⟨_, _, last, ⟨values, inner, rfl, rfl, isEntries⟩, inner_eq, found⟩ |
          ⟨count, overlong, flaw⟩ | flaw
      · refine .inl ⟨_, _, last, ⟨(key, value) :: values, _, rfl, rfl,
          .entry isKey isValue blanks more isEntries⟩, ?_, found⟩
        rw [same, skipped, inner_eq]
        simp
      · refine .inr (.inl ⟨count, ?_, flaw⟩)
        rw [same, skipped]
        exact .laterEntry isKey isValue blanks more overlong
      · exact .inr (.inr flaw)
    · exact .inr (.inr rfl)
  · exact .inr (.inl ⟨count, .entry isKey overlong, entryValue_of_flaw flaw⟩)
  · exact .inr (.inr (entryValue_of_flaw flaw))

/-- Every result of the readers is explained, whatever the fuel. -/
theorem explains (fuel : Nat) :
    (∀ input, Explains .datum TakenDatum input (datum fuel input)) ∧
    (∀ reversed input, Explains .items (TakenItems reversed) input (items fuel reversed input)) ∧
    (∀ known input, Explains .entries (TakenEntries known) input (entries fuel known input)) := by
  induction fuel with
  | zero =>
    refine ⟨fun input => .inr (.inr ?_), fun reversed input => .inr (.inr ?_),
      fun known input => .inr (.inr ?_)⟩
    · rw [datum]
    · rw [items]
    · rw [entries]
  | succ fuel ih =>
    obtain ⟨single, listed, tabled⟩ := ih
    exact ⟨datum_explains listed tabled, items_explains single listed,
      entries_explains single tabled⟩

/-! ## Texts -/

/-- Nothing is left of blanks. -/
theorem skipBlanks_eq_nil_iff {input : List Char} : skipBlanks input = [] ↔ Blanks input :=
  List.dropWhile_eq_nil_iff

/-- How a text is read: the datum behind its first blanks, with blanks behind it. -/
theorem read_eq (text : String) :
    read text =
      match datum (2 * text.toList.length + 2) (skipBlanks text.toList) with
      | .ok (found, rest) => if (skipBlanks rest).isEmpty then .ok found else .error .malformed
      | .error flaw => .error flaw := by
  simp only [read, bind, Except.bind]
  cases datum (2 * text.toList.length + 2) (skipBlanks text.toList) <;> rfl

/-- The datum of a text is the one it holds. -/
theorem read_eq_ok_iff {text : String} {value : Datum} :
    read text = .ok value ↔ Holds text value := by
  rw [read_eq]
  constructor
  · intro found
    split at found
    · rename_i value' rest read
      split at found
      · rename_i ends
        cases found
        obtain ⟨before, blanks, same⟩ := exists_blanks text.toList
        rcases (explains _).1 (skipBlanks text.toList) with
          ⟨_, written, behind, isWritten, split, result⟩ | ⟨_, -, result⟩ | result
        · rw [read] at result
          cases result
          exact ⟨before, written, rest, blanks, isWritten,
            skipBlanks_eq_nil_iff.mp (List.isEmpty_iff.mp ends), by rw [← split, ← same]⟩
        · rw [read] at result
          contradiction
        · rw [read] at result
          contradiction
      · contradiction
    · contradiction
  · rintro ⟨before, written, behind, blanks, isWritten, ends, same⟩
    have enough : 2 * written.length ≤ 2 * text.toList.length + 2 := by
      rw [same, List.length_append, List.length_append]
      omega
    have ended : EndsNumber behind := by
      simpa using endsNumber_append ends endsNumber_nil
    have found := isRead_of_written isWritten _ behind enough ended
    have skipped : skipBlanks text.toList = written ++ behind := by
      rw [same, skipBlanks_starts blanks (front_append isWritten.front _)]
    simp [skipped, found, skipBlanks_eq_nil_iff.mpr ends]

/-- A text is refused for an integer exactly when it comes to one that is too long. -/
theorem read_eq_integer_iff {text : String} {flaw : Text.IntegerFlaw} :
    read text = .error (.integer flaw) ↔ ∃ count, flaw = .tooLong count ∧ ComesTo text count := by
  rw [read_eq]
  constructor
  · intro refused
    obtain ⟨before, blanks, same⟩ := exists_blanks text.toList
    rcases (explains (2 * text.toList.length + 2)).1 (skipBlanks text.toList) with
      ⟨_, _, _, -, -, result⟩ | ⟨count, overlong, result⟩ | result
    · simp only [result] at refused
      split at refused <;> cases refused
    · rw [result] at refused
      cases refused
      exact ⟨count, rfl, before, _, blanks, overlong, same⟩
    · rw [result] at refused
      cases refused
  · rintro ⟨count, rfl, before, input, blanks, overlong, same⟩
    have enough : 2 * input.length ≤ 2 * text.toList.length + 2 := by
      rw [same, List.length_append]
      omega
    have skipped : skipBlanks text.toList = input := by
      rw [same, skipBlanks_starts blanks overlong.front]
    rw [skipped, refuses_of_overlong overlong _ enough]

end EvalDesk.Json
