import EvalDesk.Proofs.Datum.Numbers
import EvalDesk.Proofs.Datum.Strings

/-!
# The grammar of data

A text holds a datum when the datum is written in it with nothing but blanks around. The grammar
says what is written for each datum, without the reader and without a bound on nesting. The reader
finds exactly what is written; and it refuses a number exactly where, with everything before it
written well, an integer with too many digits stands next. All other texts are malformed.
-/
namespace EvalDesk.Json

/-! ## What is written -/

/-- A key with its colon as it is written. -/
inductive Key : String → List Char → Prop
  /-- A string, a colon, and blanks behind each. -/
  | intro {inside chars before behind : List Char} (isInside : Inside inside chars)
      (blanks : Blanks before) (more : Blanks behind) :
      Key (String.ofList chars) ('"' :: (inside ++ '"' :: (before ++ ':' :: behind)))

/-- A part of data. -/
inductive Part where
  /-- A datum. -/
  | datum (value : Datum)
  /-- The items of a list, at least one. -/
  | items (values : List Datum)
  /-- The entries of a table, at least one. -/
  | entries (values : Table)

/-- A part of data as it is written. -/
inductive Written : Part → List Char → Prop
  /-- A constant. -/
  | constant {name : String} {value : Datum} (listed : (name, value) ∈ constants) :
      Written (.datum value) name.toList
  /-- A number. -/
  | number {negative : Bool} {written : List Char} {value : Datum}
      (isNumber : Unsigned negative written value) :
      Written (.datum value) (minus negative ++ written)
  /-- A text in quotes. -/
  | text {inside chars : List Char} (isInside : Inside inside chars) :
      Written (.datum (.text (String.ofList chars))) ('"' :: (inside ++ ['"']))
  /-- A list without items. -/
  | noItems {before : List Char} (blanks : Blanks before) :
      Written (.datum (.list [])) ('[' :: (before ++ [']']))
  /-- A list of items. -/
  | list {before written : List Char} {values : List Datum} (blanks : Blanks before)
      (items : Written (.items values) written) :
      Written (.datum (.list values)) ('[' :: (before ++ (written ++ [']'])))
  /-- A table without entries. -/
  | noEntries {before : List Char} (blanks : Blanks before) :
      Written (.datum (.table [])) ('\x7b' :: (before ++ ['\x7d']))
  /-- A table of entries; of those with one key the last counts. -/
  | table {before written : List Char} {values : Table} (blanks : Blanks before)
      (entries : Written (.entries values) written) :
      Written (.datum (.table (Table.merge [] values)))
        ('\x7b' :: (before ++ (written ++ ['\x7d'])))
  /-- The last item. -/
  | lastItem {written behind : List Char} {value : Datum} (item : Written (.datum value) written)
      (blanks : Blanks behind) : Written (.items [value]) (written ++ behind)
  /-- An item before others. -/
  | item {written behind before others : List Char} {value : Datum} {values : List Datum}
      (item : Written (.datum value) written) (blanks : Blanks behind) (more : Blanks before)
      (rest : Written (.items values) others) :
      Written (.items (value :: values)) (written ++ (behind ++ ',' :: (before ++ others)))
  /-- The last entry. -/
  | lastEntry {key : String} {front written behind : List Char} {value : Datum}
      (isKey : Key key front) (entry : Written (.datum value) written) (blanks : Blanks behind) :
      Written (.entries [(key, value)]) (front ++ (written ++ behind))
  /-- An entry before others. -/
  | entry {key : String} {front written behind before others : List Char} {value : Datum}
      {values : Table} (isKey : Key key front) (entry : Written (.datum value) written)
      (blanks : Blanks behind) (more : Blanks before)
      (rest : Written (.entries values) others) :
      Written (.entries ((key, value) :: values))
        (front ++ (written ++ (behind ++ ',' :: (before ++ others))))

/-- A place in data where something is to be read. -/
inductive Place where
  /-- A datum. -/
  | datum
  /-- An item of a list, and those behind it. -/
  | items
  /-- An entry of a table, and those behind it. -/
  | entries

/-- Behind parts that are written well an integer stands next that has more digits than may be
read, and how many. -/
inductive Overlong : Place → Nat → List Char → Prop
  /-- It stands at the front. -/
  | number {negative : Bool} {whole rest : List Char} (isWhole : Whole whole)
      (long : Text.maximalDigits < whole.length) (ends : EndsNumber rest) :
      Overlong .datum whole.length (minus negative ++ (whole ++ rest))
  /-- It stands in a list. -/
  | list {before input : List Char} {count : Nat} (blanks : Blanks before)
      (items : Overlong .items count input) : Overlong .datum count ('[' :: (before ++ input))
  /-- It stands in a table. -/
  | table {before input : List Char} {count : Nat} (blanks : Blanks before)
      (entries : Overlong .entries count input) :
      Overlong .datum count ('\x7b' :: (before ++ input))
  /-- It stands in the next item. -/
  | item {input : List Char} {count : Nat} (item : Overlong .datum count input) :
      Overlong .items count input
  /-- It stands in a later item. -/
  | laterItem {written behind before input : List Char} {value : Datum} {count : Nat}
      (item : Written (.datum value) written) (blanks : Blanks behind) (more : Blanks before)
      (rest : Overlong .items count input) :
      Overlong .items count (written ++ (behind ++ ',' :: (before ++ input)))
  /-- It stands in the next entry. -/
  | entry {key : String} {front input : List Char} {count : Nat} (isKey : Key key front)
      (entry : Overlong .datum count input) : Overlong .entries count (front ++ input)
  /-- It stands in a later entry. -/
  | laterEntry {key : String} {front written behind before input : List Char} {value : Datum}
      {count : Nat} (isKey : Key key front) (entry : Written (.datum value) written)
      (blanks : Blanks behind) (more : Blanks before) (rest : Overlong .entries count input) :
      Overlong .entries count (front ++ (written ++ (behind ++ ',' :: (before ++ input))))

/-- A text holds a datum. -/
def Holds (text : String) (value : Datum) : Prop :=
  ∃ before written behind, Blanks before ∧ Written (.datum value) written ∧ Blanks behind ∧
    text.toList = before ++ (written ++ behind)

/-- A text comes to an integer with too many digits. -/
def ComesTo (text : String) (count : Nat) : Prop :=
  ∃ before input, Blanks before ∧ Overlong .datum count input ∧ text.toList = before ++ input

/-! ## What stands at the front -/

/-- A character with which data can start: neither a blank nor the end of a list or table. -/
def Starts (c : Char) : Prop := isBlank c = false ∧ c ≠ ']' ∧ c ≠ '\x7d'

/-- Such a character stands at the front. -/
def Front (input : List Char) : Prop := ∃ c rest, input = c :: rest ∧ Starts c

/-- It stays at the front when more comes behind. -/
theorem front_append {input : List Char} (front : Front input) (behind : List Char) :
    Front (input ++ behind) := by
  obtain ⟨c, rest, rfl, starts⟩ := front
  exact ⟨c, rest ++ behind, rfl, starts⟩

/-- A key starts with a quote. -/
theorem Key.front {key : String} {written : List Char} (isKey : Key key written) :
    Front written := by
  cases isKey
  exact ⟨_, _, rfl, rfl, by decide, by decide⟩

/-- A digit or a minus starts data. -/
theorem starts_of_number {c : Char} (number : c = '-' ∨ c.isDigit = true) : Starts c := by
  rcases number with rfl | digit
  · exact ⟨rfl, by decide, by decide⟩
  · refine ⟨?_, ?_, ?_⟩
    · cases blank : isBlank c with
      | false => rfl
      | true =>
        simp only [isBlank, Bool.or_eq_true, decide_eq_true_eq] at blank
        rcases blank with ((rfl | rfl) | rfl) | rfl <;> contradiction
    · rintro rfl
      contradiction
    · rintro rfl
      contradiction

/-- A number starts with a minus or a digit. -/
theorem Whole.front {whole : List Char} (isWhole : Whole whole) (negative : Bool)
    (rest : List Char) : ∃ c more, minus negative ++ (whole ++ rest) = c :: more ∧
      (c = '-' ∨ c.isDigit = true) := by
  cases negative with
  | true => exact ⟨'-', whole ++ rest, rfl, .inl rfl⟩
  | false =>
    obtain ⟨c, tail, rfl, digit⟩ := isWhole.exists_digit
    exact ⟨c, tail ++ rest, rfl, .inr digit⟩

/-- A number without its sign starts with a whole part. -/
theorem Unsigned.whole {negative : Bool} {written : List Char} {value : Datum}
    (isNumber : Unsigned negative written value) :
    ∃ whole rest, Whole whole ∧ written = whole ++ rest := by
  cases isNumber with
  | integer isWhole short => exact ⟨written, [], isWhole, by simp⟩
  | decimals isWhole digits => exact ⟨_, _, isWhole, rfl⟩
  | power isWhole exponent => exact ⟨_, _, isWhole, rfl⟩
  | both isWhole digits exponent => exact ⟨_, _, isWhole, rfl⟩

/-- What is written starts with a character that can start data. -/
theorem Written.front {part : Part} {written : List Char} (isWritten : Written part written) :
    Front written := by
  induction isWritten with
  | constant listed =>
    simp only [constants, List.mem_cons, Prod.mk.injEq, List.not_mem_nil, or_false] at listed
    rcases listed with ⟨rfl, -⟩ | ⟨rfl, -⟩ | ⟨rfl, -⟩ | ⟨rfl, -⟩ | ⟨rfl, -⟩ | ⟨rfl, -⟩ <;>
      exact ⟨_, _, rfl, rfl, by decide, by decide⟩
  | number isNumber =>
    obtain ⟨whole, rest, isWhole, rfl⟩ := isNumber.whole
    obtain ⟨c, more, same, number⟩ := isWhole.front _ rest
    exact ⟨c, more, same, starts_of_number number⟩
  | text => exact ⟨_, _, rfl, rfl, by decide, by decide⟩
  | noItems => exact ⟨_, _, rfl, rfl, by decide, by decide⟩
  | list => exact ⟨_, _, rfl, rfl, by decide, by decide⟩
  | noEntries => exact ⟨_, _, rfl, rfl, by decide, by decide⟩
  | table => exact ⟨_, _, rfl, rfl, by decide, by decide⟩
  | lastItem _ _ ih => exact front_append ih _
  | item _ _ _ _ ih => exact front_append ih _
  | lastEntry isKey => exact front_append isKey.front _
  | entry isKey => exact front_append isKey.front _

/-- What comes to an integer that is too long starts with a character that can start data. -/
theorem Overlong.front {place : Place} {count : Nat} {input : List Char}
    (overlong : Overlong place count input) : Front input := by
  induction overlong with
  | number isWhole =>
    obtain ⟨c, more, same, number⟩ := isWhole.front _ _
    exact ⟨c, more, same, starts_of_number number⟩
  | list => exact ⟨_, _, rfl, rfl, by decide, by decide⟩
  | table => exact ⟨_, _, rfl, rfl, by decide, by decide⟩
  | item _ ih => exact ih
  | laterItem item => exact front_append item.front _
  | entry isKey => exact front_append isKey.front _
  | laterEntry isKey => exact front_append isKey.front _

/-- Blanks before something that starts data are skipped. -/
theorem skipBlanks_starts {before input : List Char} (blanks : Blanks before)
    (front : Front input) : skipBlanks (before ++ input) = input := by
  apply skipBlanks_append blanks
  obtain ⟨c, rest, rfl, starts⟩ := front
  rintro _ ⟨⟩
  exact starts.1

/-- Blanks before a mark that is none are skipped. -/
theorem skipBlanks_cons {before rest : List Char} {mark : Char} (blanks : Blanks before)
    (visible : isBlank mark = false) : skipBlanks (before ++ mark :: rest) = mark :: rest := by
  apply skipBlanks_append blanks
  rintro _ ⟨⟩
  exact visible

/-- Nothing of a number goes on at the end. -/
theorem endsNumber_nil : EndsNumber [] := by
  refine ⟨?_, ?_, ?_⟩
  · rintro ⟨_, _, -, same⟩
    contradiction
  · rintro ⟨_, _, -, same⟩
    contradiction
  · rintro ⟨_, _, _, isPower, same⟩
    obtain ⟨letter, tail, rfl, -⟩ := isPower.head
    contradiction

/-- A character that may stand behind a number. -/
def EndsAt (c : Char) : Prop := c.isDigit = false ∧ c ≠ '.' ∧ c ≠ 'e' ∧ c ≠ 'E'

/-- Nothing of a number goes on where another character stands. -/
theorem endsNumber_cons {c : Char} (ends : EndsAt c) (rest : List Char) :
    EndsNumber (c :: rest) := by
  obtain ⟨digit, point, lower, upper⟩ := ends
  refine ⟨?_, ?_, ?_⟩
  · rintro ⟨_, _, isDigit, same⟩
    cases same
    rw [digit] at isDigit
    contradiction
  · rintro ⟨_, _, -, same⟩
    cases same
    exact point rfl
  · rintro ⟨_, _, _, isPower, same⟩
    obtain ⟨letter, tail, rfl, marked⟩ := isPower.head
    cases same
    exact marked.elim lower upper

/-- Nothing of a number goes on behind blanks. -/
theorem endsNumber_append {before rest : List Char} (blanks : Blanks before)
    (ends : EndsNumber rest) : EndsNumber (before ++ rest) := by
  cases before with
  | nil => exact ends
  | cons c tail =>
    have blank := blanks c (by simp)
    apply endsNumber_cons
    simp only [isBlank, Bool.or_eq_true, decide_eq_true_eq] at blank
    rcases blank with ((rfl | rfl) | rfl) | rfl <;>
      exact ⟨rfl, by decide, by decide, by decide⟩

end EvalDesk.Json
