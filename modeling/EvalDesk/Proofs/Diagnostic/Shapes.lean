import EvalDesk.Diagnostic.Shape
import EvalDesk.Proofs.Text.Digits
import Mathlib.Data.List.Basic

/-!
# What the compiler writes

A place and the three shapes around it, given by how they are written, and the readers held to them:
each finds exactly what is written so. A warning and an error of compilation are looked for behind
other words. A warning can stand behind one choice of words only, since its word is followed by the
first comma; of several errors of compilation the leftmost one counts.
-/
namespace EvalDesk.Diagnostic

open Text (IsRun isSpace isDecimal isWord)

/-- No run of characters with the property goes on at the front. -/
def EndsRun (inside : Char → Bool) (rest : List Char) : Prop := ∀ c ∈ rest.head?, inside c = false

/-- No word goes on behind the text. -/
def EndsWord (text : List Char) : Prop := ∀ c ∈ text.getLast?, isWord c = false

/-! ## Runs and fixed texts -/

/-- A run at the front is found with all that belongs to it. -/
theorem run?_append {inside : Char → Bool} {run : List Char} (isRun : IsRun inside run)
    (rest : List Char) :
    run? inside (run ++ rest) = some (run ++ rest.takeWhile inside, rest.dropWhile inside) := by
  have filled : (run ++ rest.takeWhile inside).isEmpty = false :=
    List.isEmpty_eq_false_iff.mpr (List.append_ne_nil_of_left_ne_nil isRun.filled _)
  simp only [run?, List.takeWhile_append_of_pos isRun.inside,
    List.dropWhile_append_of_pos isRun.inside, filled, Bool.false_eq_true, ↓reduceIte]

/-- What is found is a run, and it ends where the rest starts. -/
theorem run?_eq_some_iff {inside : Char → Bool} {input run rest : List Char} :
    run? inside input = some (run, rest) ↔
      IsRun inside run ∧ EndsRun inside rest ∧ input = run ++ rest := by
  constructor
  · intro found
    simp only [run?] at found
    split at found
    · contradiction
    · rename_i filled
      cases found
      refine ⟨⟨by simpa using filled, List.all_eq_true.mp List.all_takeWhile⟩, ?_,
        List.takeWhile_append_dropWhile.symm⟩
      intro c front
      have stops := List.head?_dropWhile_not inside input
      rw [front] at stops
      simpa using stops
  · rintro ⟨isRun, ends, rfl⟩
    rw [run?_append isRun]
    cases rest with
    | nil => simp
    | cons c more => simp [ends c rfl]

/-- A fixed text is found where it is written. -/
theorem literal?_eq_some_iff {text : String} {input rest : List Char} :
    literal? text input = some rest ↔ input = text.toList ++ rest := by
  simp only [literal?]
  split
  · rename_i found
    obtain ⟨behind, rfl⟩ := List.isPrefixOf_iff_prefix.mp found
    rw [List.drop_left, Option.some.injEq, List.append_cancel_left_eq]
  · rename_i missing
    constructor
    · intro found
      contradiction
    · rintro rfl
      exact absurd (List.isPrefixOf_iff_prefix.mpr (List.prefix_append _ _)) missing

/-- Blanks are passed over to their end. -/
theorem blanks?_eq_some_iff {input rest : List Char} :
    blanks? input = some rest ↔
      EndsRun isSpace rest ∧ ∃ blanks, IsRun isSpace blanks ∧ input = blanks ++ rest := by
  simp only [blanks?, Option.map_eq_some_iff, Prod.exists, exists_eq_right, run?_eq_some_iff]
  constructor
  · rintro ⟨blanks, isRun, ends, parts⟩
    exact ⟨ends, blanks, isRun, parts⟩
  · rintro ⟨ends, blanks, isRun, parts⟩
    exact ⟨blanks, isRun, ends, parts⟩

/-- Blanks at the front are passed over. -/
theorem exists_blanks? {blanks : List Char} (isRun : IsRun isSpace blanks) (rest : List Char) :
    ∃ behind, blanks? (blanks ++ rest) = some behind := by
  rw [blanks?, run?_append isRun]
  exact ⟨_, rfl⟩

/-- A number behind a colon is found to its end. -/
theorem colonNumber?_eq_some_iff {input digits rest : List Char} :
    colonNumber? input = some (digits, rest) ↔
      IsRun isDecimal digits ∧ EndsRun isDecimal rest ∧ input = ':' :: (digits ++ rest) := by
  simp only [colonNumber?, Option.bind_eq_bind, Option.bind_eq_some_iff, literal?_eq_some_iff,
    run?_eq_some_iff]
  constructor
  · rintro ⟨_, rfl, isRun, ends, rfl⟩
    exact ⟨isRun, ends, rfl⟩
  · rintro ⟨isRun, ends, rfl⟩
    exact ⟨_, rfl, isRun, ends, rfl⟩

/-! ## Places -/

/-- How a place is written. -/
def Place.written (place : Place) : List Char :=
  place.file ++ ':' :: (place.line ++ place.column.elim [] (':' :: ·))

/-- A place that can be written: its parts are runs of characters of their kinds. -/
structure Place.IsProper (place : Place) : Prop where
  /-- The name of the file. -/
  file : IsRun isFileChar place.file
  /-- The digits of the line. -/
  line : IsRun isDecimal place.line
  /-- The digits of the column. -/
  column : ∀ digits ∈ place.column, IsRun isDecimal digits

/-- White space belongs to no name of a file. -/
theorem isFileChar_of_isSpace {c : Char} (space : isSpace c = true) : isFileChar c = false := by
  simp [isFileChar, space]

/-- A place does not start with a blank. -/
theorem Place.IsProper.endsRun {place : Place} (proper : place.IsProper) (rest : List Char) :
    EndsRun isSpace (place.written ++ rest) := by
  intro c front
  obtain ⟨filled, inside⟩ := proper.file
  cases file : place.file with
  | nil => exact absurd file filled
  | cons first more =>
    rw [written, file] at front
    cases (show some first = some c from front)
    have own := inside c (by rw [file]; exact .head _)
    by_contra space
    rw [isFileChar_of_isSpace (by simpa using space)] at own
    contradiction

/-- A colon belongs to no name of a file. -/
theorem endsRun_colon (rest : List Char) : EndsRun isFileChar (':' :: rest) := by
  rintro c ⟨rfl⟩
  decide

/-- A colon belongs to no number. -/
theorem endsRun_colon_digit (rest : List Char) : EndsRun isDecimal (':' :: rest) := by
  rintro c ⟨rfl⟩
  decide

/-- What is found as a place is written there, and everything that could belong to it does. -/
theorem place?_eq_some_iff {input rest : List Char} {place : Place} :
    place? input = some (place, rest) ↔
      place.IsProper ∧ EndsRun isDecimal rest ∧
        (place.column = none → colonNumber? rest = none) ∧ input = place.written ++ rest := by
  obtain ⟨file, line, column⟩ := place
  simp only [place?, Option.bind_eq_bind, Option.bind_eq_some_iff, Prod.exists, run?_eq_some_iff,
    colonNumber?_eq_some_iff]
  constructor
  · rintro ⟨file, _, ⟨isFile, _, rfl⟩, line, behind, ⟨isLine, ends, rfl⟩, found⟩
    cases number : colonNumber? behind with
    | some parts =>
      rw [number] at found
      cases found
      obtain ⟨isColumn, stops, rfl⟩ := colonNumber?_eq_some_iff.mp number
      refine ⟨⟨isFile, isLine, ?_⟩, stops, by simp, ?_⟩
      · rintro digits ⟨rfl⟩
        exact isColumn
      · simp [Place.written]
    | none =>
      rw [number] at found
      cases found
      refine ⟨⟨isFile, isLine, by simp⟩, ends, fun _ => number, ?_⟩
      simp [Place.written]
  · rintro ⟨⟨isFile, isLine, isColumn⟩, ends, alone, rfl⟩
    cases column with
    | some digits =>
      have number : colonNumber? (':' :: (digits ++ rest)) = some (digits, rest) :=
        colonNumber?_eq_some_iff.mpr ⟨isColumn digits rfl, ends, rfl⟩
      refine ⟨file, _, ⟨isFile, endsRun_colon _, ?_⟩, line, ':' :: (digits ++ rest),
        ⟨isLine, endsRun_colon_digit _, rfl⟩, by rw [number]; rfl⟩
      simp [Place.written]
    | none =>
      refine ⟨file, _, ⟨isFile, endsRun_colon _, ?_⟩, line, rest, ⟨isLine, ends, rfl⟩,
        by rw [alone rfl]; rfl⟩
      simp [Place.written]

/-- A place in front of a bracket that closes is found up to the bracket. -/
theorem place?_closed {place : Place} (proper : place.IsProper) (rest : List Char) :
    place? (place.written ++ ')' :: rest) = some (place, ')' :: rest) := by
  have apart : colonNumber? (')' :: rest) = none := by
    by_contra found
    obtain ⟨⟨digits, behind⟩, number⟩ := Option.ne_none_iff_exists'.mp found
    cases (colonNumber?_eq_some_iff.mp number).2.2
  refine place?_eq_some_iff.mpr ⟨proper, ?_, fun _ => apart, rfl⟩
  rintro c ⟨rfl⟩
  decide

/-! ## Looking for a shape behind words -/

section Seeking

variable {α : Type} (here : List Char → Option α) (goesOn : Char → Bool)

/-- Look for a shape from the front on: `before` is the character before the input. It starts where
no word goes on, and only characters with a property are passed over. -/
def seek? (before : Option Char) : List Char → Option α
  | [] => none
  | c :: rest =>
    match if before.any isWord then none else here (c :: rest) with
    | some found => some found
    | none => if goesOn c then seek? (some c) rest else none

/-- A shape stands behind words that may be passed over, at a place where no word goes on. -/
structure StandsBehind (before : Option Char) (input words : List Char) (found : α) : Prop where
  /-- The words have characters with the property only. -/
  inside : ∀ c ∈ words, goesOn c = true
  /-- No word goes on behind them. -/
  apart : EndsWord (before.toList ++ words)
  /-- The shape starts right behind them. -/
  parts : ∃ tail, input = words ++ tail ∧ here tail = some found

variable {here goesOn} {before : Option Char} {c : Char} {rest words : List Char} {found : α}

/-- A shape at the front. -/
theorem standsBehind_nil {input : List Char} :
    StandsBehind here goesOn before input [] found ↔
      (if before.any isWord then none else here input) = some found := by
  have parts : (∃ tail, input = [] ++ tail ∧ here tail = some found) ↔ here input = some found := by
    simp
  have apart : EndsWord (before.toList ++ []) ↔ before.any isWord = false := by
    cases before <;> simp [EndsWord]
  constructor
  · rintro ⟨_, boundary, stands⟩
    rw [apart.mp boundary, if_neg Bool.false_ne_true]
    exact parts.mp stands
  · intro stands
    split at stands
    · contradiction
    · rename_i boundary
      exact ⟨by simp, apart.mpr (by simpa using boundary), parts.mpr stands⟩

/-- A shape behind a first character. -/
theorem standsBehind_cons :
    StandsBehind here goesOn before (c :: rest) (c :: words) found ↔
      goesOn c = true ∧ StandsBehind here goesOn (some c) rest words found := by
  have apart : EndsWord (before.toList ++ c :: words) ↔ EndsWord ((some c).toList ++ words) := by
    rw [EndsWord, EndsWord, List.getLast?_append_of_ne_nil _ (List.cons_ne_nil c words)]
    rfl
  constructor
  · rintro ⟨inside, boundary, tail, parts, stands⟩
    exact ⟨inside c (.head _), fun other member => inside other (.tail _ member),
      apart.mp boundary, tail, (List.cons.inj parts).2, stands⟩
  · rintro ⟨own, inside, boundary, tail, rfl, stands⟩
    exact ⟨List.forall_mem_cons.mpr ⟨own, inside⟩, apart.mpr boundary, tail, rfl, stands⟩

/-- What is found is the shape that stands behind the fewest words. -/
theorem seek?_eq_some_iff (empty : here [] = none) {input : List Char} :
    seek? here goesOn before input = some found ↔
      ∃ words, StandsBehind here goesOn before input words found ∧
        ∀ fewer other, StandsBehind here goesOn before input fewer other →
          words.length ≤ fewer.length := by
  induction input generalizing before with
  | nil =>
    constructor
    · intro sought
      contradiction
    · rintro ⟨words, ⟨_, _, tail, parts, stands⟩, _⟩
      rw [(List.nil_eq_append_iff.mp parts).2, empty] at stands
      contradiction
  | cons c rest ih =>
    rw [seek?]
    cases front : if before.any isWord then none else here (c :: rest) with
    | some first =>
      have own : StandsBehind here goesOn before (c :: rest) [] first := standsBehind_nil.mpr front
      constructor
      · rintro ⟨rfl⟩
        exact ⟨[], own, fun _ _ _ => Nat.zero_le _⟩
      · rintro ⟨words, stands, least⟩
        cases List.eq_nil_of_length_eq_zero (Nat.le_zero.mp (least [] first own))
        exact front.symm.trans (standsBehind_nil.mp stands)
    | none =>
      have further : ∀ words other, StandsBehind here goesOn before (c :: rest) words other →
          ∃ more, words = c :: more := by
        rintro words other stands
        cases words with
        | nil =>
          rw [standsBehind_nil, front] at stands
          contradiction
        | cons first more =>
          obtain ⟨tail, parts, _⟩ := stands.parts
          exact ⟨more, by rw [(List.cons.inj parts).1]⟩
      simp only
      split
      · rename_i passes
        rw [ih]
        constructor
        · rintro ⟨words, stands, least⟩
          refine ⟨c :: words, standsBehind_cons.mpr ⟨passes, stands⟩, fun fewer other known => ?_⟩
          obtain ⟨more, rfl⟩ := further fewer other known
          exact Nat.succ_le_succ (least more other (standsBehind_cons.mp known).2)
        · rintro ⟨words, stands, least⟩
          obtain ⟨more, rfl⟩ := further words found stands
          refine ⟨more, (standsBehind_cons.mp stands).2, fun fewer other known => ?_⟩
          exact Nat.le_of_succ_le_succ (least (c :: fewer) other
            (standsBehind_cons.mpr ⟨passes, known⟩))
      · rename_i stops
        constructor
        · intro sought
          contradiction
        · rintro ⟨words, stands, _⟩
          obtain ⟨more, rfl⟩ := further words found stands
          exact absurd (standsBehind_cons.mp stands).1 stops

/-- A shape that stands behind words lets something be found. -/
theorem StandsBehind.exists_seek? {input : List Char} (empty : here [] = none)
    (stands : StandsBehind here goesOn before input words found) :
    ∃ first, seek? here goesOn before input = some first := by
  induction words generalizing before input with
  | nil =>
    have front := standsBehind_nil.mp stands
    cases input with
    | nil =>
      rw [empty, ite_self] at front
      contradiction
    | cons c rest => exact ⟨found, by rw [seek?, front]⟩
  | cons c more ih =>
    obtain ⟨tail, rfl, _⟩ := id stands.parts
    obtain ⟨passes, behind⟩ := standsBehind_cons.mp stands
    rw [List.cons_append, seek?]
    split
    · exact ⟨_, rfl⟩
    · rw [if_pos passes]
      exact ih behind

end Seeking

/-! ## Warnings -/

/-- The words of a warning. -/
def warningWords : List (List Char) := ["warning".toList, "Warning".toList]

/-- The word of a warning and its place, written at the front of a text: behind the word a comma,
blanks and the place, with a column that is told to its last digit. -/
inductive WritesWarning (word : List Char) (place : Place) : List Char → Prop where
  /-- The text is put together so. -/
  | intro {blanks rest : List Char} (isWord : word ∈ warningWords) (isBlank : IsRun isSpace blanks)
      (proper : place.IsProper) (column : place.column.isSome = true)
      (ends : EndsRun isDecimal rest) :
      WritesWarning word place (word ++ ',' :: (blanks ++ (place.written ++ rest)))

/-- A word of a warning has seven letters and no comma. -/
theorem word_of_mem_warningWords {word : List Char} (isWord : word ∈ warningWords) :
    word.length = 7 ∧ ',' ∉ word := by
  have each : ∀ word ∈ warningWords, word.length = 7 ∧ ',' ∉ word := by decide
  exact each word isWord

/-- A warning is found at the front exactly when it is written there. -/
theorem warningHere?_eq_some_iff {input word : List Char} {place : Place} :
    warningHere? input = some (word, place) ↔ WritesWarning word place input := by
  constructor
  · intro found
    simp only [warningHere?, Option.bind_eq_bind] at found
    split at found
    · contradiction
    rename_i isWord
    simp only [Option.pure_def, Option.bind_eq_some_iff, literal?_eq_some_iff,
      blanks?_eq_some_iff, Prod.exists, place?_eq_some_iff] at found
    obtain ⟨_, comma, _, ⟨_, blanks, isBlank, rfl⟩, place, rest, placed, last⟩ := found
    obtain ⟨proper, ends, _, rfl⟩ := placed
    split at last
    · contradiction
    rename_i column
    cases last
    have parts : input = input.take 7 ++ ',' :: (blanks ++ (place.written ++ rest)) := by
      conv_lhs => rw [← List.take_append_drop 7 input, comma]
      rfl
    have known : input.take 7 ∈ warningWords := by
      simpa [warningWords, or_iff_not_imp_left] using isWord
    have told : place.column.isSome = true := by simpa [Option.isSome_iff_ne_none] using column
    have writes := WritesWarning.intro known isBlank proper told ends
    rwa [← parts] at writes
  · rintro ⟨isWord, isBlank, proper, column, ends⟩
    rename_i blanks rest
    obtain ⟨length, _⟩ := word_of_mem_warningWords isWord
    have taken : (word ++ ',' :: (blanks ++ (place.written ++ rest))).take 7 = word := by
      rw [← length, List.take_left]
    have dropped : (word ++ ',' :: (blanks ++ (place.written ++ rest))).drop 7 =
        ',' :: (blanks ++ (place.written ++ rest)) := by
      rw [← length, List.drop_left]
    have comma : literal? "," (',' :: (blanks ++ (place.written ++ rest))) =
        some (blanks ++ (place.written ++ rest)) := literal?_eq_some_iff.mpr rfl
    have passed : blanks? (blanks ++ (place.written ++ rest)) = some (place.written ++ rest) :=
      blanks?_eq_some_iff.mpr ⟨proper.endsRun rest, blanks, isBlank, rfl⟩
    have placed : place? (place.written ++ rest) = some (place, rest) :=
      place?_eq_some_iff.mpr ⟨proper, ends, fun missing => by simp [missing] at column, rfl⟩
    have known : ¬(word ≠ "warning".toList ∧ word ≠ "Warning".toList) := by
      simpa [warningWords, or_iff_not_imp_left] using isWord
    have located : place.column.isNone = false := by simpa using column
    simp only [warningHere?, taken, dropped, comma, passed, placed, if_neg known, located,
      Option.bind_eq_bind, Option.bind_some, Bool.false_eq_true, ↓reduceIte, Option.pure_def]

/-- Where a warning is written the first comma stands behind its word. -/
theorem WritesWarning.idxOf {word : List Char} {place : Place} {input : List Char}
    (writes : WritesWarning word place input) : input.idxOf ',' = 7 := by
  obtain ⟨isWord, _, _, _, _⟩ := writes
  obtain ⟨length, clear⟩ := word_of_mem_warningWords isWord
  rw [List.idxOf_append_of_notMem clear, length, List.idxOf_cons_self]

/-- The words in front of a warning have as many characters as stand in front of the first comma,
less the seven of its own word. -/
theorem WritesWarning.idxOf_append {word : List Char} {place : Place} {words tail : List Char}
    (inside : ∀ c ∈ words, isWord c = true ∨ c = ' ') (writes : WritesWarning word place tail) :
    (words ++ tail).idxOf ',' = words.length + 7 := by
  have clear : ',' ∉ words := by
    intro member
    have apart := inside ',' member
    revert apart
    decide
  rw [List.idxOf_append_of_notMem clear, writes.idxOf]

/-- A text that warns: behind words and spaces, at a place where no word goes on, a warning is
written. -/
def Warns (word : List Char) (place : Place) (input : List Char) : Prop :=
  ∃ words tail, input = words ++ tail ∧ (∀ c ∈ words, isWord c = true ∨ c = ' ') ∧
    EndsWord words ∧ WritesWarning word place tail

/-- A warning is looked for behind word characters and spaces. -/
theorem warning?_eq_seek? (before : Option Char) (input : List Char) :
    warning? before input = seek? warningHere? (fun c => isWord c || c = ' ') before input := by
  induction input generalizing before with
  | nil => rfl
  | cons c rest ih =>
    rw [warning?, seek?, ih (some c)]
    cases if before.any isWord then none else warningHere? (c :: rest) <;> rfl

/-- A warning is found exactly in a text that warns. -/
theorem warning?_eq_some_iff {input word : List Char} {place : Place} :
    warning? none input = some (word, place) ↔ Warns word place input := by
  rw [warning?_eq_seek?, seek?_eq_some_iff rfl]
  constructor
  · rintro ⟨words, ⟨inside, apart, tail, parts, stands⟩, _⟩
    exact ⟨words, tail, parts, by simpa using inside, apart, warningHere?_eq_some_iff.mp stands⟩
  · rintro ⟨words, tail, rfl, inside, apart, writes⟩
    refine ⟨words, ⟨by simpa using inside, apart, tail, rfl, warningHere?_eq_some_iff.mpr writes⟩,
      ?_⟩
    -- The first comma tells how many words stand in front of a warning.
    rintro fewer ⟨other, elsewhere⟩ ⟨passed, _, more, parts, stands⟩
    have first := (warningHere?_eq_some_iff.mp stands).idxOf_append (by simpa using passed)
    rw [← parts, writes.idxOf_append inside] at first
    omega

/-- No warning is found exactly in a text that does not warn. -/
theorem warning?_eq_none_iff {input : List Char} :
    warning? none input = none ↔ ∀ word place, ¬Warns word place input := by
  simp only [Option.eq_none_iff_forall_ne_some, ne_eq, Prod.forall, warning?_eq_some_iff]

/-! ## Errors of compilation -/

/-- The place of an error of compilation, written at the front of a text: behind the word a colon,
or `at` between blanks, and then the place between parentheses. -/
inductive WritesCompiling (place : Place) : List Char → Prop where
  /-- With a colon. -/
  | colon {rest : List Char} (proper : place.IsProper) :
      WritesCompiling place ("compiling:(".toList ++ (place.written ++ ')' :: rest))
  /-- With `at`. -/
  | at {before behind rest : List Char} (isBefore : IsRun isSpace before)
      (isBehind : IsRun isSpace behind) (proper : place.IsProper) :
      WritesCompiling place ("compiling".toList ++ (before ++ ("at".toList ++
        (behind ++ '(' :: (place.written ++ ')' :: rest)))))

/-- What is left behind a colon, or behind `at` between blanks. -/
def link? (input : List Char) : Option (List Char) :=
  match literal? ":" input with
  | some rest => some rest
  | none => do blanks? (← literal? "at" (← blanks? input))

/-- A place between parentheses at the front. -/
def enclosed? (input : List Char) : Option Place := do
  let (place, rest) ← place? (← literal? "(" input)
  let _ ← literal? ")" rest
  return place

/-- A link is found where it is written. -/
theorem link?_eq_some_iff {input rest : List Char} :
    link? input = some rest ↔ input = ':' :: rest ∨ EndsRun isSpace rest ∧ ∃ before behind,
      IsRun isSpace before ∧ IsRun isSpace behind ∧
        input = before ++ ("at".toList ++ (behind ++ rest)) := by
  constructor
  · intro found
    rw [link?] at found
    split at found
    · rename_i colon
      cases found
      exact .inl (literal?_eq_some_iff.mp colon)
    · simp only [Option.bind_eq_bind, Option.bind_eq_some_iff, literal?_eq_some_iff,
        blanks?_eq_some_iff] at found
      obtain ⟨_, ⟨_, before, isBefore, rfl⟩, _, rfl, ends, behind, isBehind, rfl⟩ := found
      exact .inr ⟨ends, before, behind, isBefore, isBehind, rfl⟩
  · rintro (rfl | ⟨ends, before, behind, isBefore, isBehind, rfl⟩)
    · have colon : literal? ":" (':' :: rest) = some rest := literal?_eq_some_iff.mpr rfl
      rw [link?, colon]
    · have unmarked : literal? ":" (before ++ ("at".toList ++ (behind ++ rest))) = none := by
        by_contra found
        obtain ⟨after, colon⟩ := Option.ne_none_iff_exists'.mp found
        have same := literal?_eq_some_iff.mp colon
        obtain ⟨filled, inside⟩ := isBefore
        cases before with
        | nil => contradiction
        | cons c more =>
          have colon : c = ':' := (List.cons.inj same).1
          rw [colon] at inside
          exact absurd (inside ':' (.head _)) (by decide)
      have first : blanks? (before ++ ("at".toList ++ (behind ++ rest))) =
          some ("at".toList ++ (behind ++ rest)) := by
        refine blanks?_eq_some_iff.mpr ⟨?_, before, isBefore, rfl⟩
        rintro c ⟨rfl⟩
        decide
      have word : literal? "at" ("at".toList ++ (behind ++ rest)) = some (behind ++ rest) :=
        literal?_eq_some_iff.mpr rfl
      have second : blanks? (behind ++ rest) = some rest :=
        blanks?_eq_some_iff.mpr ⟨ends, behind, isBehind, rfl⟩
      simp only [link?, unmarked, first, word, second, Option.bind_eq_bind, Option.bind_some]

/-- A place between parentheses is found where it is written. -/
theorem enclosed?_eq_some_iff {input : List Char} {place : Place} :
    enclosed? input = some place ↔
      place.IsProper ∧ ∃ rest, input = '(' :: (place.written ++ ')' :: rest) := by
  constructor
  · intro found
    simp only [enclosed?, Option.bind_eq_bind, Option.bind_eq_some_iff, literal?_eq_some_iff,
      Prod.exists, place?_eq_some_iff] at found
    obtain ⟨_, rfl, _, _, ⟨proper, _, _, rfl⟩, rest, rfl, same⟩ := found
    cases same
    exact ⟨proper, rest, rfl⟩
  · rintro ⟨proper, rest, rfl⟩
    have opens : literal? "(" ('(' :: (place.written ++ ')' :: rest)) =
        some (place.written ++ ')' :: rest) := literal?_eq_some_iff.mpr rfl
    have closes : literal? ")" (')' :: rest) = some rest := literal?_eq_some_iff.mpr rfl
    simp only [enclosed?, opens, place?_closed proper, closes, Option.bind_eq_bind,
      Option.bind_some, Option.pure_def]

/-- The reader of an error of compilation reads the word, a link and a place between
parentheses. -/
theorem compilingHere?_eq (input : List Char) :
    compilingHere? input =
      ((literal? "compiling" input).bind link?).bind enclosed? := by
  rw [compilingHere?]
  cases literal? "compiling" input with
  | none => rfl
  | some rest =>
    simp only [Option.bind_eq_bind, Option.bind_some, link?]
    cases literal? ":" rest with
    | some behind => rfl
    | none =>
      simp only [Option.bind_assoc]
      rfl

/-- An error of compilation is found at the front exactly when it is written there. -/
theorem compilingHere?_eq_some_iff {input : List Char} {place : Place} :
    compilingHere? input = some place ↔ WritesCompiling place input := by
  simp only [compilingHere?_eq, Option.bind_eq_some_iff, literal?_eq_some_iff, link?_eq_some_iff,
    enclosed?_eq_some_iff]
  constructor
  · rintro ⟨_, ⟨_, rfl, link⟩, proper, rest, rfl⟩
    rcases link with rfl | ⟨_, before, behind, isBefore, isBehind, rfl⟩
    · exact .colon proper
    · exact .at isBefore isBehind proper
  · rintro (proper | ⟨isBefore, isBehind, proper⟩)
    · exact ⟨_, ⟨_, rfl, .inl rfl⟩, proper, _, rfl⟩
    · refine ⟨_, ⟨_, rfl, .inr ⟨?_, _, _, isBefore, isBehind, rfl⟩⟩, proper, _, rfl⟩
      rintro c ⟨rfl⟩
      decide

/-- A text that tells of an error of compilation: behind words on its first line, at a place where
no word goes on, one is written. -/
structure Complains (words : List Char) (place : Place) (input : List Char) : Prop where
  /-- The words stand on the first line. -/
  line : '\n' ∉ words
  /-- No word goes on behind them. -/
  apart : EndsWord words
  /-- The error is written right behind them. -/
  parts : ∃ tail, input = words ++ tail ∧ WritesCompiling place tail

/-- An error of compilation is looked for from the front of the first line on. -/
theorem compiling?_eq_seek? (before : Option Char) (input : List Char) :
    compiling? before input = seek? compilingHere? (fun c => c ≠ '\n') before input := by
  induction input generalizing before with
  | nil => rfl
  | cons c rest ih =>
    rw [compiling?, seek?, ih (some c)]
    cases if before.any isWord then none else compilingHere? (c :: rest) with
    | some found => rfl
    | none => by_cases feed : c = '\n' <;> simp [feed]

/-- A text tells of an error of compilation behind words exactly where its shape stands. -/
theorem complains_iff {input words : List Char} {place : Place} :
    Complains words place input ↔
      StandsBehind compilingHere? (fun c => c ≠ '\n') none input words place := by
  constructor
  · rintro ⟨line, apart, tail, parts, writes⟩
    refine ⟨fun c member => ?_, apart, tail, parts, compilingHere?_eq_some_iff.mpr writes⟩
    simpa using fun same : c = '\n' => line (same ▸ member)
  · rintro ⟨inside, apart, tail, parts, here⟩
    exact ⟨fun member => by simpa using inside '\n' member, apart, tail, parts,
      compilingHere?_eq_some_iff.mp here⟩

/-- An error of compilation is found exactly where a text tells of one behind the fewest words. -/
theorem compiling?_eq_some_iff {input : List Char} {place : Place} :
    compiling? none input = some place ↔ ∃ words, Complains words place input ∧
      ∀ fewer other, Complains fewer other input → words.length ≤ fewer.length := by
  rw [compiling?_eq_seek?, seek?_eq_some_iff rfl]
  simp only [complains_iff]

/-- No error of compilation is found exactly in a text that tells of none. -/
theorem compiling?_eq_none_iff {input : List Char} :
    compiling? none input = none ↔ ∀ words place, ¬Complains words place input := by
  constructor
  · intro missing words place complains
    obtain ⟨first, found⟩ := (complains_iff.mp complains).exists_seek? rfl
    rw [← compiling?_eq_seek?, missing] at found
    contradiction
  · intro silent
    rw [Option.eq_none_iff_forall_ne_some]
    intro place found
    obtain ⟨words, complains, _⟩ := compiling?_eq_some_iff.mp found
    exact silent words place complains

/-! ## Places at the front -/

/-- A place with a message behind it, written at the front of a text: between them stands a colon
with blanks behind it, or a hyphen between blanks. -/
inductive WritesLocated (place : Place) : List Char → Prop where
  /-- With a colon. -/
  | colon {blanks rest : List Char} (proper : place.IsProper) (isBlank : IsRun isSpace blanks) :
      WritesLocated place (place.written ++ ':' :: (blanks ++ rest))
  /-- With a hyphen. -/
  | hyphen {before behind rest : List Char} (proper : place.IsProper)
      (isBefore : IsRun isSpace before) (isBehind : IsRun isSpace behind) :
      WritesLocated place (place.written ++ (before ++ '-' :: (behind ++ rest)))

/-- A character that a run starts with. -/
theorem exists_head {inside : Char → Bool} {run : List Char} (isRun : IsRun inside run) :
    ∃ c more, run = c :: more ∧ inside c = true := by
  cases run with
  | nil => exact absurd rfl isRun.filled
  | cons c more => exact ⟨c, more, rfl, isRun.inside c (.head _)⟩

/-- A place with a message is found at the front exactly when it is written there. -/
theorem located?_eq_some_iff {input : List Char} {place : Place} :
    located? input = some place ↔ WritesLocated place input := by
  constructor
  · intro found
    simp only [located?, Option.bind_eq_bind, Option.bind_eq_some_iff, Prod.exists,
      place?_eq_some_iff] at found
    obtain ⟨_, rest, ⟨proper, _, _, rfl⟩, message, separated, same⟩ := found
    cases same
    rw [separator?] at separated
    split at separated
    · rename_i colon
      obtain ⟨_, blanks, isBlank, rfl⟩ := blanks?_eq_some_iff.mp separated
      have parts : rest = ':' :: (blanks ++ message) := literal?_eq_some_iff.mp colon
      rw [parts]
      exact .colon proper isBlank
    · simp only [Option.bind_eq_bind, Option.bind_eq_some_iff, literal?_eq_some_iff,
        blanks?_eq_some_iff] at separated
      obtain ⟨after, ⟨_, before, isBefore, rfl⟩, _, hyphen, _, behind, isBehind, rfl⟩ := separated
      have parts : after = '-' :: (behind ++ message) := hyphen
      rw [parts]
      exact .hyphen proper isBefore isBehind
  · rintro (⟨proper, isBlank⟩ | ⟨proper, isBefore, isBehind⟩)
    · rename_i blanks rest
      obtain ⟨behind, passed⟩ := exists_blanks? isBlank rest
      obtain ⟨first, more, rfl, space⟩ := exists_head isBlank
      have placed : place? (place.written ++ ':' :: (first :: more ++ rest)) =
          some (place, ':' :: (first :: more ++ rest)) := by
        refine place?_eq_some_iff.mpr ⟨proper, endsRun_colon_digit _, fun _ => ?_, rfl⟩
        by_contra found
        obtain ⟨⟨digits, after⟩, number⟩ := Option.ne_none_iff_exists'.mp found
        obtain ⟨isNumber, _, same⟩ := colonNumber?_eq_some_iff.mp number
        obtain ⟨digit, others, rfl, decimal⟩ := exists_head isNumber
        have own : first = digit := (List.cons.inj (List.cons.inj same).2).1
        rw [← own, Text.isDecimal_of_isSpace space] at decimal
        contradiction
      have colon : literal? ":" (':' :: (first :: more ++ rest)) = some (first :: more ++ rest) :=
        literal?_eq_some_iff.mpr rfl
      simp only [located?, placed, separator?, colon, passed, Option.bind_eq_bind,
        Option.bind_some, Option.pure_def]
    · rename_i before behind rest
      obtain ⟨after, passed⟩ := exists_blanks? isBehind rest
      obtain ⟨first, more, rfl, space⟩ := exists_head isBefore
      have apart : first ≠ ':' := by
        rintro rfl
        exact absurd space (by decide)
      have unmarked : ∀ rest, literal? ":" (first :: more ++ rest) = none := by
        intro rest
        by_contra found
        obtain ⟨after, colon⟩ := Option.ne_none_iff_exists'.mp found
        exact apart (List.cons.inj (literal?_eq_some_iff.mp colon)).1
      have placed : place? (place.written ++ (first :: more ++ '-' :: (behind ++ rest))) =
          some (place, first :: more ++ '-' :: (behind ++ rest)) := by
        refine place?_eq_some_iff.mpr ⟨proper, ?_, fun _ => ?_, rfl⟩
        · rintro c ⟨rfl⟩
          exact Text.isDecimal_of_isSpace space
        · rw [colonNumber?, unmarked]
          rfl
      have skipped : blanks? (first :: more ++ '-' :: (behind ++ rest)) =
          some ('-' :: (behind ++ rest)) := by
        refine blanks?_eq_some_iff.mpr ⟨?_, first :: more, isBefore, rfl⟩
        rintro c ⟨rfl⟩
        decide
      have hyphen : literal? "-" ('-' :: (behind ++ rest)) = some (behind ++ rest) :=
        literal?_eq_some_iff.mpr rfl
      simp only [located?, placed, separator?, unmarked, skipped, hyphen, passed,
        Option.bind_eq_bind, Option.bind_some, Option.pure_def]

end EvalDesk.Diagnostic
