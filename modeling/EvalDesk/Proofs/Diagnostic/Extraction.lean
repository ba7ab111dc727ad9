import EvalDesk.Proofs.Diagnostic.Shapes

/-!
# What a line of error output tells

A line tells a severity and a place when it is written in one of the shapes of the compiler, and of
several shapes the first counts. The diagnostic is read off the place: the name of the file, unless
it stands for code that was not read from one, and the numbers that the digits write. What has none
of the shapes tells nothing; a number that is too long is told as such.
-/
namespace EvalDesk.Diagnostic

open Text (IsRun isSpace isDecimal number maximalDigits)

/-- What a text tells that starts with no blank. -/
inductive Tells (input : List Char) : Severity → Place → Prop where
  /-- A warning. -/
  | warning {word : List Char} {place : Place} (warns : Warns word place input) :
      Tells input .warning place
  /-- The leftmost error of compilation of a text that does not warn. -/
  | compileError {words : List Char} {place : Place}
      (calm : ∀ word other, ¬Warns word other input) (complains : Complains words place input)
      (least : ∀ fewer other, Complains fewer other input → words.length ≤ fewer.length) :
      Tells input .compileError place
  /-- A place with a message, in a text that tells nothing else. -/
  | error {place : Place} (calm : ∀ word other, ¬Warns word other input)
      (compiles : ∀ words other, ¬Complains words other input)
      (located : WritesLocated place input) : Tells input .error place

/-- The name of a file, none when it stands for code that was not read from one. -/
def fileOf (name : List Char) : Option String :=
  if String.ofList name ∈ ["NO_SOURCE_PATH", "NO_SOURCE_FILE", "REPL"] then none
  else some (String.ofList name)

/-- What comes of a text that tells a severity and a place: a diagnostic, unless the line or else
the column has too many digits. -/
def told (severity : Severity) (place : Place) (text : String) :
    Except Fault (Option Diagnostic) :=
  if maximalDigits < place.line.length then
    .error (.malformedDiagnostic "line" (String.ofList place.line) text)
  else
    match place.column.filter (maximalDigits < ·.length) with
    | some digits => .error (.malformedDiagnostic "column" (String.ofList digits) text)
    | none =>
      .ok (some {
        line := number place.line
        severity
        message := text
        file := fileOf place.file
        column := place.column.map fun digits => (number digits : Int) })

/-- The shape that counts: its severity and place. -/
def shape? (input : List Char) : Option (Severity × Place) :=
  match warning? none input with
  | some (_, place) => some (.warning, place)
  | none =>
    match compiling? none input with
    | some place => some (.compileError, place)
    | none => (located? input).map (.error, ·)

/-- The shape that counts tells its severity and place. -/
theorem shape?_eq_some_iff {input : List Char} {severity : Severity} {place : Place} :
    shape? input = some (severity, place) ↔ Tells input severity place := by
  rw [shape?]
  cases warned : warning? none input with
  | some found =>
    obtain ⟨word, first⟩ := found
    have warns := warning?_eq_some_iff.mp warned
    constructor
    · rintro ⟨rfl⟩
      exact .warning warns
    · rintro (other | ⟨calm, _, _⟩ | ⟨calm, _, _⟩)
      · rw [warning?_eq_some_iff.mpr other] at warned
        cases warned
        rfl
      · exact absurd warns (calm word first)
      · exact absurd warns (calm word first)
  | none =>
    have calm := warning?_eq_none_iff.mp warned
    cases compiled : compiling? none input with
    | some first =>
      obtain ⟨words, complains, least⟩ := compiling?_eq_some_iff.mp compiled
      constructor
      · rintro ⟨rfl⟩
        exact .compileError calm complains least
      · rintro (warns | ⟨_, other, leftmost⟩ | ⟨_, silent, _⟩)
        · exact absurd warns (calm _ _)
        · rw [compiling?_eq_some_iff.mpr ⟨_, other, leftmost⟩] at compiled
          cases compiled
          rfl
        · exact absurd complains (silent words first)
    | none =>
      have silent := compiling?_eq_none_iff.mp compiled
      constructor
      · intro found
        obtain ⟨first, located, same⟩ := Option.map_eq_some_iff.mp found
        cases same
        exact .error calm silent (located?_eq_some_iff.mp located)
      · rintro (warns | ⟨_, complains, _⟩ | ⟨_, _, located⟩)
        · exact absurd warns (calm _ _)
        · exact absurd complains (silent _ _)
        · rw [located?_eq_some_iff.mpr located]
          rfl

/-- A place that a shape tells is one that can be written. -/
theorem Tells.proper {input : List Char} {severity : Severity} {place : Place}
    (tells : Tells input severity place) : place.IsProper := by
  rcases tells with ⟨_, _, _, _, _, writes⟩ | ⟨_, ⟨_, _, _, _, writes⟩, _⟩ | ⟨_, _, writes⟩
  · cases writes
    assumption
  · cases writes <;> assumption
  · cases writes <;> assumption

/-! ## From the shape to the diagnostic -/

/-- The digits of a number are read as the number, unless they are too many. -/
theorem numberOf_digits {digits : List Char} (run : IsRun isDecimal digits) (field text : String) :
    numberOf field text (some digits) =
      if maximalDigits < digits.length then
        .error (.malformedDiagnostic field (String.ofList digits) text)
      else .ok (some (number digits : Int)) := by
  rw [numberOf, Text.readInteger_digits run]
  by_cases long : maximalDigits < digits.length
  · rw [if_pos long, if_pos long]
  · rw [if_neg long, if_neg long]

/-- The parts of a shape of a severity under their numbers; `word` is the one that marks it. -/
def capturesFor (severity : Severity) (word : List Char) (place : Place) : Captures :=
  match severity with
  | .warning => capturesOf (some (1, word)) 2 place
  | .compileError => capturesOf (some (5, word)) 6 place
  | .error => capturesOf none 9 place

/-- The parts that are captured are those of the shape that counts. -/
theorem compilerCaptures?_eq (text : List Char) :
    (∃ severity place word, shape? (text.dropWhile isSpace) = some (severity, place) ∧
      word ≠ [] ∧ compilerCaptures? text = some (capturesFor severity word place)) ∨
    shape? (text.dropWhile isSpace) = none ∧ compilerCaptures? text = none := by
  simp only [shape?, compilerCaptures?]
  cases warned : warning? none (text.dropWhile isSpace) with
  | some found =>
    obtain ⟨word, place⟩ := found
    obtain ⟨_, _, _, _, _, isWord, _⟩ := warning?_eq_some_iff.mp warned
    refine .inl ⟨.warning, place, word, rfl, List.ne_nil_of_length_pos ?_, rfl⟩
    rw [(word_of_mem_warningWords isWord).1]
    decide
  | none =>
    cases compiled : compiling? none (text.dropWhile isSpace) with
    | some place => exact .inl ⟨.compileError, place, "compiling".toList, rfl, by decide, rfl⟩
    | none =>
      cases located? (text.dropWhile isSpace) with
      | some place => exact .inl ⟨.error, place, "error".toList, rfl, by decide, rfl⟩
      | none => exact .inr ⟨rfl, rfl⟩

section Captures

variable {severity : Severity} {word : List Char} (filled : word ≠ []) (place : Place)

/-- The place is found in the parts of a shape. -/
theorem firstPart?_capturesFor :
    firstPart? (capturesFor severity word place) compilerPattern.fileParts = some place.file ∧
      firstPart? (capturesFor severity word place) compilerPattern.lineParts = some place.line ∧
      firstPart? (capturesFor severity word place) compilerPattern.columnParts = place.column := by
  obtain ⟨file, line, column⟩ := place
  cases severity <;> exact ⟨rfl, rfl, by cases column <;> rfl⟩

include filled in
/-- The severity is found in the parts of a shape. -/
theorem severity_capturesFor :
    (if isMarked (capturesFor severity word place) compilerPattern.warningPart then Severity.warning
      else if isMarked (capturesFor severity word place) compilerPattern.compilingPart then
        .compileError
      else .error) = severity := by
  cases severity <;> simp [isMarked, capturesFor, compilerPattern, capturesOf, filled]

end Captures

/-- A line tells what the shape that counts tells. -/
theorem extract_eq (text : String) : extract text =
    match shape? (text.toList.dropWhile isSpace) with
    | some (severity, place) => told severity place text
    | none => .ok none := by
  rcases compilerCaptures?_eq text.toList with
    ⟨severity, place, word, shape, filled, captured⟩ | ⟨shape, captured⟩
  · have proper := (shape?_eq_some_iff.mp shape).proper
    have opened : compilerPattern.captures? text.toList =
      some (capturesFor severity word place) := captured
    obtain ⟨file, line, column⟩ := @firstPart?_capturesFor severity word place
    have unnamed : ¬String.ofList place.file = "" := fun empty =>
      proper.file.filled (String.ofList_injective empty)
    have sentinels : (String.ofList place.file = "" ∨
        String.ofList place.file ∈ compilerPattern.sentinels) ↔
          String.ofList place.file ∈ ["NO_SOURCE_PATH", "NO_SOURCE_FILE", "REPL"] :=
      or_iff_right unnamed
    rw [shape]
    simp only [extract, extractBy, opened, file, line, column, severity_capturesFor filled,
      Option.getD_some, sentinels, numberOf_digits proper.line, told]
    by_cases long : maximalDigits < place.line.length
    · simp only [if_pos long]
      rfl
    · simp only [if_neg long]
      cases number : place.column with
      | none => rfl
      | some digits =>
        simp only [numberOf_digits (proper.column digits number)]
        by_cases wide : maximalDigits < digits.length
        · simp only [Option.filter_some, wide, decide_true, ↓reduceIte]
          rfl
        · simp only [Option.filter_some, wide, decide_false, Bool.false_eq_true, ↓reduceIte]
          rfl
  · have opened : compilerPattern.captures? text.toList = none := captured
    simp only [extract, extractBy, opened, shape]
    rfl

/-! ## What a line tells -/

/-- For every text: what it tells behind the white space at its front is what is read from it, a
diagnostic with the severity and the place or a fault over a number that is too long; and nothing is
read exactly when it has none of the three shapes. -/
theorem extract_told_by_shapes (text : String) :
    (∀ severity place, Tells (text.toList.dropWhile isSpace) severity place →
      extract text = told severity place text) ∧
    (extract text = .ok none ↔
      ∀ severity place, ¬Tells (text.toList.dropWhile isSpace) severity place) := by
  rw [extract_eq]
  constructor
  · intro severity place tells
    rw [shape?_eq_some_iff.mpr tells]
  · cases shape : shape? (text.toList.dropWhile isSpace) with
    | none =>
      simp only [true_iff]
      intro severity place tells
      rw [shape?_eq_some_iff.mpr tells] at shape
      contradiction
    | some found =>
      obtain ⟨severity, place⟩ := found
      have tells := shape?_eq_some_iff.mp shape
      constructor
      · intro nothing
        simp only [told] at nothing
        split at nothing
        · contradiction
        · split at nothing <;> cases nothing
      · intro silent
        exact absurd tells (silent severity place)

/-- Of two errors of compilation on a line the leftmost counts, behind a word that is followed by no
place; its file stands for none. -/
theorem extract_told_by_shapes_leftmost :
    extract " not compiling: compiling at (REPL:03:5), compiling:(b:7)" = .ok (some {
      line := 3
      severity := .compileError
      message := " not compiling: compiling at (REPL:03:5), compiling:(b:7)"
      file := none
      column := some 5 }) := by
  have shape : shape? (" not compiling: compiling at (REPL:03:5), compiling:(b:7)".toList.dropWhile
      isSpace) = some (.compileError, ⟨"REPL".toList, "03".toList, some "5".toList⟩) := by
    decide +kernel
  rw [(extract_told_by_shapes _).1 _ _ (shape?_eq_some_iff.mp shape)]
  rfl

/-- A warning with the digits of its line given. -/
def warningOnLine (digits : List Char) : String :=
  String.ofList ("warning, f:".toList ++ (digits ++ ":1".toList))

/-- A warning on a line with too many digits is malformed. -/
theorem extract_warningOnLine {digits : List Char} (run : IsRun isDecimal digits)
    (long : maximalDigits < digits.length) :
    Tells ((warningOnLine digits).toList.dropWhile isSpace) .warning ⟨['f'], digits, some ['1']⟩ ∧
      extract (warningOnLine digits) = .error (.malformedDiagnostic "line" (String.ofList digits)
        (warningOnLine digits)) := by
  have proper : Place.IsProper ⟨['f'], digits, some ['1']⟩ := by
    have file : IsRun isFileChar ['f'] := by decide
    refine ⟨file, run, ?_⟩
    rintro column ⟨rfl⟩
    decide
  have input : (warningOnLine digits).toList.dropWhile isSpace =
      [] ++ ("warning".toList ++ ',' :: ([' '] ++
        (Place.written ⟨['f'], digits, some ['1']⟩ ++ []))) := by
    have chars : (warningOnLine digits).toList =
        'w' :: ("arning, f:".toList ++ (digits ++ ":1".toList)) := String.toList_ofList
    have ink : ¬isSpace 'w' = true := by decide
    rw [chars, List.dropWhile_cons_of_neg ink]
    simp [Place.written]
  have writes : WritesWarning "warning".toList ⟨['f'], digits, some ['1']⟩ ("warning".toList ++
      ',' :: ([' '] ++ (Place.written ⟨['f'], digits, some ['1']⟩ ++ []))) :=
    .intro (by decide) (by decide) proper rfl (by rintro c ⟨⟩)
  have tells : Tells ((warningOnLine digits).toList.dropWhile isSpace) .warning
      ⟨['f'], digits, some ['1']⟩ := by
    rw [input]
    exact .warning ⟨[], _, rfl, by simp, by rintro c ⟨⟩, writes⟩
  refine ⟨tells, ?_⟩
  rw [extract_eq, shape?_eq_some_iff.mpr tells]
  simp only [told, long, ↓reduceIte]

/-- A warning on line one, written with one digit too many, is not read as a warning. -/
theorem long_line_malformed :
    Tells ((warningOnLine (List.replicate 4300 '0' ++ ['1'])).toList.dropWhile isSpace) .warning
        ⟨['f'], List.replicate 4300 '0' ++ ['1'], some ['1']⟩ ∧
      extract (warningOnLine (List.replicate 4300 '0' ++ ['1'])) =
        .error (.malformedDiagnostic "line" (String.ofList (List.replicate 4300 '0' ++ ['1']))
          (warningOnLine (List.replicate 4300 '0' ++ ['1']))) := by
  apply extract_warningOnLine
  · refine ⟨List.append_ne_nil_of_right_ne_nil _ (List.cons_ne_nil _ _), fun c member => ?_⟩
    rcases List.mem_append.mp member with zero | one
    · rw [List.eq_of_mem_replicate zero]
      decide
    · rw [List.mem_singleton.mp one]
      decide
  · rw [List.length_append, List.length_replicate]
    decide

end EvalDesk.Diagnostic
