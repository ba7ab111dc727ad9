import EvalDesk.Proofs.Diagnostic.Shapes
import EvalDesk.Proofs.Text.Expression

/-!
# The pattern of compiler output as a regular expression

The readers of the three shapes go over the text once and never go back. Here they are held to a
regular expression, which is matched by trying: white space and words are passed over in any number,
a column may be missing, and of three alternatives the first that fits counts. Every way back that
a matcher has turns out to be of no use, since what follows on a run never starts with one of its
characters, and white space in front of a shape can be passed without losing it.
-/
namespace EvalDesk.Diagnostic

open Text (isSpace isDecimal isWord Expression Stand)
open Text.Expression (one edge choice many few part series literal run perhaps StopsAt Gains
  stopsAt_one stopsAt_literal gains_nothing)

/-- The name of a file. -/
def fileName (number : Nat) : Expression := part number (run isFileChar)

/-- A colon and a number. -/
def colonNumber (number : Nat) : Expression := series [literal ":", part number (run isDecimal)]

/-- Behind words: the word of a warning, and a place with a column. -/
def warningBody : List Expression :=
  [part 1 (series [one fun c => c = 'W' || c = 'w', literal "arning"]), literal ",", run isSpace,
    fileName 2, colonNumber 3, colonNumber 4]

/-- A warning. -/
def warningExpression : Expression :=
  series (few (one fun c => isWord c || c = ' ') :: edge :: warningBody)

/-- Behind words: the word of an error of compilation, a link, and a place between parentheses. -/
def compilingBody : List Expression :=
  [part 5 (literal "compiling"),
    choice (literal ":") (series [run isSpace, literal "at", run isSpace]), literal "(",
    fileName 6, colonNumber 7, perhaps (colonNumber 8), literal ")"]

/-- An error of compilation. -/
def compilingExpression : Expression :=
  series (few (one (· ≠ '\n')) :: edge :: compilingBody)

/-- What separates a place from a message. -/
def separator : Expression :=
  choice (series [literal ":", run isSpace]) (series [run isSpace, literal "-", run isSpace])

/-- A place with a message behind it. -/
def locatedExpression : Expression :=
  series [fileName 9, colonNumber 10, perhaps (colonNumber 11), separator]

/-- The pattern of compiler output. -/
def compilerExpression : Expression :=
  series [many (one isSpace),
    choice warningExpression (choice compilingExpression locatedExpression)]

/-! ## Readers and expressions -/

section Readers

variable {inside : Char → Bool} {others : List Expression}

/-- A run is passed by its reader. -/
theorem first?_run (gains : Gains inside (series others)) (stand : Stand) :
    (series (run inside :: others)).first? stand =
      (run? inside stand.rest).bind fun found =>
        (series others).first? (stand.pass found.1 found.2) := by
  rw [Text.Expression.first?_run gains]
  simp only [run?]
  split <;> rfl

/-- A fixed text is passed by its reader. -/
theorem first?_literal (text : String) (stand : Stand) :
    (series (literal text :: others)).first? stand =
      (literal? text stand.rest).bind fun rest =>
        (series others).first? (stand.pass text.toList rest) := by
  rw [Text.Expression.first?_literal]
  simp only [literal?]
  split <;> rfl

/-- A run that is captured is passed by its reader. -/
theorem first?_part_run (gains : Gains inside (series others)) (number : Nat) (stand : Stand) :
    (series (part number (run inside) :: others)).first? stand =
      (run? inside stand.rest).bind fun found =>
        (series others).first? ((stand.pass found.1 found.2).capture number found.1) := by
  rw [Text.Expression.first?_part_run gains]
  simp only [run?]
  split <;> rfl

/-- A fixed text that is captured is passed by its reader. -/
theorem first?_part_literal (number : Nat) (text : String) (stand : Stand) :
    (series (part number (literal text) :: others)).first? stand =
      (literal? text stand.rest).bind fun rest =>
        (series others).first? ((stand.pass text.toList rest).capture number text.toList) := by
  rw [Text.Expression.first?_cons, Text.Expression.ways_part_literal]
  simp only [literal?]
  split <;> simp

/-- A number behind a colon is passed by its reader. -/
theorem first?_colonNumber (gains : Gains isDecimal (series others)) (number : Nat)
    (stand : Stand) :
    (series (colonNumber number :: others)).first? stand =
      (colonNumber? stand.rest).bind fun found =>
        (series others).first?
          ((stand.pass (':' :: found.1) found.2).capture number found.1) := by
  rw [colonNumber, Text.Expression.first?_series, List.cons_append, first?_literal]
  simp only [List.cons_append, List.nil_append, first?_part_run gains, Stand.pass_pass,
    colonNumber?, Option.bind_eq_bind, Option.bind_assoc]
  rfl

/-- A colon with a number starts with the colon. -/
theorem stopsAt_colonNumber (outside : inside ':' = false) (number : Nat) :
    StopsAt inside (colonNumber number) := (stopsAt_literal rfl outside).series _

/-- The name of a file starts with no blank. -/
theorem stopsAt_fileName (number : Nat) : StopsAt isSpace (fileName number) :=
  (stopsAt_one fun _ space => isFileChar_of_isSpace space).run.part number

/-- A name of a file and the number of a line are passed by their readers. -/
theorem first?_file_line (gains : Gains isDecimal (series others)) (name line : Nat)
    (stand : Stand) :
    (series (fileName name :: colonNumber line :: others)).first? stand =
      (run? isFileChar stand.rest).bind fun found =>
        (colonNumber? found.2).bind fun next =>
          (series others).first? ((((stand.pass found.1 found.2).capture name found.1).pass
            (':' :: next.1) next.2).capture line next.1) := by
  have stops : StopsAt isFileChar (series (colonNumber line :: others)) :=
    (stopsAt_colonNumber (by decide) line).series others
  rw [fileName, first?_part_run stops.gains]
  simp only [first?_colonNumber gains]
  rfl

end Readers

/-! ## Shapes behind words -/

/-- A shape behind words is captured where the search for it finds it, if its reader captures it at
the front and it starts with a character of a word. -/
theorem captures_seek {α : Type} {here : List Char → Option α} {goesOn : Char → Bool}
    {body : List Expression} {told : α → Captures}
    (captures : ∀ before rest, ((series body).first? ⟨before, rest, fun _ => none⟩).map (·.parts) =
      (here rest).map told)
    (worded : ∀ {rest}, (∀ c ∈ rest.head?, isWord c = false) → here rest = none)
    (before : Option Char) (rest : List Char) :
    ((series (few (one goesOn) :: edge :: body)).first? ⟨before, rest, fun _ => none⟩).map
        (·.parts) = (seek? here goesOn before rest).map told := by
  have missing : ∀ before rest, (∀ c ∈ rest.head?, isWord c = false) →
      (series body).first? ⟨before, rest, fun _ => none⟩ = none := by
    intro before rest unworded
    have none_told := captures before rest
    rw [worded unworded] at none_told
    exact Option.map_eq_none_iff.mp none_told
  have opened : ∀ before rest,
      ((series (edge :: body)).first? ⟨before, rest, fun _ => none⟩).map (·.parts) =
        (if before.any isWord then none else here rest).map told := by
    intro before rest
    rw [Text.Expression.first?_edge (missing before rest)]
    split
    · rfl
    · exact captures before rest
  induction rest generalizing before with
  | nil =>
    rw [Text.Expression.first?_few_nil, opened, worded (by simp), ite_self]
    rfl
  | cons c rest ih =>
    rw [Text.Expression.first?_few_cons, Option.map_or, opened, seek?]
    cases if before.any isWord then none else here (c :: rest) with
    | some found => rfl
    | none =>
      by_cases passes : goesOn c = true
      · simp only [passes, ↓reduceIte, Option.map_none, Option.none_or]
        exact ih (some c)
      · simp only [passes, Bool.false_eq_true, ↓reduceIte, Option.map_none, Option.or_none]

/-! ## Warnings -/

/-- The word of a warning is passed where it is written. -/
theorem ways_warningWord (stand : Stand) :
    (series [one fun c => c = 'W' || c = 'w', literal "arning"]).ways stand =
      if stand.rest.take 7 ∈ warningWords then
        [stand.pass (stand.rest.take 7) (stand.rest.drop 7)]
      else [] := by
  obtain ⟨before, rest, parts⟩ := stand
  cases rest with
  | nil => rfl
  | cons c tail =>
    have front : "arning".toList.isPrefixOf tail = true ↔ tail.take 6 = "arning".toList := by
      rw [List.isPrefixOf_iff_prefix, List.prefix_iff_eq_take, eq_comm]
      rfl
    have known : (c :: tail).take 7 ∈ warningWords ↔
        (c = 'W' ∨ c = 'w') ∧ tail.take 6 = "arning".toList := by
      rw [List.take_succ_cons]
      simp [warningWords, or_and_right, or_comm]
    have opened : (series [one fun c => c = 'W' || c = 'w', literal "arning"]).ways
        ⟨before, c :: tail, parts⟩ =
          if c = 'W' ∨ c = 'w' then (literal "arning").ways ⟨some c, tail, parts⟩ else [] := by
      have alone : (series [literal "arning"]).ways = (literal "arning").ways :=
        funext fun stand => List.flatMap_singleton' ((literal "arning").ways stand)
      rw [Text.Expression.ways_series_cons, Text.Expression.ways_one_cons, alone]
      by_cases letter : c = 'W' ∨ c = 'w' <;> simp [letter]
    rw [opened]
    simp only [known, Text.Expression.ways_literal, front]
    by_cases letter : c = 'W' ∨ c = 'w'
    · simp only [letter, true_and, ↓reduceIte]
      split
      · rename_i word
        have run := Stand.pass_pass ⟨before, c :: tail, parts⟩ [c] "arning".toList tail
          (tail.drop 6)
        rw [List.take_succ_cons, word]
        exact congrArg ([·]) run
      · rfl
    · rw [if_neg letter, if_neg fun both => letter both.1]

/-- Behind its words a warning is captured where its reader finds it. -/
theorem captures_warningBody (before : Option Char) (rest : List Char) :
    ((series warningBody).first? ⟨before, rest, fun _ => none⟩).map (·.parts) =
      (warningHere? rest).map fun found => capturesOf (some (1, found.1)) 2 found.2 := by
  have stops : StopsAt isDecimal (series [colonNumber 4]) :=
    (stopsAt_colonNumber (by decide) 4).series []
  rw [warningBody, Text.Expression.first?_cons]
  by_cases word : rest.take 7 ∈ warningWords
  · have single := ways_warningWord ⟨before, rest, fun _ => none⟩
    rw [if_pos word] at single
    have known : ¬(rest.take 7 ≠ "warning".toList ∧ rest.take 7 ≠ "Warning".toList) := by
      simpa [warningWords, or_iff_not_imp_left] using word
    rw [Text.Expression.ways_part_singleton single (List.take_append_drop 7 rest).symm,
      List.findSome?_singleton, first?_literal]
    simp only [first?_run ((stopsAt_fileName 2).series _).gains, first?_file_line stops.gains,
      first?_colonNumber gains_nothing, Text.Expression.first?_nil, Stand.rest_pass,
      Stand.rest_capture, warningHere?, if_neg known, Option.map_bind, Function.comp_def,
      Option.bind_eq_bind, place?, blanks?, Option.bind_map, Option.bind_assoc]
    refine Option.bind_congr fun behind _ => Option.bind_congr fun blanks _ =>
      Option.bind_congr fun name _ => Option.bind_congr fun line _ => ?_
    cases colonNumber? line.2 with
    | none => rfl
    | some column =>
      refine congrArg some (funext fun number => ?_)
      simp only [Stand.parts_pass, Stand.parts_capture, capturesOf, Option.any_some,
        Option.map_some, decide_eq_true_eq]
      grind
  · have missing := ways_warningWord ⟨before, rest, fun _ => none⟩
    rw [if_neg word] at missing
    have unknown : rest.take 7 ≠ "warning".toList ∧ rest.take 7 ≠ "Warning".toList := by
      simpa [warningWords] using word
    rw [Text.Expression.ways_part, missing, warningHere?, if_pos unknown]
    rfl

/-- The word of a warning starts with a character of a word. -/
theorem warningHere?_eq_none {rest : List Char} (unworded : ∀ c ∈ rest.head?, isWord c = false) :
    warningHere? rest = none := by
  rw [Option.eq_none_iff_forall_ne_some]
  rintro ⟨word, place⟩ found
  obtain ⟨isWord, _, _, _, _⟩ := warningHere?_eq_some_iff.mp found
  have each : ∀ word ∈ warningWords, ∃ c more, word = c :: more ∧ Text.isWord c = true := by
    intro word member
    rcases List.mem_pair.mp member with rfl | rfl
    · exact ⟨_, _, rfl, by decide⟩
    · exact ⟨_, _, rfl, by decide⟩
  obtain ⟨c, more, rfl, inside⟩ := each word isWord
  rw [unworded c rfl] at inside
  contradiction

/-- A warning is captured where its reader finds it. -/
theorem captures_warning (before : Option Char) (rest : List Char) :
    (warningExpression.first? ⟨before, rest, fun _ => none⟩).map (·.parts) =
      (warning? before rest).map fun found => capturesOf (some (1, found.1)) 2 found.2 := by
  rw [warning?_eq_seek?]
  exact captures_seek captures_warningBody warningHere?_eq_none before rest

/-! ## Places -/

section Places

variable {others : List Expression}

/-- A number behind a colon has the colon at the front and then a digit. -/
theorem exists_colon_digit {input : List Char} (number : (colonNumber? input).isSome) :
    ∃ digit more, input = ':' :: digit :: more ∧ isDecimal digit = true := by
  obtain ⟨⟨digits, rest⟩, found⟩ := Option.isSome_iff_exists.mp number
  obtain ⟨isRun, _, rfl⟩ := colonNumber?_eq_some_iff.mp found
  obtain ⟨digit, more, rfl, decimal⟩ := exists_head isRun
  exact ⟨digit, more ++ rest, rfl, decimal⟩

/-- Behind a place, its parts captured under three numbers. -/
def placed (stand : Stand) (first : Nat) (place : Place) (rest : List Char) : Stand :=
  let behind := ((stand.pass place.written rest).capture first place.file).capture (first + 1)
    place.line
  place.column.elim behind (behind.capture (first + 2))

@[simp] theorem rest_placed (stand : Stand) (first : Nat) (place : Place) (rest : List Char) :
    (placed stand first place rest).rest = rest := by
  obtain ⟨file, line, _ | column⟩ := place <;> rfl

/-- Behind a place and a word in front of it these are what is captured. -/
theorem parts_placed {stand : Stand} {word : Option (Nat × List Char)} {first : Nat}
    (marked : stand.parts = fun other =>
      if word.any (other = ·.1) then word.map (·.2) else none)
    (apart : ∀ known ∈ word, known.1 < first) (place : Place) (rest : List Char) :
    (placed stand first place rest).parts = capturesOf word first place := by
  obtain ⟨file, line, column⟩ := place
  funext number
  cases column <;> cases word <;>
    simp only [placed, Option.elim, Stand.parts_pass, Stand.parts_capture, marked, capturesOf] <;>
    grind

/-- A place is passed by its reader when a number cannot stand in what follows: the column is taken
when one is written. -/
theorem first?_place (stops : StopsAt isDecimal (series others))
    (apart : ∀ stand : Stand, (colonNumber? stand.rest).isSome →
      (series others).first? stand = none) (first : Nat) (stand : Stand) :
    (series (fileName first :: colonNumber (first + 1) :: perhaps (colonNumber (first + 2)) ::
        others)).first? stand =
      (place? stand.rest).bind fun found =>
        (series others).first? (placed stand first found.1 found.2) := by
  have further : StopsAt isDecimal (series (perhaps (colonNumber (first + 2)) :: others)) :=
    (stopsAt_colonNumber (by decide) _).perhaps stops
  simp only [first?_file_line further.gains, Text.Expression.first?_perhaps,
    first?_colonNumber stops.gains, place?, Option.bind_eq_bind, Option.bind_assoc,
    Stand.rest_pass, Stand.rest_capture]
  refine Option.bind_congr fun file _ => Option.bind_congr fun line _ => ?_
  cases number : colonNumber? line.2 with
  | none =>
    have alone : placed stand first ⟨file.1, line.1, none⟩ line.2 =
        (((stand.pass file.1 file.2).capture first file.1).pass (':' :: line.1) line.2).capture
          (first + 1) line.1 := by
      have passed := Stand.pass_pass stand file.1 (':' :: line.1) file.2 line.2
      simp only [placed, Place.written, Option.elim, List.append_nil, ← passed]
      rfl
    exact congrArg (series others).first? alone.symm
  | some column =>
    have whole : placed stand first ⟨file.1, line.1, some column.1⟩ column.2 =
        ((((((stand.pass file.1 file.2).capture first file.1).pass (':' :: line.1) line.2).capture
          (first + 1) line.1).pass (':' :: column.1) column.2).capture (first + 2) column.1) := by
      have passed := Stand.pass_pass stand file.1 (':' :: line.1) file.2 line.2
      have further := Stand.pass_pass stand (file.1 ++ ':' :: line.1) (':' :: column.1) line.2
        column.2
      rw [← passed] at further
      simp only [placed, Place.written, Option.elim, ← List.cons_append, ← List.append_assoc,
        ← further]
      rfl
    -- The column cannot be left out: what follows does not start with a number behind a colon.
    rw [apart _ (by rw [Stand.rest_capture, Stand.rest_pass, number]; rfl), Option.or_none]
    exact congrArg (series others).first? whole.symm

end Places

/-! ## Errors of compilation -/

/-- A text that starts with a colon starts with no white space. -/
theorem run?_of_colon {input rest : List Char} (colon : literal? ":" input = some rest) :
    run? isSpace input = none := by
  rw [literal?_eq_some_iff.mp colon]
  rfl

/-- The place between parentheses is captured where its reader finds it. -/
theorem captures_enclosed {stand : Stand}
    (marked : stand.parts = fun other => if other = 5 then some "compiling".toList else none) :
    ((series [literal "(", fileName 6, colonNumber 7, perhaps (colonNumber 8),
      literal ")"]).first? stand).map (·.parts) =
      (enclosed? stand.rest).map (capturesOf (some (5, "compiling".toList)) 6) := by
  have closes : StopsAt isDecimal (series [literal ")"]) :=
    (stopsAt_literal rfl (by decide)).series []
  have apart : ∀ stand : Stand, (colonNumber? stand.rest).isSome →
      (series [literal ")"]).first? stand = none := by
    intro stand number
    obtain ⟨digit, more, front, _⟩ := exists_colon_digit number
    rw [first?_literal, front]
    rfl
  have captured : ∀ (inner : List Char) (found : Place × List Char) (rest : List Char),
      ((placed (stand.pass "(".toList inner) 6 found.1 found.2).pass ")".toList rest).parts =
        capturesOf (some (5, "compiling".toList)) 6 found.1 := by
    intro inner found rest
    rw [Stand.parts_pass]
    refine parts_placed ?_ (by simp) found.1 found.2
    rw [Stand.parts_pass, marked]
    funext other
    by_cases word : other = 5
    · subst word
      rfl
    · rw [if_neg word, if_neg (by simpa using word)]
  have inner : ∀ stand : Stand, (series [fileName 6, colonNumber 7, perhaps (colonNumber 8),
      literal ")"]).first? stand = (place? stand.rest).bind fun found =>
        (series [literal ")"]).first? (placed stand 6 found.1 found.2) :=
    first?_place closes apart 6
  simp only [first?_literal, inner, Text.Expression.first?_nil, Stand.rest_pass, rest_placed,
    enclosed?, Option.bind_eq_bind, Option.map_bind, Function.comp_def, Option.map_some, captured]
  rfl

/-- A link is passed by its reader. -/
theorem captures_link {others : List Expression} {α : Type}
    {told : List Char → Option α} {take : Stand → α} {stand : Stand}
    (stops : StopsAt isSpace (series others))
    (captures : ∀ next : Stand, next.parts = stand.parts →
      ((series others).first? next).map take = told next.rest) :
    ((series (choice (literal ":") (series [run isSpace, literal "at", run isSpace]) ::
      others)).first? stand).map take = (link? stand.rest).bind told := by
  have word : StopsAt isSpace (series (literal "at" :: run isSpace :: others)) :=
    (stopsAt_literal rfl (by decide)).series _
  rw [Text.Expression.first?_choice, Text.Expression.first?_series]
  simp only [List.cons_append, List.nil_append, first?_literal, first?_run word.gains,
    first?_run stops.gains, Option.map_or, Option.map_bind, Function.comp_def, link?,
    Stand.rest_pass]
  cases colon : literal? ":" stand.rest with
  | none =>
    simp only [Option.bind_none, Option.none_or, blanks?, Option.bind_eq_bind, Option.bind_map,
      Option.bind_assoc, Function.comp_apply]
    refine Option.bind_congr fun first _ => Option.bind_congr fun rest _ => ?_
    refine Option.bind_congr fun second _ => captures _ rfl
  | some rest =>
    rw [run?_of_colon colon, Option.bind_none, Option.or_none]
    exact captures _ rfl

/-- Behind its words an error of compilation is captured where its reader finds it. -/
theorem captures_compilingBody (before : Option Char) (rest : List Char) :
    ((series compilingBody).first? ⟨before, rest, fun _ => none⟩).map (·.parts) =
      (compilingHere? rest).map (capturesOf (some (5, "compiling".toList)) 6) := by
  have opens : StopsAt isSpace (series [literal "(", fileName 6, colonNumber 7,
      perhaps (colonNumber 8), literal ")"]) := (stopsAt_literal rfl (by decide)).series _
  rw [compilingBody, first?_part_literal, compilingHere?_eq, Option.map_bind, Option.map_bind,
    Option.bind_assoc]
  refine Option.bind_congr fun behind _ => ?_
  exact captures_link opens fun next same => captures_enclosed same

/-- The word of an error of compilation starts with a character of a word. -/
theorem compilingHere?_eq_none {rest : List Char} (unworded : ∀ c ∈ rest.head?, isWord c = false) :
    compilingHere? rest = none := by
  rw [Option.eq_none_iff_forall_ne_some]
  intro place found
  rcases compilingHere?_eq_some_iff.mp found with _ | _
  · exact absurd (unworded 'c' rfl) (by decide)
  · exact absurd (unworded 'c' rfl) (by decide)

/-- An error of compilation is captured where its reader finds it. -/
theorem captures_compiling (before : Option Char) (rest : List Char) :
    (compilingExpression.first? ⟨before, rest, fun _ => none⟩).map (·.parts) =
      (compiling? before rest).map (capturesOf (some (5, "compiling".toList)) 6) := by
  rw [compiling?_eq_seek?]
  exact captures_seek captures_compilingBody compilingHere?_eq_none before rest

/-! ## Places at the front -/

/-- What separates a place from a message is passed by its reader, and nothing is captured. -/
theorem captures_separator (stand : Stand) :
    ((series [separator]).first? stand).map (·.parts) =
      (separator? stand.rest).map fun _ => stand.parts := by
  have hyphen : StopsAt isSpace (series [literal "-", run isSpace]) :=
    (stopsAt_literal rfl (by decide)).series _
  rw [separator, Text.Expression.first?_choice, Text.Expression.first?_series,
    Text.Expression.first?_series]
  simp only [List.cons_append, List.nil_append, first?_literal, first?_run hyphen.gains,
    first?_run gains_nothing, Option.map_or, Option.map_bind, Function.comp_def, separator?,
    Stand.rest_pass, Text.Expression.first?_nil]
  cases colon : literal? ":" stand.rest with
  | none =>
    simp only [Option.bind_none, Option.none_or, blanks?, Option.bind_eq_bind, Option.bind_map,
      Option.map_bind, Function.comp_def]
    refine Option.bind_congr fun before _ => Option.bind_congr fun behind _ => ?_
    cases run? isSpace behind <;> rfl
  | some rest =>
    rw [run?_of_colon colon, Option.bind_none, Option.or_none, Option.bind_some]
    simp only [blanks?]
    cases run? isSpace rest <;> rfl

/-- A place with a message is captured where its reader finds it. -/
theorem captures_located (before : Option Char) (rest : List Char) :
    (locatedExpression.first? ⟨before, rest, fun _ => none⟩).map (·.parts) =
      (located? rest).map (capturesOf none 9) := by
  have unblank : ∀ c, isDecimal c = true → isSpace c = false := fun _ => Text.isSpace_of_isDecimal
  have closes : StopsAt isDecimal (series [separator]) := by
    have colon : StopsAt isDecimal (series [literal ":", run isSpace]) :=
      (stopsAt_literal rfl (by decide)).series _
    have hyphen : StopsAt isDecimal (series [run isSpace, literal "-", run isSpace]) :=
      (stopsAt_one unblank).run.series _
    exact (colon.choice hyphen).series []
  have apart : ∀ stand : Stand, (colonNumber? stand.rest).isSome →
      (series [separator]).first? stand = none := by
    intro stand number
    obtain ⟨digit, more, front, decimal⟩ := exists_colon_digit number
    have colon : literal? ":" (':' :: digit :: more) = some (digit :: more) := rfl
    have unseparated : separator? stand.rest = none := by
      rw [separator?, front, colon]
      simp [blanks?, run?, unblank digit decimal]
    have captured := captures_separator stand
    rw [unseparated] at captured
    exact Option.map_eq_none_iff.mp captured
  have place := first?_place closes apart 9 ⟨before, rest, fun _ => none⟩
  rw [locatedExpression, place, located?]
  simp only [Option.map_bind, Option.bind_eq_bind, Function.comp_def, captures_separator,
    rest_placed]
  refine Option.bind_congr fun found _ => ?_
  have captured : (placed ⟨before, rest, fun _ => none⟩ 9 found.1 found.2).parts =
      capturesOf none 9 found.1 := parts_placed rfl (by simp) found.1 found.2
  rw [captured]
  cases separator? found.2 <;> rfl

/-! ## The pattern -/

/-- White space belongs to no word. -/
theorem isWord_of_isSpace {c : Char} (space : isSpace c = true) : isWord c = false := by
  have low : c ≠ '_' := by
    rintro rfl
    exact absurd space (by decide)
  simp [isWord, low, Text.isAlphanumeric_of_isSpace space]

section Blanks

variable {α : Type} {here : List Char → Option α} {goesOn : Char → Bool}

/-- Only a word in front of the search matters to it. -/
theorem seek?_of_not_word {before : Option Char} (unworded : before.any isWord = false)
    (input : List Char) : seek? here goesOn before input = seek? here goesOn none input := by
  cases input with
  | nil => rfl
  | cons c rest => simp only [seek?, unworded, Option.any_none]

/-- What is found in front of a blank is found behind it too. -/
theorem seek?_of_isSpace (worded : ∀ {rest}, (∀ c ∈ rest.head?, isWord c = false) →
    here rest = none) {before : Option Char} {c : Char} {rest : List Char}
    (space : isSpace c = true) (found : (seek? here goesOn before (c :: rest)).isSome) :
    (seek? here goesOn (some c) rest).isSome := by
  have missing : here (c :: rest) = none := by
    apply worded
    rintro other ⟨rfl⟩
    exact isWord_of_isSpace space
  rw [seek?, missing, ite_self] at found
  split at found
  · contradiction
  · split at found
    · exact found
    · contradiction

end Blanks

/-- What the readers capture of the three shapes, with a character in front. -/
def shapeCaptures? (before : Option Char) (rest : List Char) : Option Captures :=
  ((warning? before rest).map fun found => capturesOf (some (1, found.1)) 2 found.2).or
    (((compiling? before rest).map (capturesOf (some (5, "compiling".toList)) 6)).or
      ((located? rest).map (capturesOf none 9)))

/-- The three shapes are captured where their readers find them. -/
theorem captures_shapes (before : Option Char) (rest : List Char) :
    ((series [choice warningExpression (choice compilingExpression locatedExpression)]).first?
      ⟨before, rest, fun _ => none⟩).map (·.parts) = shapeCaptures? before rest := by
  have alone : ∀ inner stand, (series [series inner]).first? stand =
      (series inner).first? stand := by
    intro inner stand
    rw [Text.Expression.first?_series, List.append_nil]
  rw [shapeCaptures?, ← captures_warning, ← captures_compiling, ← captures_located before,
    Text.Expression.first?_choice, Text.Expression.first?_choice, Option.map_or, Option.map_or]
  simp only [warningExpression, compilingExpression, locatedExpression, alone]

/-- Only a word in front of the shapes matters to them. -/
theorem shapeCaptures?_of_not_word {before : Option Char} (unworded : before.any isWord = false)
    (rest : List Char) : shapeCaptures? before rest = shapeCaptures? none rest := by
  simp only [shapeCaptures?, warning?_eq_seek?, compiling?_eq_seek?, seek?_of_not_word unworded]

/-- A shape in front of a blank is a shape behind it too. -/
theorem shapeCaptures?_of_isSpace {before : Option Char} {c : Char} {rest : List Char}
    (space : isSpace c = true) (found : (shapeCaptures? before (c :: rest)).isSome) :
    (shapeCaptures? (some c) rest).isSome := by
  have unplaced : located? (c :: rest) = none := by
    simp [located?, place?, run?, isFileChar_of_isSpace space]
  simp only [shapeCaptures?, warning?_eq_seek?, compiling?_eq_seek?, unplaced, Option.isSome_or,
    Option.isSome_map, Option.isSome_none, Bool.or_false, Bool.or_eq_true] at found ⊢
  rcases found with warning | compiling
  · exact .inl (seek?_of_isSpace warningHere?_eq_none space warning)
  · exact .inr (.inl (seek?_of_isSpace compilingHere?_eq_none space compiling))

/-- What the readers capture behind the white space is captured. -/
theorem compilerCaptures?_eq_shapeCaptures? (text : List Char) :
    compilerCaptures? text = shapeCaptures? none (text.dropWhile isSpace) := by
  simp only [compilerCaptures?, shapeCaptures?]
  cases warning? none (text.dropWhile isSpace) with
  | some found => rfl
  | none => cases compiling? none (text.dropWhile isSpace) <;> rfl

/-- The captured parts are those of the regular expression. -/
theorem compilerCaptures?_eq_captures? (text : List Char) :
    compilerCaptures? text = compilerExpression.captures? text := by
  have gains : ∀ before c rest, isSpace c = true →
      ((series [choice warningExpression (choice compilingExpression locatedExpression)]).first?
        ⟨before, c :: rest, fun _ => none⟩).isSome →
      ((series [choice warningExpression (choice compilingExpression locatedExpression)]).first?
        ⟨some c, rest, fun _ => none⟩).isSome := by
    intro before c rest space found
    rw [← Option.isSome_map (f := Stand.parts), captures_shapes] at found ⊢
    exact shapeCaptures?_of_isSpace space found
  have unworded : (((text.takeWhile isSpace).getLast?).or none).any isWord = false := by
    rw [Option.or_none]
    cases last : (text.takeWhile isSpace).getLast? with
    | none => rfl
    | some c =>
      have space := List.all_eq_true.mp List.all_takeWhile c (List.mem_of_getLast? last)
      exact isWord_of_isSpace space
  have passed : compilerExpression.first? (.front text) = _ :=
    (Text.Expression.first?_cons _ _).trans (Text.Expression.findSome?_many gains)
  rw [Text.Expression.captures?, passed, compilerCaptures?_eq_shapeCaptures?,
    ← shapeCaptures?_of_not_word unworded, ← captures_shapes]
  rfl

end EvalDesk.Diagnostic
