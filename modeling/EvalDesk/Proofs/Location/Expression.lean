import EvalDesk.Proofs.Location.Printed
import EvalDesk.Proofs.Text.Expression

/-!
# Locations as a regular expression

The reader of a printed location goes over the text once. Here it is held to a regular expression
that has to go to the end of the text. A matcher may try to end the literal or a number early, and
to leave white space to what follows; none of this is of use, since what follows never starts with
what is left.
-/
namespace EvalDesk.Location

open Text (isSpace isDecimal Expression Stand)
open Text.Expression (choice many one part series literal run StopsAt stopsAt_one stopsAt_literal)

/-! ## Parts -/

/-- A character that stands alone in a literal, or a backslash and the character behind it. -/
def escapedExpression : Expression :=
  choice (series [one (· = '\\'), one (· ≠ '\n')]) (one fun c => c ≠ '"' && c ≠ '\\')

/-- The digits of a number, or the word that says it is not known. -/
def numeralExpression : Expression := choice (run isDecimal) (literal "nil")

/-- Behind the literal: the line and the column, and the end of the vector. -/
def numbersExpression : List Expression :=
  [run isSpace, part 2 numeralExpression, run isSpace, part 3 numeralExpression,
    many (one isSpace), one (· = ']'), many (one isSpace)]

/-- A printed location. -/
def locationExpression : Expression :=
  series ([many (one isSpace), one (· = '['), many (one isSpace), one (· = '"'),
    part 1 (many escapedExpression), one (· = '"')] ++ numbersExpression)

section Readers

variable {others : List Expression}

/-- White space is passed by its reader. -/
theorem toEnd?_skipSpace (stops : StopsAt isSpace (series others)) (stand : Stand) :
    (series (many (one isSpace) :: others)).toEnd? stand =
      (series others).toEnd? (stand.pass (stand.rest.takeWhile isSpace) (skipSpace stand.rest)) :=
  Text.Expression.toEnd?_many stops stand

/-- White space that must be there is passed by its reader. -/
theorem toEnd?_spaced (stops : StopsAt isSpace (series others)) (stand : Stand) :
    (series (run isSpace :: others)).toEnd? stand = (spaced? stand.rest).bind fun rest =>
      (series others).toEnd? (stand.pass (stand.rest.takeWhile isSpace) rest) := by
  rw [Text.Expression.toEnd?_run stops]
  cases stand.rest with
  | nil => rfl
  | cons c rest => by_cases space : isSpace c = true <;> simp [spaced?, skipSpace, space]

/-- A character that must be there is passed by its reader. -/
theorem toEnd?_after (mark : Char) (stand : Stand) :
    (series (one (· = mark) :: others)).toEnd? stand = (after? mark stand.rest).bind fun rest =>
      (series others).toEnd? (stand.pass [mark] rest) := by
  obtain ⟨before, text, parts⟩ := stand
  rw [Text.Expression.toEnd?_cons]
  cases text with
  | nil => rfl
  | cons c rest =>
    rw [Text.Expression.ways_one_cons]
    by_cases same : c = mark
    · simp [after?, same, Stand.pass]
    · simp [after?, same]

/-- A numeral as it is written. -/
def writtenNumeral (value : Option (List Char)) : List Char := value.getD ['n', 'i', 'l']

/-- A numeral does not start with white space. -/
theorem stopsAt_numeral : StopsAt isSpace numeralExpression :=
  (stopsAt_one fun _ => Text.isDecimal_of_isSpace).run.choice (stopsAt_literal rfl (by decide))

/-- White space does not start with a digit. -/
theorem stopsAt_blank : StopsAt isDecimal (one isSpace) :=
  stopsAt_one fun _ => Text.isSpace_of_isDecimal

/-- A numeral is passed by its reader. -/
theorem toEnd?_number (stops : StopsAt isDecimal (series others)) (number : Nat) (stand : Stand) :
    (series (part number numeralExpression :: others)).toEnd? stand =
      (number? stand.rest).bind fun found =>
        (series others).toEnd? ((stand.pass (writtenNumeral found.1) found.2).capture number
          (writtenNumeral found.1)) := by
  rw [numeralExpression, Text.Expression.toEnd?_part_choice,
    Text.Expression.toEnd?_part_run stops, Text.Expression.toEnd?_part_literal, number?_eq]
  by_cases digits : (stand.rest.takeWhile isDecimal).isEmpty = true
  · rw [if_pos digits, if_pos digits, Option.none_or]
    split <;> rfl
  · have missing : "nil".toList.isPrefixOf stand.rest = false := by
      refine Bool.eq_false_iff.mpr fun word => digits ?_
      obtain ⟨rest, split⟩ := List.isPrefixOf_iff_prefix.mp word
      rw [← split]
      rfl
    rw [if_neg digits, if_neg digits, missing, if_neg Bool.false_ne_true, Option.or_none]
    rfl

/-- A literal ends where its reader says. -/
theorem append_of_literalRest? {text inside rest : List Char}
    (read : literalRest? text = some (inside, rest)) : text = inside ++ '"' :: rest := by
  fun_induction literalRest? text generalizing inside with
  | case1 => contradiction
  | case2 =>
    cases read
    rfl
  | case3 => contradiction
  | case4 => contradiction
  | case5 c behind other ih =>
    obtain ⟨⟨more, last⟩, found, same⟩ := Option.map_eq_some_iff.mp read
    cases same
    rw [ih found]
    rfl
  | case6 c behind _ _ _ ih =>
    obtain ⟨⟨more, last⟩, found, same⟩ := Option.map_eq_some_iff.mp read
    cases same
    rw [ih found]
    rfl

/-- A backslash is taken with the character behind it, which may be no line feed. -/
theorem ways_escaped_backslash (before : Option Char) (tail : List Char)
    (parts : Nat → Option (List Char)) :
    escapedExpression.ways ⟨before, '\\' :: tail, parts⟩ =
      match tail with
      | [] => []
      | c :: rest => if c = '\n' then [] else [⟨some c, rest, parts⟩] := by
  cases tail with
  | nil => rfl
  | cons c rest =>
    by_cases feed : c = '\n' <;>
      simp [escapedExpression, Text.Expression.ways_choice, Text.Expression.ways_series_cons,
        Text.Expression.ways_series_nil, Text.Expression.ways_one_cons, feed]

/-- Every other character is taken alone, unless it is a quote. -/
theorem ways_escaped_own {c : Char} (own : c ≠ '\\') (before : Option Char) (rest : List Char)
    (parts : Nat → Option (List Char)) :
    escapedExpression.ways ⟨before, c :: rest, parts⟩ =
      if c = '"' then [] else [⟨some c, rest, parts⟩] := by
  simp [escapedExpression, Text.Expression.ways_choice, Text.Expression.ways_series_cons,
    Text.Expression.ways_one_cons, own]

/-- The inside of a literal is passed by its reader, up to the quote that closes it. -/
theorem findSome?_escaped {α : Type} {f : Stand → Option α}
    (closes : ∀ stand : Stand, stand.rest.head? ≠ some '"' → f stand = none) (stand : Stand) :
    ((many escapedExpression).ways stand).findSome? f = (literalRest? stand.rest).bind fun found =>
      f (stand.pass found.1 ('"' :: found.2)) := by
  obtain ⟨before, text, parts⟩ := stand
  have stays : ∀ {before text}, escapedExpression.ways ⟨before, text, parts⟩ = [] →
      ((many escapedExpression).ways ⟨before, text, parts⟩).findSome? f =
        f ⟨before, text, parts⟩ := by
    intro before text stuck
    rw [Text.Expression.ways_many_of_eq_nil stuck, List.findSome?_singleton]
  have goes : ∀ {before text last rest}, escapedExpression.ways ⟨before, text, parts⟩ =
        [⟨last, rest, parts⟩] → rest.length < text.length → text.head? ≠ some '"' →
      ((many escapedExpression).ways ⟨before, text, parts⟩).findSome? f =
        ((many escapedExpression).ways ⟨last, rest, parts⟩).findSome? f := by
    intro before text last rest single shorter unquoted
    rw [Text.Expression.ways_many_of_eq_singleton single shorter, List.findSome?_append,
      List.findSome?_singleton, closes ⟨before, text, parts⟩ unquoted, Option.or_none]
  dsimp only
  fun_induction literalRest? text generalizing before with
  | case1 =>
    rw [stays rfl]
    exact closes ⟨before, [], parts⟩ nofun
  | case2 rest => exact stays (ways_escaped_own (by decide) before rest parts)
  | case3 =>
    rw [stays (ways_escaped_backslash before [] parts)]
    exact closes ⟨before, ['\\'], parts⟩ (by simp)
  | case4 rest =>
    rw [stays (ways_escaped_backslash before ('\n' :: rest) parts)]
    exact closes ⟨before, '\\' :: '\n' :: rest, parts⟩ (by simp)
  | case5 c rest other ih =>
    have single : escapedExpression.ways ⟨before, '\\' :: c :: rest, parts⟩ =
        [⟨some c, rest, parts⟩] := by simp [ways_escaped_backslash, other]
    rw [goes single (by simp only [List.length_cons]; omega) (by simp), ih, Option.bind_map]
    refine Option.bind_congr fun found _ => ?_
    exact congrArg f (Stand.pass_pass ⟨before, '\\' :: c :: rest, parts⟩ ['\\', c] found.1 rest
      ('"' :: found.2))
  | case6 c rest unquoted single pair ih =>
    have own : c ≠ '\\' := by
      intro same
      cases rest with
      | nil => exact single same rfl
      | cons d more => exact pair d more same rfl
    have alone : escapedExpression.ways ⟨before, c :: rest, parts⟩ = [⟨some c, rest, parts⟩] := by
      rw [ways_escaped_own own, if_neg unquoted]
    rw [goes alone (by simp) (by simpa using unquoted), ih, Option.bind_map]
    refine Option.bind_congr fun found _ => ?_
    exact congrArg f (Stand.pass_pass ⟨before, c :: rest, parts⟩ [c] found.1 rest
      ('"' :: found.2))

/-- A literal is passed by its reader, with the quote that closes it. -/
theorem toEnd?_literal (stand : Stand) :
    (series (part 1 (many escapedExpression) :: one (· = '"') :: others)).toEnd? stand =
      (literalRest? stand.rest).bind fun found => (series others).toEnd?
        (((stand.pass found.1 ('"' :: found.2)).capture 1 found.1).pass ['"'] found.2) := by
  have closes : ∀ next : Stand, next.rest.head? ≠ some '"' →
      (series (one (· = '"') :: others)).toEnd?
        (next.capture 1 (stand.rest.take (stand.rest.length - next.rest.length))) = none := by
    rintro ⟨before, text, parts⟩ unclosed
    rw [toEnd?_after]
    cases text with
    | nil => rfl
    | cons c rest =>
      have other : c ≠ '"' := fun same => unclosed (congrArg some same)
      simp [after?, other]
  rw [Text.Expression.toEnd?_cons, Text.Expression.ways_part, List.findSome?_map]
  refine (findSome?_escaped closes stand).trans (Option.bind_congr fun found read => ?_)
  obtain ⟨inside, rest⟩ := found
  have split := append_of_literalRest? read
  have taken : stand.rest.take (stand.rest.length - ('"' :: rest).length) = inside := by
    rw [split, List.length_append, Nat.add_sub_cancel, List.take_left]
  rw [Stand.rest_pass, taken, toEnd?_after]
  rfl

/-- White space at the end is passed, and nothing may be left behind it. -/
theorem toEnd?_end (stand : Stand) : (series [many (one isSpace)]).toEnd? stand =
    if skipSpace stand.rest = [] then some stand.parts else none := by
  have gains : ∀ before c rest, isSpace c = true →
      ((series []).toEnd? ⟨before, c :: rest, stand.parts⟩).isSome →
        ((series []).toEnd? ⟨some c, rest, stand.parts⟩).isSome := by
    intro before c rest own found
    rw [Text.Expression.toEnd?_nil, Stand.ended?] at found ⊢
    split at found
    · rename_i ends
      have nothing : rest = [] := by
        rcases ends with filled | feed
        · contradiction
        · exact (List.cons.inj feed).2
      rw [if_pos (.inl nothing)]
      rfl
    · contradiction
  have feed : skipSpace stand.rest ≠ ['\n'] := by
    intro same
    have stops := List.head?_dropWhile_not isSpace stand.rest
    rw [← skipSpace, same] at stops
    have filled : isSpace '\n' = false := stops
    exact absurd filled (by decide)
  rw [Text.Expression.toEnd?_cons, Text.Expression.findSome?_many gains,
    Text.Expression.toEnd?_nil, Stand.ended?, Stand.rest_pass, Stand.parts_pass]
  exact if_congr (or_iff_left feed) rfl rfl

end Readers

/-- A numeral that was captured, unless it is the word that says it is not known. -/
def readNumeral (written : Option (List Char)) : Option (List Char) :=
  written.filter (· ≠ ['n', 'i', 'l'])

/-- What was read is known from how it is written. -/
theorem readNumeral_writtenNumeral {text : List Char} {found : Option (List Char) × List Char}
    (read : number? text = some found) :
    readNumeral (some (writtenNumeral found.1)) = found.1 := by
  rw [number?_eq] at read
  split at read
  · split at read
    · cases read
      rfl
    · contradiction
  · cases read
    have apart : text.takeWhile isDecimal ≠ ['n', 'i', 'l'] := by
      intro same
      have inside := List.mem_takeWhile_imp (p := isDecimal) (l := text) (x := 'n') (by simp [same])
      exact absurd inside (by decide)
    simp [readNumeral, writtenNumeral, apart]

/-- The parts of a vector are those that the regular expression captures. -/
theorem parts?_eq_toEnd? (text : List Char) :
    parts? text = (locationExpression.toEnd? (.front text)).map fun parts =>
      ((parts 1).getD [], readNumeral (parts 2), readNumeral (parts 3)) := by
  have mark : ∀ {mark : Char} (others : List Expression), isSpace mark = false →
      StopsAt isSpace (series (one (· = mark) :: others)) := fun others filled =>
    (Text.Expression.stopsAt_mark filled).series others
  have numeral : ∀ number (others : List Expression),
      StopsAt isSpace (series (part number numeralExpression :: others)) :=
    fun number others => (stopsAt_numeral.part number).series others
  have apart : ∀ others : List Expression, StopsAt isDecimal (series (run isSpace :: others)) :=
    fun others => stopsAt_blank.run.series others
  have closing : StopsAt isDecimal (series [many (one isSpace), one (· = ']'),
      many (one isSpace)]) :=
    stopsAt_blank.many ((Text.Expression.stopsAt_mark (by decide)).series _)
  simp only [locationExpression, numbersExpression, List.cons_append, List.nil_append,
    toEnd?_skipSpace (mark _ (show isSpace '[' = false by decide)),
    toEnd?_skipSpace (mark _ (show isSpace '"' = false by decide)),
    toEnd?_skipSpace (mark _ (show isSpace ']' = false by decide)), toEnd?_after, toEnd?_literal,
    toEnd?_spaced (numeral _ _), toEnd?_number (apart _), toEnd?_number closing, toEnd?_end,
    Stand.rest_pass, Stand.rest_capture, Stand.parts_pass, Stand.parts_capture, parts?,
    Option.bind_eq_bind, Option.map_bind, Function.comp_def]
  refine Option.bind_congr fun _ _ => Option.bind_congr fun _ _ => Option.bind_congr fun _ _ =>
    Option.bind_congr fun _ _ => Option.bind_congr fun line readLine =>
    Option.bind_congr fun _ _ => Option.bind_congr fun column readColumn =>
    Option.bind_congr fun last _ => ?_
  by_cases ends : skipSpace last = []
  · simp [ends, readNumeral_writtenNumeral readLine, readNumeral_writtenNumeral readColumn]
  · simp [ends]

end EvalDesk.Location
