import EvalDesk.Proofs.Form.Declaration
import EvalDesk.Proofs.Text.Expression

/-!
# Declarations as a regular expression

The reader of a declaration goes over the marks of metadata once, and keeps the last one for the
case that no name follows. Here it is held to a regular expression, in which any number of marks
stand in front of the name: a matcher that finds no name behind the marks goes back, and then it
takes fewer of them. It never goes back further than by one, since a mark starts with a caret and a
name may do so too.
-/
namespace EvalDesk.Form

open Text (isSpace Expression Stand)
open Text.Expression (choice many one part series literal run StopsAt Shortens stopsAt_one
  stopsAt_literal shortens_literal gains_nothing)

/-- A map behind a caret, up to the first brace that closes, with the white space behind it. -/
def bracedMark : List Expression :=
  [literal "^\x7b", many (one (· ≠ '\x7d')), literal "\x7d", run isSpace]

/-- A keyword behind a caret, with the white space behind it. -/
def keyedMark : List Expression := [literal "^:", run (!isSpace ·), run isSpace]

/-- A mark of metadata. -/
def markExpression : Expression := choice (series bracedMark) (series keyedMark)

/-- The name. -/
def nameExpression : Expression := part 1 (run isNameChar)

/-- A declaration of a namespace. -/
def namespaceExpression : Expression :=
  series [literal "(", many (one isSpace), literal "ns", run isSpace, many markExpression,
    nameExpression]

/-! ## Marks -/

section Marks

variable {others : List Expression} {before : Option Char} {parts : Nat → Option (List Char)}

/-- White space is passed by its reader. -/
theorem first?_spaces (stops : StopsAt isSpace (series others)) (stand : Stand) :
    (series (run isSpace :: others)).first? stand = (spaceRest? stand.rest).bind fun rest =>
      (series others).first? (stand.pass (stand.rest.takeWhile isSpace) rest) := by
  rw [Text.Expression.first?_run stops.gains]
  cases stand.rest with
  | nil => rfl
  | cons c rest =>
    by_cases space : isSpace c = true
    · simp [spaceRest?, space]
    · simp [spaceRest?, space]

/-- A map behind a caret is passed by the reader of marks. -/
theorem first?_bracedMark (stops : StopsAt isSpace (series others)) (tail : List Char) :
    ∃ last, (series (series bracedMark :: others)).first? ⟨before, '^' :: '\x7b' :: tail, parts⟩ =
      (metadataRest? ('^' :: '\x7b' :: tail)).bind fun rest =>
        (series others).first? ⟨last, rest, parts⟩ := by
  have closes : StopsAt (fun c => decide (c ≠ '\x7d'))
      (series (literal "\x7d" :: run isSpace :: others)) :=
    (stopsAt_literal rfl (by decide)).series _
  rw [Text.Expression.first?_series]
  simp only [bracedMark, List.cons_append, List.nil_append]
  rw [Text.Expression.first?_literal_append rfl,
    Text.Expression.first?_many closes.gains, metadataRest?, Stand.rest_pass]
  cases found : tail.dropWhile (fun c => decide (c ≠ '\x7d')) with
  | nil =>
    rw [Text.Expression.first?_literal]
    exact ⟨none, rfl⟩
  | cons brace behind =>
    have closing : brace = '\x7d' := by
      have stop := List.head?_dropWhile_not (fun c => decide (c ≠ '\x7d')) tail
      rw [found] at stop
      simpa using stop
    rw [closing, Text.Expression.first?_literal_append rfl, first?_spaces stops]
    exact ⟨_, rfl⟩

/-- A keyword behind a caret is passed by the reader of marks. -/
theorem first?_keyedMark (stops : StopsAt isSpace (series others)) (tail : List Char) :
    ∃ last, (series (series keyedMark :: others)).first? ⟨before, '^' :: ':' :: tail, parts⟩ =
      (metadataRest? ('^' :: ':' :: tail)).bind fun rest =>
        (series others).first? ⟨last, rest, parts⟩ := by
  have blank : StopsAt (!isSpace ·) (series (run isSpace :: others)) :=
    (stopsAt_one (by simp)).run.series _
  rw [Text.Expression.first?_series]
  simp only [keyedMark, List.cons_append, List.nil_append]
  rw [Text.Expression.first?_literal_append rfl, Text.Expression.first?_run blank.gains,
    metadataRest?, Stand.rest_pass]
  split
  · exact ⟨none, rfl⟩
  · rw [first?_spaces stops]
    exact ⟨_, rfl⟩

/-- A mark of metadata is passed by its reader. -/
theorem first?_mark (stops : StopsAt isSpace (series others)) (stand : Stand) :
    ∃ last, (series (markExpression :: others)).first? stand =
      (metadataRest? stand.rest).bind fun rest =>
        (series others).first? ⟨last, rest, stand.parts⟩ := by
  obtain ⟨before, input, parts⟩ := stand
  rw [markExpression, Text.Expression.first?_choice]
  by_cases braced : ∃ tail, input = '^' :: '\x7b' :: tail
  · obtain ⟨tail, rfl⟩ := braced
    have unkeyed : (series (series keyedMark :: others)).first?
        ⟨before, '^' :: '\x7b' :: tail, parts⟩ = none := by
      rw [Text.Expression.first?_series, keyedMark, List.cons_append,
        Text.Expression.first?_literal]
      rfl
    rw [unkeyed, Option.or_none]
    exact first?_bracedMark stops tail
  · have unbraced : (series (series bracedMark :: others)).first?
        ⟨before, input, parts⟩ = none := by
      rw [Text.Expression.first?_series, bracedMark, List.cons_append,
        Text.Expression.first?_literal, if_neg]
      rw [List.isPrefixOf_iff_prefix]
      rintro ⟨tail, rfl⟩
      exact braced ⟨tail, rfl⟩
    rw [unbraced, Option.none_or]
    by_cases keyed : ∃ tail, input = '^' :: ':' :: tail
    · obtain ⟨tail, rfl⟩ := keyed
      exact first?_keyedMark stops tail
    · have unmarked : metadataRest? input = none := by
        unfold metadataRest?
        split
        · exact absurd ⟨_, rfl⟩ braced
        · exact absurd ⟨_, rfl⟩ keyed
        · rfl
      rw [unmarked, Text.Expression.first?_series, keyedMark, List.cons_append,
        Text.Expression.first?_literal, if_neg]
      · exact ⟨none, rfl⟩
      · rw [List.isPrefixOf_iff_prefix]
        rintro ⟨tail, rfl⟩
        exact keyed ⟨tail, rfl⟩

/-- A mark takes at least one character. -/
theorem shortens_markExpression : Shortens markExpression :=
  ((shortens_literal rfl).series _).choice ((shortens_literal rfl).series _)

/-- A mark does not start with white space. -/
theorem stopsAt_markExpression : StopsAt isSpace markExpression :=
  ((stopsAt_literal rfl (by decide)).series _).choice ((stopsAt_literal rfl (by decide)).series _)

end Marks

/-! ## The name -/

/-- What a match captures as the name. -/
def namePart? (found : Option Stand) : Option (List Char) := found.bind (·.parts 1)

/-- The name is taken where it stands, and what else could be taken for it is not. -/
theorem namePart?_name (stand : Stand) (other : Option Stand) :
    namePart? (((series [nameExpression]).first? stand).or other) =
      if (stand.rest.takeWhile isNameChar).isEmpty then namePart? other
      else some (stand.rest.takeWhile isNameChar) := by
  rw [nameExpression, Text.Expression.first?_part_run gains_nothing]
  split <;> rfl

/-- Where a character of a name stands, the name can be taken. -/
theorem isSome_name {stand : Stand} (named : ∃ c ∈ stand.rest.head?, isNameChar c = true) :
    ((series [nameExpression]).first? stand).isSome := by
  obtain ⟨c, front, inside⟩ := named
  obtain ⟨before, input, parts⟩ := stand
  cases input with
  | nil => contradiction
  | cons first rest =>
    cases (show some first = some c from front)
    rw [nameExpression, Text.Expression.first?_part_run gains_nothing,
      List.takeWhile_cons_of_pos inside]
    rfl

/-- Neither marks nor the name start with white space. -/
theorem stopsAt_named : StopsAt isSpace (series [many markExpression, nameExpression]) :=
  stopsAt_markExpression.many
    (((stopsAt_one fun _ space => isNameChar_of_isSpace space).run.part 1).series [])

/-- Marks and the name are one mark with what follows, or the name. -/
theorem first?_named (stand : Stand) :
    ∃ last, (series [many markExpression, nameExpression]).first? stand =
      ((metadataRest? stand.rest).bind fun rest =>
        (series [many markExpression, nameExpression]).first? ⟨last, rest, stand.parts⟩).or
          ((series [nameExpression]).first? stand) := by
  obtain ⟨last, marked⟩ := first?_mark stopsAt_named stand
  exact ⟨last, by rw [Text.Expression.first?_many_turn shortens_markExpression, marked]⟩

/-- Behind a mark the matcher goes back by no more than that mark: the name is the one that the
reader finds. -/
theorem namePart?_named (mark input : List Char) (stand last : Stand) (ahead : stand.rest = input)
    (behind : last.rest = mark) :
    namePart? (((series [many markExpression, nameExpression]).first? stand).or
        ((series [nameExpression]).first? last)) =
      if (nameBehind mark input).isEmpty then none else some (nameBehind mark input) := by
  fun_induction nameBehind mark input generalizing stand last with
  | case1 mark input rest read ih =>
    -- A mark starts with a character of a name, so the mark before it is out of reach.
    have own : ((series [nameExpression]).first? stand).isSome :=
      isSome_name ⟨'^', by rw [ahead, metadataRest?_caret read]; rfl, by decide⟩
    obtain ⟨before, marked⟩ := first?_named stand
    rw [marked, ahead, read, Option.bind_some, Option.or_assoc,
      Text.Expression.or_eq_left fun _ => own]
    exact ih _ stand rfl ahead
  | case2 mark input unread name empty =>
    obtain ⟨before, marked⟩ := first?_named stand
    have alone := namePart?_name last none
    rw [Option.or_none, behind] at alone
    rw [marked, ahead, unread, Option.bind_none, Option.none_or, namePart?_name, ahead,
      if_pos empty, alone]
    rfl
  | case3 mark input unread name filled =>
    obtain ⟨before, marked⟩ := first?_named stand
    rw [marked, ahead, unread, Option.bind_none, Option.none_or, namePart?_name, ahead,
      if_neg filled, if_neg filled]

/-- Behind the word and white space, the name is the one that the reader finds. -/
theorem namePart?_worded {stand : Stand} {behind : List Char}
    (starts : stand.rest = 'n' :: 's' :: behind) :
    namePart? ((series [literal "ns", run isSpace, many markExpression, nameExpression]).first?
        stand) = (spaceRest? behind).bind fun input =>
      if (nameBehind [] input).isEmpty then none else some (nameBehind [] input) := by
  rw [Text.Expression.first?_literal_append starts, first?_spaces stopsAt_named, Stand.rest_pass]
  cases spaceRest? behind with
  | none => rfl
  | some input =>
    have unnamed : (series [nameExpression]).first? (.front []) = none := by
      rw [nameExpression, Text.Expression.first?_part_run gains_nothing]
      rfl
    have found := namePart?_named [] input
      ((stand.pass "ns".toList behind).pass (behind.takeWhile isSpace) input) (.front []) rfl rfl
    rwa [unnamed, Option.or_none] at found

/-- The name that is declared is the one that the regular expression captures. -/
theorem declaredName?_eq_captures? (form : List Char) :
    declaredName? form =
      ((namespaceExpression.captures? form).bind (· 1)).map String.ofList := by
  have worded : StopsAt isSpace (series [literal "ns", run isSpace, many markExpression,
      nameExpression]) := (stopsAt_literal rfl (by decide)).series _
  have captured : (namespaceExpression.captures? form).bind (· 1) =
      namePart? (namespaceExpression.first? (.front form)) := by
    rw [Text.Expression.captures?, Option.bind_map]
    rfl
  rw [captured, namespaceExpression]
  by_cases opens : ∃ rest, form = '(' :: rest
  · obtain ⟨rest, rfl⟩ := opens
    rw [Text.Expression.first?_literal_append rfl, Text.Expression.first?_many worded.gains,
      Stand.rest_pass, declaredName?]
    by_cases word : ∃ behind, rest.dropWhile isSpace = 'n' :: 's' :: behind
    · obtain ⟨behind, split⟩ := word
      rw [namePart?_worded split]
      simp only [split]
      cases spaceRest? behind with
      | none => rfl
      | some input =>
        simp only [Option.bind_some, apply_ite (Option.map String.ofList), Option.map_none,
          Option.map_some]
    · rw [Text.Expression.first?_literal, if_neg]
      · split
        · exact absurd ⟨_, ‹_›⟩ word
        · rfl
      · rw [Stand.rest_pass, List.isPrefixOf_iff_prefix]
        rintro ⟨behind, split⟩
        exact word ⟨behind, split.symm⟩
  · rw [Text.Expression.first?_literal, if_neg]
    · unfold declaredName?
      split
      · exact absurd ⟨_, rfl⟩ opens
      · rfl
    · rw [List.isPrefixOf_iff_prefix]
      rintro ⟨rest, split⟩
      exact opens ⟨rest, split.symm⟩

end EvalDesk.Form
