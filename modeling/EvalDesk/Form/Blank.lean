/-!
# Blanks between forms

Between two forms may stand white space of the ASCII range, commas and line comments. The readers
of this library take the input from a place on and return what is left of it.

How far a comment reaches is a parameter of the readers. In a text it reaches up to its next line
feed (`commentLength?`); where the end of a text is read on into its beginning, another rule holds.
-/
namespace EvalDesk.Form

/-- White space between forms; a comma counts as such. -/
def isBlank (c : Char) : Bool := c = ' ' || c = '\t' || c = '\r' || c = '\n' || c = ','

/-- How many characters behind a semicolon belong to its comment, the line feed that ends it
included; none when no line feed follows. -/
def commentLength? (rest : List Char) : Option Nat :=
  (rest.findIdx? (· = '\n')).map (· + 1)

/-- What is left after blanks and comments, by a rule for the reach of comments. -/
def skipBlankBy (reach : List Char → Option Nat) : List Char → List Char
  | [] => []
  | c :: rest =>
    if isBlank c then skipBlankBy reach rest
    else if c = ';' then
      match reach rest with
      | some length => skipBlankBy reach (rest.drop length)
      | none => []
    else c :: rest
termination_by input => input.length
decreasing_by all_goals (simp only [List.length_cons, List.length_drop]; omega)

/-- What is left after blanks and comments. -/
def skipBlank (input : List Char) : List Char := skipBlankBy commentLength? input

/-- The input consists of blanks and comments, and the last comment has no line feed. -/
def endsInComment (reach : List Char → Option Nat) : List Char → Bool
  | [] => false
  | c :: rest =>
    if isBlank c then endsInComment reach rest
    else if c = ';' then
      match reach rest with
      | some length => endsInComment reach (rest.drop length)
      | none => true
    else false
termination_by input => input.length
decreasing_by all_goals (simp only [List.length_cons, List.length_drop]; omega)

/-- Skipping blanks never lengthens the input. -/
theorem length_skipBlankBy_le (reach : List Char → Option Nat) (input : List Char) :
    (skipBlankBy reach input).length ≤ input.length := by
  fun_induction skipBlankBy reach input with
  | case1 => exact Nat.le_refl _
  | case2 c rest _ ih => exact Nat.le_trans ih (by simp)
  | case3 rest _ _ _ ih =>
    refine Nat.le_trans ih ?_
    simp only [List.length_drop, List.length_cons]
    omega
  | case4 => simp
  | case5 => exact Nat.le_refl _

/-- What is left is a suffix of the input. -/
theorem skipBlankBy_suffix (reach : List Char → Option Nat) (input : List Char) :
    skipBlankBy reach input <:+ input := by
  fun_induction skipBlankBy reach input with
  | case1 => exact List.suffix_refl _
  | case2 c rest _ ih => exact ih.trans (List.suffix_cons _ rest)
  | case3 rest _ _ _ ih =>
    exact (ih.trans (List.drop_suffix _ rest)).trans (List.suffix_cons _ rest)
  | case4 => exact List.nil_suffix
  | case5 => exact List.suffix_refl _

end EvalDesk.Form
