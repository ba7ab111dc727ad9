import EvalDesk.Form.Blank
import EvalDesk.Form.Literal

/-!
# Reading one form

`formRest` reads the form at the front of the input and returns what is left behind it. A bracketed
group is scanned flatly, with the closing brackets still expected on a stack, so it is found however
deep its contents are nested; everything else is read by its first characters: marks that stand
before a form, dispatches and tags, strings, character literals and tokens. The form behind a mark
or a tag is read by recursion. How deep recursion may go is not limited here, so a form is found
behind any number of marks.
-/
namespace EvalDesk.Form

/-- The bracket that closes an opening bracket. -/
def closerOf? (c : Char) : Option Char :=
  if c = '(' then some ')'
  else if c = '[' then some ']'
  else if c = '\x7b' then some '\x7d'
  else none

/-- A closing bracket. -/
def isCloser (c : Char) : Bool := c = ')' || c = ']' || c = '\x7d'

/-- What is left behind a group whose opening bracket has been read. The group closes with
`closer`; the groups around it that are scanned with it close with `outer`, innermost first. -/
def groupRestBy (reach : List Char → Option Nat) (closer : Char) (outer : List Char) :
    List Char → Option (List Char)
  | [] => none
  | c :: rest =>
    if c = '"' then
      match _ : stringRest rest with
      | some behind => groupRestBy reach closer outer behind
      | none => none
    else if c = '\\' then groupRestBy reach closer outer (charRest rest)
    else if c = ';' then
      match reach rest with
      | some length => groupRestBy reach closer outer (rest.drop length)
      | none => none
    else
      match closerOf? c with
      | some inner => groupRestBy reach inner (closer :: outer) rest
      | none =>
        if isCloser c then
          if c = closer then
            match outer with
            | [] => some rest
            | next :: further => groupRestBy reach next further rest
          else none
        else groupRestBy reach closer outer rest
termination_by input => input.length
decreasing_by
  · have := length_stringRest_lt ‹stringRest rest = some _›
    simp only [List.length_cons]
    omega
  · have := (charRest_suffix rest).length_le
    simp only [List.length_cons]
    omega
  · simp only [List.length_cons, List.length_drop]
    omega
  all_goals simp

/-- Whether the character is a mark that stands before a form. -/
def isMark (c : Char) : Bool := c = '\'' || c = '\x60' || c = '~' || c = '@' || c = '^'

/-- The input without an at sign at its front. -/
def dropAt : List Char → List Char
  | '@' :: rest => rest
  | rest => rest

/-- What is left behind the mark whose first character has been read; a tilde takes an at sign. -/
def markRest (c : Char) (rest : List Char) : List Char := if c = '~' then dropAt rest else rest

/-- Dropping an at sign leaves a suffix. -/
theorem dropAt_suffix (input : List Char) : dropAt input <:+ input := by
  unfold dropAt
  split
  · exact List.suffix_cons _ _
  · exact List.suffix_refl _

/-- The rest behind a mark is a suffix. -/
theorem markRest_suffix (c : Char) (rest : List Char) : markRest c rest <:+ rest := by
  unfold markRest
  split
  · exact dropAt_suffix rest
  · exact List.suffix_refl _

/-- What stands behind a number sign. -/
inductive Dispatch where
  /-- A group that closes with the bracket, its opening bracket read. -/
  | group (closer : Char) (rest : List Char)
  /-- A string, its opening quote read. -/
  | string (rest : List Char)
  /-- Another form after blanks. -/
  | form (rest : List Char)
  /-- Another form at once. -/
  | conditional (rest : List Char)
  /-- Nothing that can be read. -/
  | nothing

/-- Tell apart what stands behind a number sign. A quote or a low line takes the next form, a
question mark takes the form right behind it and an at sign, and anything else is a tag that takes
the next form. -/
def dispatch (input : List Char) : Dispatch :=
  match input with
  | [] => .nothing
  | c :: rest =>
    if c = '(' then .group ')' rest
    else if c = '\x7b' then .group '\x7d' rest
    else if c = '"' then .string rest
    else if c = '\'' || c = '_' then .form rest
    else if c = '?' then .conditional (dropAt rest)
    else if endsToken c then .nothing
    else .form (tokenRest input)

/-- A form behind a number sign starts after at least one more character. -/
theorem length_dispatch_form {input rest : List Char} (found : dispatch input = .form rest) :
    rest.length < input.length := by
  unfold dispatch at found
  split at found
  · contradiction
  · rename_i c tail
    repeat' split at found
    all_goals first | contradiction | cases found
    · simp
    · rename_i inside
      exact length_tokenRest_lt (by simpa using inside)

/-- A conditional form starts after at least one more character. -/
theorem length_dispatch_conditional {input rest : List Char}
    (found : dispatch input = .conditional rest) : rest.length < input.length := by
  unfold dispatch at found
  split at found
  · contradiction
  · rename_i c tail
    repeat' split at found
    all_goals first | contradiction | cases found
    have := (dropAt_suffix tail).length_le
    simp only [List.length_cons]
    omega

/-- What is left behind the form at the front of the input, by a rule for the reach of comments;
none when no form starts there or it has no end. A limit of recursion, as an interpreter has one for
a form behind very many marks, is left out. -/
def formRestBy (reach : List Char → Option Nat) : List Char → Option (List Char)
  | [] => none
  | c :: rest =>
    if isMark c then formRestBy reach (skipBlankBy reach (markRest c rest))
    else if c = '#' then
      match _ : dispatch rest with
      | .group closer rest => groupRestBy reach closer [] rest
      | .string rest => stringRest rest
      | .form rest => formRestBy reach (skipBlankBy reach rest)
      | .conditional rest => formRestBy reach rest
      | .nothing => none
    else if c = '"' then stringRest rest
    else if c = '\\' then some (charRest rest)
    else
      match closerOf? c with
      | some closer => groupRestBy reach closer [] rest
      | none => if endsToken c then none else some (tokenRest (c :: rest))
termination_by input => input.length
decreasing_by
  · have := length_skipBlankBy_le reach (markRest c rest)
    have := (markRest_suffix c rest).length_le
    simp only [List.length_cons]
    omega
  · have := length_skipBlankBy_le reach ‹_›
    have := length_dispatch_form ‹dispatch _ = .form _›
    simp only [List.length_cons]
    omega
  · have := length_dispatch_conditional ‹dispatch _ = .conditional _›
    simp only [List.length_cons]
    omega

/-- What is left behind a group, comments reaching up to their line feed. -/
def groupRest (closer : Char) (outer : List Char) (input : List Char) : Option (List Char) :=
  groupRestBy commentLength? closer outer input

/-- What is left behind the form at the front of the input. -/
def formRest (input : List Char) : Option (List Char) := formRestBy commentLength? input

/-- The rest behind a group is shorter than the group. -/
theorem length_groupRestBy_lt {reach : List Char → Option Nat} {closer : Char}
    {outer input rest : List Char} (read : groupRestBy reach closer outer input = some rest) :
    rest.length < input.length := by
  fun_induction groupRestBy reach closer outer input with
  | case1 | case3 | case6 | case10 => contradiction
  | case2 _ _ _ _ found ih =>
    have shorter := length_stringRest_lt found
    have behind := ih read
    simp only [List.length_cons]
    omega
  | case4 _ _ tail _ ih =>
    have behind := ih read
    have shorter := (charRest_suffix tail).length_le
    simp only [List.length_cons]
    omega
  | case5 _ _ _ _ _ _ _ ih =>
    have behind := ih read
    simp only [List.length_cons, List.length_drop] at *
    omega
  | case7 _ _ _ _ _ _ _ _ _ ih | case9 _ _ _ _ _ _ _ _ _ ih
  | case11 _ _ _ _ _ _ _ _ _ ih =>
    have behind := ih read
    simp only [List.length_cons]
    omega
  | case8 =>
    cases read
    simp

/-- The rest behind a dispatched group is shorter than the input of the dispatch. -/
theorem length_dispatch_group {closer : Char} {input rest : List Char}
    (found : dispatch input = .group closer rest) : rest.length < input.length := by
  unfold dispatch at found
  split at found
  · contradiction
  · repeat' split at found
    all_goals first | contradiction | cases found
    all_goals simp

/-- The rest behind a dispatched quote is shorter than the input of the dispatch. -/
theorem length_dispatch_string {input rest : List Char}
    (found : dispatch input = .string rest) : rest.length < input.length := by
  unfold dispatch at found
  split at found
  · contradiction
  · repeat' split at found
    all_goals first | contradiction | cases found
    simp

/-- The rest behind a form is shorter than the form. -/
theorem length_formRestBy_lt {reach : List Char → Option Nat} {input rest : List Char}
    (read : formRestBy reach input = some rest) : rest.length < input.length := by
  fun_induction formRestBy reach input with
  | case1 | case7 | case11 => contradiction
  | case2 c tail _ ih =>
    have behind := ih read
    have blanks := length_skipBlankBy_le reach (markRest c tail)
    have mark := (markRest_suffix c tail).length_le
    simp only [List.length_cons]
    omega
  | case3 _ _ _ found =>
    have behind := length_groupRestBy_lt read
    have shorter := length_dispatch_group found
    simp only [List.length_cons]
    omega
  | case4 _ _ found =>
    have behind := length_stringRest_lt read
    have shorter := length_dispatch_string found
    simp only [List.length_cons]
    omega
  | case5 _ tail found _ ih =>
    have behind := ih read
    have blanks := length_skipBlankBy_le reach tail
    have shorter := length_dispatch_form found
    simp only [List.length_cons]
    omega
  | case6 _ _ found _ ih =>
    have behind := ih read
    have shorter := length_dispatch_conditional found
    simp only [List.length_cons]
    omega
  | case8 =>
    have behind := length_stringRest_lt read
    simp only [List.length_cons]
    omega
  | case9 tail =>
    cases read
    have shorter := (charRest_suffix tail).length_le
    simp only [List.length_cons]
    omega
  | case10 =>
    have behind := length_groupRestBy_lt read
    simp only [List.length_cons]
    omega
  | case12 _ _ _ _ _ _ _ inside =>
    cases read
    exact length_tokenRest_lt (by simpa using inside)

end EvalDesk.Form
