import EvalDesk.Proofs.Form.Group
import EvalDesk.Proofs.Highlight.Styles
import EvalDesk.Proofs.Location.Expression

/-!
# Strings of a line

The strings of a line are the successive matches of a regular expression: a quote, then as many
characters or pairs with a backslash as there are, and a closing quote if there is one. From a place
outside of all strings on the search starts afresh, and a string that is closed is found whole.
-/
namespace EvalDesk.Highlight

open Form (Span StringInside)
open Location (escapedExpression)
open Text (Expression Stand)
open Text.Expression (one many perhaps series)

/-! ## The regular expression -/

/-- How many characters an expression takes at the front of a text. -/
def matchLength? (expression : Expression) (before : Option Char) (text : List Char) : Option Nat :=
  (expression.first? ⟨before, text, fun _ => none⟩).map fun next => text.length - next.rest.length

/-- The matches of an expression, each looked for behind the one before. -/
def successiveMatches (expression : Expression) (text : List Char) : List Span :=
  parts (matchLength? expression) text

/-- A string, which may lack its closing quote. -/
def stringExpression : Expression :=
  series [one (· = '"'), many escapedExpression, perhaps (one (· = '"'))]

/-- Behind the opening quote of a string. -/
def stringTailExpression : Expression := series [many escapedExpression, perhaps (one (· = '"'))]

/-- The closing quote is passed where it stands. -/
theorem first?_closing (stand : Stand) : (series [perhaps (one (· = '"'))]).first? stand =
    some (match stand.rest with
      | '"' :: rest => stand.pass ['"'] rest
      | _ => stand) := by
  obtain ⟨before, text, parts⟩ := stand
  rw [Text.Expression.first?_perhaps, Text.Expression.first?_cons]
  cases text with
  | nil => rfl
  | cons c rest =>
    rw [Text.Expression.ways_one_cons]
    by_cases quote : c = '"'
    · subst quote
      rfl
    · simp [quote, Text.Expression.first?_nil]

/-- Where no more can be taken a string ends, with the closing quote if it stands there. -/
theorem first?_stringTail_stuck {stand : Stand} (stuck : escapedExpression.ways stand = []) :
    stringTailExpression.first? stand = (series [perhaps (one (· = '"'))]).first? stand := by
  rw [stringTailExpression, Text.Expression.first?_cons,
    Text.Expression.ways_many_of_eq_nil stuck, List.findSome?_singleton]

/-- What can be taken is taken, and the string goes on behind it. -/
theorem first?_stringTail_turn {stand next : Stand}
    (single : escapedExpression.ways stand = [next])
    (shorter : next.rest.length < stand.rest.length) :
    stringTailExpression.first? stand = stringTailExpression.first? next := by
  have closes : ((series [perhaps (one (· = '"'))]).first? stand).isSome = true := by
    rw [first?_closing]
    rfl
  rw [stringTailExpression, Text.Expression.first?_cons, Text.Expression.first?_cons,
    Text.Expression.ways_many_of_eq_singleton single shorter, List.findSome?_append]
  apply Text.Expression.or_eq_left
  intro _
  rw [List.findSome?_isSome_iff]
  refine ⟨next, Text.Expression.mem_ways_many _ _, ?_⟩
  rw [first?_closing]
  rfl

/-- Behind the opening quote the expression takes what the reader takes. -/
theorem first?_stringTail (before : Option Char) (text : List Char)
    (parts : Nat → Option (List Char)) :
    (stringTailExpression.first? ⟨before, text, parts⟩).map (·.rest) =
      some (text.drop (stringTail text)) := by
  fun_induction stringTail text generalizing before with
  | case1 =>
    rw [first?_stringTail_stuck rfl, first?_closing]
    rfl
  | case2 rest =>
    rw [first?_stringTail_stuck (Location.ways_escaped_own (by decide) before rest parts),
      first?_closing]
    rfl
  | case3 =>
    rw [first?_stringTail_stuck (Location.ways_escaped_backslash before [] parts), first?_closing]
    rfl
  | case4 rest =>
    rw [first?_stringTail_stuck (Location.ways_escaped_backslash before ('\n' :: rest) parts),
      first?_closing]
    rfl
  | case5 c rest other ih =>
    have single : escapedExpression.ways ⟨before, '\\' :: c :: rest, parts⟩ =
        [⟨some c, rest, parts⟩] := by simp [Location.ways_escaped_backslash, other]
    rw [first?_stringTail_turn single (by simp only [List.length_cons]; omega), ih, Nat.add_comm 2]
    rfl
  | case6 c rest unquoted single pair ih =>
    have own : c ≠ '\\' := by
      intro same
      cases rest with
      | nil => exact single same rfl
      | cons d more => exact pair d more same rfl
    have alone : escapedExpression.ways ⟨before, c :: rest, parts⟩ = [⟨some c, rest, parts⟩] := by
      rw [Location.ways_escaped_own own, if_neg (by simpa using unquoted)]
    rw [first?_stringTail_turn alone (Nat.lt_succ_self _), ih, Nat.add_comm 1]
    rfl

/-- The reader behind an opening quote stays in the text. -/
theorem stringTail_le (text : List Char) : stringTail text ≤ text.length := by
  fun_induction stringTail text with
  | case1 | case2 | case3 | case4 => simp
  | case5 c rest other ih =>
    simp only [List.length_cons]
    omega
  | case6 c rest _ _ _ ih =>
    simp only [List.length_cons]
    omega

/-- A string is found by its expression where the reader finds it, and in the same length. -/
theorem stringLength?_eq_matchLength? : stringLength? = matchLength? stringExpression := by
  funext before text
  rw [matchLength?, stringExpression, Text.Expression.first?_cons]
  cases text with
  | nil => rfl
  | cons c rest =>
    rw [Text.Expression.ways_one_cons]
    by_cases quote : c = '"'
    · subst quote
      have within := stringTail_le rest
      have taken := first?_stringTail (some '"') rest fun _ => none
      obtain ⟨next, found, behind⟩ := Option.map_eq_some_iff.mp taken
      rw [if_pos (by decide), List.findSome?_singleton]
      change _ = (stringTailExpression.first? _).map _
      rw [found, Option.map_some, behind, List.length_drop, List.length_cons, stringLength?]
      congr 1
      omega
    · have missing : stringLength? before (c :: rest) = none := by
        unfold stringLength?
        split
        · rename_i same
          exact absurd (List.cons.inj same).1 quote
        · rfl
      rw [missing, if_neg (by simpa using quote)]
      rfl

/-- The strings of a line are the successive matches of their expression. -/
theorem strings_eq_successiveMatches (line : List Char) :
    strings line = successiveMatches stringExpression line := by
  rw [strings, successiveMatches, stringLength?_eq_matchLength?]

/-! ## The search from a place on -/

/-- The strings that are found from a place on that lies in no string. -/
def stringsFrom (text : List Char) (place : Nat) : List Span :=
  successive stringLength? none place 0 (text.drop place)

/-- While characters of a string are left they are passed over, whatever stands before them. -/
theorem successive_stringLength? (before : Option Char) (offset left : Nat) (text : List Char) :
    successive stringLength? before offset left text =
      successive stringLength? none (offset + left) 0 (text.drop left) := by
  induction text generalizing before offset left with
  | nil => cases left <;> rfl
  | cons c rest ih =>
    cases left with
    | zero => rfl
    | succ left =>
      rw [successive, ih, List.drop_succ_cons, Nat.add_right_comm, Nat.add_assoc]

variable {text : List Char} {place : Nat}

/-- Behind the end of the text no string is found. -/
theorem stringsFrom_of_length_le (beyond : text.length ≤ place) : stringsFrom text place = [] := by
  rw [stringsFrom, List.drop_eq_nil_of_le beyond]
  rfl

/-- At a character other than a quote no string starts. -/
theorem stringsFrom_of_ne {c : Char} (found : text[place]? = some c) (unquoted : c ≠ '"') :
    stringsFrom text place = stringsFrom text (place + 1) := by
  have missing : ∀ rest, stringLength? none (c :: rest) = none := by
    intro rest
    unfold stringLength?
    split
    · rename_i same
      exact absurd (List.cons.inj same).1 unquoted
    · rfl
  rw [stringsFrom, Form.drop_of_getElem? found, successive, missing]
  exact successive_stringLength? _ _ _ _

/-- At a quote a string starts, and the search goes on behind it. -/
theorem stringsFrom_of_quote (found : text[place]? = some '"') :
    stringsFrom text place =
      ⟨place, place + 1 + stringTail (text.drop (place + 1))⟩ ::
        stringsFrom text (place + 1 + stringTail (text.drop (place + 1))) := by
  have length : stringLength? none ('"' :: text.drop (place + 1)) =
      some (1 + stringTail (text.drop (place + 1))) := rfl
  rw [stringsFrom, Form.drop_of_getElem? found, successive, length]
  simp only [successive_stringLength? (some '"'), Nat.add_sub_cancel_left, List.drop_drop,
    Nat.add_assoc, stringsFrom]

/-- A string that is found from a place on starts there or behind it. -/
theorem le_start_of_mem_stringsFrom {span : Span} (member : span ∈ stringsFrom text place) :
    place ≤ span.start := by
  induction left : text.length - place using Nat.strong_induction_on generalizing place with
  | h left ih =>
    subst left
    cases found : text[place]? with
    | none =>
      rw [stringsFrom_of_length_le (List.getElem?_eq_none_iff.mp found)] at member
      contradiction
    | some c =>
      have inside := (List.getElem?_eq_some_iff.mp found).1
      by_cases quote : c = '"'
      · subst quote
        rw [stringsFrom_of_quote found] at member
        rcases List.mem_cons.mp member with rfl | later
        · exact Nat.le_refl _
        · have behind := ih _ (by omega) later rfl
          omega
      · rw [stringsFrom_of_ne found quote] at member
        have behind := ih _ (by omega) member rfl
        omega

/-- A string that is closed on its line is taken up to the quote that closes it. -/
theorem stringTail_closed {inside : List Char} (body : StringInside inside)
    (single : '\n' ∉ inside) (rest : List Char) :
    stringTail (inside ++ '"' :: rest) = inside.length + 1 := by
  induction body with
  | nil => rfl
  | @plain c more quote backslash _ ih =>
    rw [List.cons_append, stringTail, ih fun feed => single (.tail _ feed), List.length_cons,
      Nat.add_comm 1]
    · exact quote
    · exact fun same => absurd same backslash
    · exact fun _ _ same => absurd same backslash
  | @escaped c more _ ih =>
    have other : c ≠ '\n' := fun same => single (same ▸ .tail _ (.head _))
    rw [List.cons_append, List.cons_append, stringTail, if_neg other,
      ih fun feed => single (.tail _ (.tail _ feed)), List.length_cons, List.length_cons,
      Nat.add_comm 2]

end EvalDesk.Highlight
