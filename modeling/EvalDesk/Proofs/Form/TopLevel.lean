import EvalDesk.Form.Namespace
import EvalDesk.Form.Query

/-!
# Outermost forms

An outermost form is found again at its own start, whatever offset it was found at first. The forms
of a text are outermost forms, so the one that declares the namespace is found at its start too.
-/
namespace EvalDesk.Form

variable {size : Nat} {offset : Int} {previous : Option Span} {input : List Char} {span : Span}

/-- A form at the front of the input is found at its start. -/
theorem topLevelFrom_front {rest : List Char} (ink : skipBlank input ≠ [])
    (read : formRest (skipBlank input) = some rest) (bound : input.length ≤ size)
    (previous : Option Span) :
    topLevelFrom size ((size - (skipBlank input).length : Nat) : Int) previous input =
      some ⟨size - (skipBlank input).length, size - rest.length⟩ := by
  have shorter : rest.length < (skipBlank input).length := length_formRestBy_lt read
  have blanks : (skipBlank input).length ≤ input.length :=
    length_skipBlankBy_le commentLength? input
  have ends : size - (skipBlank input).length < size - rest.length := by omega
  rw [topLevelFrom, if_neg ink]
  split
  · rename_i missing
    rw [read] at missing
    contradiction
  · rename_i other found
    rw [read] at found
    cases found
    simp only
    rw [if_neg (by omega), if_pos (by exact_mod_cast ends)]

/-- A form without an end is found at its start. -/
theorem topLevelFrom_unread (ink : skipBlank input ≠ [])
    (unread : formRest (skipBlank input) = none) (previous : Option Span) :
    topLevelFrom size ((size - (skipBlank input).length : Nat) : Int) previous input =
      some ⟨size - (skipBlank input).length, size⟩ := by
  rw [topLevelFrom, if_neg ink]
  split
  · exact if_pos (Int.le_refl _)
  · rename_i rest read
    rw [unread] at read
    contradiction

/-- A form behind the first one of the input is looked for behind it. -/
theorem topLevelFrom_behind {rest : List Char} (ink : skipBlank input ≠ [])
    (read : formRest (skipBlank input) = some rest) (later : size - rest.length ≤ offset)
    (bound : input.length ≤ size) (previous : Option Span) :
    topLevelFrom size offset previous input =
      topLevelFrom size offset
        (some ⟨size - (skipBlank input).length, size - rest.length⟩) rest := by
  have shorter : rest.length < (skipBlank input).length := length_formRestBy_lt read
  have blanks : (skipBlank input).length ≤ input.length :=
    length_skipBlankBy_le commentLength? input
  rw [topLevelFrom, if_neg ink]
  split
  · rename_i missing
    rw [read] at missing
    contradiction
  · rename_i other found
    rw [read] at found
    cases found
    simp only
    rw [if_neg (by omega), if_neg (by omega)]

/-- An outermost form that is found in the input is found at its start, whatever comes before. -/
theorem topLevelFrom_start (found : topLevelFrom size offset previous input = some span)
    (bound : input.length ≤ size) :
    previous = some span ∨ (size - input.length ≤ span.start ∧
      ∀ other, topLevelFrom size span.start other input = some span) := by
  fun_induction topLevelFrom size offset previous input with
  | case1 | case3 => exact .inl found
  | case2 previous input ink start unread reached =>
    cases found
    have blanks := length_skipBlankBy_le commentLength? input
    refine .inr ⟨Nat.sub_le_sub_left blanks size, fun other => ?_⟩
    exact topLevelFrom_unread ink unread other
  | case4 previous input ink start rest read first before =>
    cases previous with
    | some earlier => exact .inl found
    | none =>
      rw [← Option.some.inj found]
      have blanks := length_skipBlankBy_le commentLength? input
      exact .inr ⟨Nat.sub_le_sub_left blanks size, topLevelFrom_front ink read bound⟩
  | case5 previous input ink start rest read first before inside =>
    rw [← Option.some.inj found]
    have blanks := length_skipBlankBy_le commentLength? input
    exact .inr ⟨Nat.sub_le_sub_left blanks size, topLevelFrom_front ink read bound⟩
  | case6 previous input ink start rest read first before behind ih =>
    have shorter : rest.length < (skipBlank input).length := length_formRestBy_lt read
    have blanks : (skipBlank input).length ≤ input.length :=
      length_skipBlankBy_le commentLength? input
    rcases ih found (by omega) with own | ⟨later, again⟩
    · rw [← Option.some.inj own]
      exact .inr ⟨Nat.sub_le_sub_left blanks size, topLevelFrom_front ink read bound⟩
    · refine .inr ⟨by omega, fun other => ?_⟩
      rw [topLevelFrom_behind ink read (by omega) bound other]
      exact again _

/-- The outermost form at an offset is the one at its own start. -/
theorem topLevelAt_start {text : List Char} (found : topLevelAt text offset = some span) :
    topLevelAt text span.start = some span := by
  rcases topLevelFrom_start found (Nat.le_refl _) with none_before | ⟨_, again⟩
  · contradiction
  · exact again none

/-- The forms of an input are found at their starts. -/
theorem topLevelFrom_of_mem {extent : Nat × Nat} (bound : input.length ≤ size)
    (member : extent ∈ extentsBy commentLength? 0 input) (previous : Option Span) :
    topLevelFrom size ((size - extent.1 : Nat) : Int) previous input =
      some ⟨size - extent.1, size - extent.2⟩ := by
  fun_induction extentsBy commentLength? 0 input generalizing previous with
  | case1 | case2 | case3 => contradiction
  | case4 input ink rest read _ ih =>
    have shorter : rest.length < (skipBlank input).length := length_formRestBy_lt read
    have blanks : (skipBlank input).length ≤ input.length :=
      length_skipBlankBy_le commentLength? input
    have some_left : skipBlank input ≠ [] := by
      intro nothing
      rw [nothing] at shorter
      contradiction
    rcases List.mem_cons.mp member with rfl | later
    · exact topLevelFrom_front some_left read bound previous
    · obtain ⟨_, _, within⟩ := extentsBy_bounds later
      rw [topLevelFrom_behind some_left read (by omega) bound previous]
      exact ih (by omega) later _

/-- The forms of a text are found at their starts. -/
theorem topLevelAt_of_mem {text : List Char} (member : span ∈ forms text) :
    topLevelAt text span.start = some span := by
  obtain ⟨extent, listed, rfl⟩ := List.mem_map.mp member
  rw [Nat.sub_self, List.drop_zero] at listed
  exact topLevelFrom_of_mem (Nat.le_refl _) listed none

end EvalDesk.Form
