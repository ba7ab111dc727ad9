import EvalDesk.Form.Signed
import EvalDesk.Proofs.Form.Reading

/-!
# Positions inside the text

Positions of either sign are read by rules for comments of their own. From a position inside the
text on, every comment is shorter than the text, and there both rules say the same. So the readers
for positions of either sign find what the others find, and wherever a form starts, it ends behind
its start and in the text.
-/
namespace EvalDesk.Form

/-- The forms of an input, one after another: blanks are passed over, and a form is read behind
them. -/
theorem extentsBy_step (left : Nat) (input : List Char) :
    extentsBy commentLength? left input =
      if (skipBlank input).length ≤ left then []
      else
        match formRest (skipBlank input) with
        | none => []
        | some rest =>
          if rest.length < left then []
          else ((skipBlank input).length, rest.length) :: extentsBy commentLength? left rest := by
  rw [extentsBy]
  unfold skipBlank formRest
  split
  · rfl
  · split <;> rename_i read <;> rw [read]

section Agreement

variable {reach : List Char → Option Nat} {size : Nat}
  (agree : ∀ rest, rest.length < size → reach rest = commentLength? rest)

include agree

/-- A rule for comments that is the common one on short inputs lets pass the same blanks there. -/
theorem skipBlankBy_eq {input : List Char} (short : input.length ≤ size) :
    skipBlankBy reach input = skipBlank input := by
  fun_induction skipBlankBy reach input with
  | case1 => rw [skipBlank, skipBlankBy]
  | case2 c rest blank ih =>
    rw [List.length_cons] at short
    rw [skipBlank_cons, if_pos blank, ih (by omega)]
  | case3 rest length found _ ih =>
    rw [List.length_cons] at short
    rw [agree rest (by omega)] at found
    rw [skipBlank_cons, if_neg (by decide), if_pos rfl, found]
    exact ih (by rw [List.length_drop]; omega)
  | case4 rest found =>
    rw [List.length_cons] at short
    rw [agree rest (by omega)] at found
    rw [skipBlank_cons, if_neg (by decide), if_pos rfl, found]
  | case5 c rest blank comment => rw [skipBlank_cons, if_neg blank, if_neg comment]

/-- A rule for comments that is the common one on short inputs finds the same groups there. -/
theorem groupRestBy_eq {closer : Char} {outer input : List Char} (short : input.length ≤ size) :
    groupRestBy reach closer outer input = groupRest closer outer input := by
  fun_induction groupRestBy reach closer outer input with
  | case1 => rw [groupRest, groupRestBy]
  | case2 closer outer rest behind found ih =>
    have shorter := length_stringRest_lt found
    rw [List.length_cons] at short
    rw [groupRest_cons, if_pos rfl, found, Option.bind_some, ih (by omega)]
  | case3 closer outer rest found => rw [groupRest_cons, if_pos rfl, found, Option.bind_none]
  | case4 closer outer rest quote ih =>
    have shorter := (charRest_suffix rest).length_le
    rw [List.length_cons] at short
    rw [groupRest_cons, if_neg quote, if_pos rfl, ih (by omega)]
  | case5 closer outer rest length found quote escape ih =>
    rw [List.length_cons] at short
    rw [agree rest (by omega)] at found
    rw [groupRest_cons, if_neg quote, if_neg escape, if_pos rfl, found, Option.bind_some]
    exact ih (by rw [List.length_drop]; omega)
  | case6 closer outer rest found quote escape =>
    rw [List.length_cons] at short
    rw [agree rest (by omega)] at found
    rw [groupRest_cons, if_neg quote, if_neg escape, if_pos rfl, found, Option.bind_none]
  | case7 closer outer c rest quote escape comment inner opened ih =>
    rw [List.length_cons] at short
    rw [groupRest_cons, if_neg quote, if_neg escape, if_neg comment, opened]
    exact ih (by omega)
  | case8 closer rest _ _ _ _ closes => rw [groupRest_close closes]
  | case9 closer rest _ _ _ _ closes next further ih =>
    rw [List.length_cons] at short
    rw [groupRest_close_inner next further closes, ih (by omega)]
  | case10 closer outer c rest quote escape comment unopened closes wrong =>
    rw [groupRest_cons, if_neg quote, if_neg escape, if_neg comment, unopened]
    simp only [closes, wrong, ↓reduceIte]
  | case11 closer outer c rest quote escape comment unopened unclosed ih =>
    have plain := isPlain_iff.mpr ⟨quote, escape, comment, unopened, by simpa using unclosed⟩
    rw [List.length_cons] at short
    rw [groupRest_plain closer outer plain, ih (by omega)]

/-- A rule for comments that is the common one on short inputs finds the same form there. -/
theorem formRestBy_eq {input : List Char} (short : input.length ≤ size) :
    formRestBy reach input = formRest input := by
  fun_induction formRestBy reach input with
  | case1 => rw [formRest, formRestBy]
  | case2 c rest mark ih =>
    have front := (markRest_suffix c rest).length_le
    rw [List.length_cons] at short
    have blanks := skipBlankBy_eq agree (show (markRest c rest).length ≤ size by omega)
    have shorter := length_skipBlankBy_le reach (markRest c rest)
    rw [formRest_cons, if_pos mark, ← blanks, ih (by omega)]
  | case3 rest closer behind found unmarked =>
    have shorter := length_dispatch_group found
    rw [List.length_cons] at short
    rw [formRest_cons, if_neg unmarked, if_pos rfl, found, groupRestBy_eq agree (by omega)]
  | case4 rest behind found unmarked => rw [formRest_cons, if_neg unmarked, if_pos rfl, found]
  | case5 rest behind found unmarked ih =>
    have front := length_dispatch_form found
    rw [List.length_cons] at short
    have blanks := skipBlankBy_eq agree (show behind.length ≤ size by omega)
    have shorter := length_skipBlankBy_le reach behind
    rw [formRest_cons, if_neg unmarked, if_pos rfl, found]
    simp only
    rw [← blanks, ih (by omega)]
  | case6 rest behind found unmarked ih =>
    have shorter := length_dispatch_conditional found
    rw [List.length_cons] at short
    rw [formRest_cons, if_neg unmarked, if_pos rfl, found, ih (by omega)]
  | case7 rest found unmarked => rw [formRest_cons, if_neg unmarked, if_pos rfl, found]
  | case8 rest unmarked sign => rw [formRest_cons, if_neg unmarked, if_neg sign, if_pos rfl]
  | case9 rest unmarked sign quote =>
    rw [formRest_cons, if_neg unmarked, if_neg sign, if_neg quote, if_pos rfl]
  | case10 c rest unmarked sign quote escape closer opened =>
    rw [List.length_cons] at short
    rw [formRest_cons, if_neg unmarked, if_neg sign, if_neg quote, if_neg escape, opened,
      groupRestBy_eq agree (by omega)]
  | case11 c rest unmarked sign quote escape unopened ends =>
    rw [formRest_cons, if_neg unmarked, if_neg sign, if_neg quote, if_neg escape, unopened]
    simp only [ends, ↓reduceIte]
  | case12 c rest unmarked sign quote escape unopened inside =>
    rw [formRest_cons, if_neg unmarked, if_neg sign, if_neg quote, if_neg escape, unopened]
    simp only [inside, Bool.false_eq_true, ↓reduceIte]

/-- A rule for comments that is the common one on short inputs finds the same forms there. -/
theorem extentsBy_eq {left : Nat} {input : List Char} (short : input.length ≤ size) :
    extentsBy reach left input = extentsBy commentLength? left input := by
  have blanks := length_skipBlankBy_le reach input
  have same := skipBlankBy_eq agree short
  have form := formRestBy_eq agree (Nat.le_trans blanks short)
  fun_induction extentsBy reach left input with
  | case1 input few =>
    rw [same] at few
    rw [extentsBy_step, if_pos few]
  | case2 input many unread =>
    rw [form, same] at unread
    rw [same] at many
    rw [extentsBy_step, if_neg many, unread]
  | case3 input many rest read beyond =>
    rw [form, same] at read
    rw [same] at many
    rw [extentsBy_step, if_neg many, read]
    simp only [beyond, ↓reduceIte]
  | case4 input many rest read within ih =>
    have shorter := length_formRestBy_lt read
    have further := length_skipBlankBy_le reach rest
    have later := ih (by omega) further (skipBlankBy_eq agree (by omega))
      (formRestBy_eq agree (by omega))
    rw [form, same] at read
    rw [same] at many
    rw [extentsBy_step, if_neg many, read]
    simp only [within, ↓reduceIte]
    rw [later, same]

end Agreement

variable {text : List Char}

/-- A comment that is shorter than the text reaches as far as it does anywhere. -/
theorem reachFromEnd_eq {size : Nat} (rest : List Char) (short : rest.length < size) :
    reachFromEnd size rest = commentLength? rest := if_neg (Nat.not_le_of_lt short)

/-- From a position of the text on its rest is read. -/
theorem inputFrom_natural (text : List Char) (start : Nat) :
    inputFrom text start = text.drop start := by
  rw [inputFrom, if_pos (Int.natCast_nonneg start), Int.toNat_natCast]

/-- The form at a position that does not count from the end. -/
theorem signedFormEnd_natural (text : List Char) (start : Nat) :
    signedFormEnd text start =
      .ok ((formEnd? text start).map fun (stop : Nat) => (stop : Int)) := by
  by_cases outside : text.length ≤ start
  · have behind : (text.length : Int) ≤ start := by exact_mod_cast outside
    have nothing : formEnd? text start = none := by
      rw [formEnd?, List.drop_eq_nil_of_le outside, formRest, formRestBy]
      rfl
    rw [signedFormEnd, if_pos behind, nothing]
    rfl
  · have before : ¬(text.length : Int) ≤ start := by exact_mod_cast outside
    have front : ¬(start : Int) < -text.length := by omega
    have short : (text.drop start).length ≤ text.length := (List.drop_suffix start text).length_le
    rw [signedFormEnd, if_neg before, if_neg front, inputFrom_natural,
      formRestBy_eq reachFromEnd_eq short, formEnd?, Option.map_map]
    congr 1
    cases read : formRest (text.drop start) with
    | none => rfl
    | some rest =>
      have shorter : rest.length < (text.drop start).length := length_formRestBy_lt read
      have place : positionAt text rest.length = ((text.length - rest.length : Nat) : Int) := by
        rw [positionAt]
        omega
      rw [Option.map_some, Option.map_some, place]
      rfl

/-- A form ends behind its start and in the text, also where its start counts from the end. -/
theorem signedFormEnd_bounds {start stop : Int}
    (read : signedFormEnd text start = .ok (some stop)) : start < stop ∧ stop ≤ text.length := by
  unfold signedFormEnd at read
  split at read
  · cases read
  split at read
  · cases read
  rename_i before front
  obtain ⟨rest, found, rfl⟩ := Option.map_eq_some_iff.mp (Except.ok.inj read)
  have shorter := length_formRestBy_lt found
  have left : (inputFrom text start).length = (text.length : Int) - start := by
    unfold inputFrom
    split
    · rw [List.length_drop]
      omega
    · rw [List.length_append, List.length_drop]
      omega
  rw [positionAt]
  omega

/-- The forms between two positions in order that do not count from the end. -/
theorem signedForms_natural {low high : Nat} (first : low ≤ high) (last : high ≤ text.length) :
    signedForms text low high =
      .ok ((formsIn text low high).map fun span => ((span.start : Int), (span.stop : Int))) := by
  have short : (text.drop low).length ≤ text.length := (List.drop_suffix low text).length_le
  have left : ((text.length : Int) - high).toNat = text.length - high := by omega
  by_cases filled : low < high
  · have room : ¬(high : Int) ≤ low := by exact_mod_cast Nat.not_le_of_lt filled
    have inside : ¬((low : Int) < -text.length ∨ (text.length : Int) ≤ low) := by omega
    have within : ¬(text.length : Int) < high := by omega
    rw [signedForms, if_neg room, if_neg inside, inputFrom_natural, left]
    simp only [within, false_and, ↓reduceIte, extentsBy_eq reachFromEnd_eq short]
    rw [formsIn, List.map_map]
    congr 1
    apply List.map_congr_left
    intro extent member
    obtain ⟨_, order, bound⟩ := extentsBy_bounds member
    simp only [positionAt, Function.comp_apply, Prod.mk.injEq]
    omega
  · have empty : (high : Int) ≤ low := by exact_mod_cast Nat.le_of_not_lt filled
    have none_left : formsIn text low high = [] := by
      have blanks := length_skipBlankBy_le commentLength? (text.drop low)
      rw [List.length_drop] at blanks
      rw [formsIn, extentsBy, if_pos (by omega)]
      rfl
    rw [signedForms, if_pos empty, none_left]
    rfl

end EvalDesk.Form
