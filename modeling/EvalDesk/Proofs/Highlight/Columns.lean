import EvalDesk.Highlight
import EvalDesk.Proofs.Decoration.Drawing
import Mathlib.Data.List.SplitBy

/-!
# Columns of a highlighted line

The highlighted line is put together again from its runs of one style, and what is added to styled
text loses the characters that ring, go back, or move to another line or page. So the line is the
one that was given exactly when it has none of these characters; behind each of them every character
stands one column further to the left.
-/
namespace EvalDesk

namespace Styled

/-- The text is kept as it is exactly when none of its characters is dropped. -/
theorem kept_eq_iff (text : List Char) : kept text = text ↔ ∀ c ∈ text, isDropped c = false := by
  rw [kept, List.filter_eq_self]
  apply forall₂_congr
  intro c _
  rw [Bool.not_eq_true']

/-- In front of a column as many characters are kept as stand there, less those that are dropped. -/
theorem length_kept_take {text : List Char} {column : Nat} (inside : column ≤ text.length) :
    (kept (text.take column)).length = column - (text.take column).countP isDropped := by
  have counted := List.length_eq_countP_add_countP isDropped (l := text.take column)
  rw [List.length_take_of_le inside] at counted
  have rest : (text.take column).countP (fun c => decide ¬isDropped c = true) =
      (kept (text.take column)).length := by
    rw [kept, List.countP_eq_length_filter]
    congr 2
    funext c
    simp
  omega

/-- A character that is kept stands as many places further in front as characters before it are
dropped. -/
theorem getElem?_kept {text : List Char} {column : Nat} {c : Char}
    (found : text[column]? = some c) (stays : isDropped c = false) :
    (kept text)[column - (text.take column).countP isDropped]? = some c := by
  obtain ⟨inside, rfl⟩ := List.getElem?_eq_some_iff.mp found
  have parts : text = text.take column ++ text[column] :: text.drop (column + 1) := by
    rw [← List.drop_eq_getElem_cons inside, List.take_append_drop]
  have split : kept text =
      kept (text.take column) ++ text[column] :: kept (text.drop (column + 1)) := by
    conv => lhs; rw [parts]
    simp only [kept, List.filter_append, List.filter_cons, stays, Bool.not_false, ↓reduceIte]
  rw [split, ← length_kept_take (Nat.le_of_lt inside),
    List.getElem?_append_right (Nat.le_refl _), Nat.sub_self]
  rfl

end Styled

namespace Highlight

open Styled (isDropped kept)

/-- Adding runs adds the characters of theirs that are kept. -/
theorem plain_foldl_appendRun (runs : List (List (Char × Option String))) (styled : Styled) :
    (runs.foldl appendRun styled).plain = styled.plain ++ kept (runs.flatten.map (·.1)) := by
  induction runs generalizing styled with
  | nil => simp [kept]
  | cons run rest ih =>
    rw [List.foldl_cons, ih, appendRun, Styled.plain_append, List.append_assoc, List.flatten_cons,
      List.map_append]
    simp only [kept, List.filter_append]

/-- The runs of a line put together have the characters of the line. -/
theorem map_flatten_runs (text : List Char) : (runs text).flatten.map (·.1) = text := by
  have count : text.length ≤ (styles text).length := by
    rw [styles, List.length_map, List.length_range]
  rw [runs, List.flatten_splitBy]
  exact List.map_fst_zip count

/-- The highlighted line has the characters of the line that are kept. -/
theorem plain_line (text : List Char) : (line text).plain = kept text := by
  rw [line, plain_foldl_appendRun, map_flatten_runs]
  rfl

/-- The highlighted line reads like the line exactly when the line has no character that is dropped,
and drawing decorations on it changes nothing about that. In any case each character that is kept
stands as many columns further to the left as characters before it are dropped. -/
theorem columns_in_place_iff (text : List Char) (decorations : Decorations) (start : Int) :
    ((line text).plain = text ↔ ∀ c ∈ text, isDropped c = false) ∧
      (text ≠ [] →
        (decorations.drawOn start text.length (line text)).plain = (line text).plain) ∧
      ∀ column c, text[column]? = some c → isDropped c = false →
        (line text).plain[column - (text.take column).countP isDropped]? = some c := by
  rw [plain_line]
  refine ⟨Styled.kept_eq_iff text, fun filled => ?_, fun column c found stays => ?_⟩
  · have width : (text.length : Int) ≠ 0 := by
      have some_left := List.length_pos_iff.mpr filled
      omega
    rw [Decorations.plain_drawOn decorations start (line text) width, plain_line]
  · exact Styled.getElem?_kept found stays

/-- Behind a form feed and a carriage return a bracket stands two columns further to the left, with
a decoration over it as well. -/
theorem columns_in_place_iff_moved :
    let text := "a\x0c(\x0d)".toList
    text ≠ [] ∧ text[4]? = some ')' ∧ isDropped ')' = false ∧
      (Decorations.drawOn [.between "" 2 3 "error" "" 1] 0 text.length (line text)).plain =
        (line text).plain ∧
      (line text).plain[2]? = some ')' := by
  have filled : "a\x0c(\x0d)".toList ≠ [] := by decide
  have found : "a\x0c(\x0d)".toList[4]? = some ')' := by decide
  have stays : isDropped ')' = false := by decide
  obtain ⟨_, drawn, moved⟩ := columns_in_place_iff "a\x0c(\x0d)".toList
    [.between "" 2 3 "error" "" 1] 0
  exact ⟨filled, found, stays, drawn filled, moved 4 ')' found stays⟩

/-- A line with a form feed is not kept as it is. -/
theorem form_feed_moves_columns : (line "a\x0cb".toList).plain ≠ "a\x0cb".toList := by
  rw [plain_line]
  decide

end Highlight
end EvalDesk
