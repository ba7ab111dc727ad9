import EvalDesk.Proofs.Highlight.Columns

/-!
# Styles of a highlighted line

Every character that is kept is shown in the style that the rules give to its place: the runs of one
style are put side by side, and no mark of a run lies over another run. Of the rules the last one
wins, so a place is shown as a comment exactly when the comment covers it, and as a string exactly
when a string covers it and the comment does not.
-/
namespace EvalDesk

namespace Styled

/-- All marks end within the text. -/
def Marked (styled : Styled) : Prop := ∀ mark ∈ styled.marks, mark.stop ≤ styled.plain.length

/-- Adding text keeps the marks in the text. -/
theorem Marked.append {styled : Styled} (marked : styled.Marked) (text : List Char)
    (style : String) : (styled.append text style).Marked := by
  intro mark member
  rw [plain_append, List.length_append]
  unfold Styled.append at member
  split at member
  · have within := marked mark member
    omega
  · dsimp only at member
    split at member
    · have within := marked mark member
      omega
    · rcases List.mem_append.mp member with earlier | own
      · have within := marked mark earlier
        omega
      · refine Int.le_of_eq ?_
        rw [List.mem_singleton.mp own, List.length_append]

/-- Behind the text there are no marks. -/
theorem Marked.stylesAt_behind {styled : Styled} (marked : styled.Marked) {column : Nat}
    (behind : styled.plain.length ≤ column) : styled.stylesAt column = [] := by
  rw [stylesAt, List.map_eq_nil_iff, List.filter_eq_nil_iff]
  intro mark member covered
  have within := marked mark member
  simp only [Mark.covers, Bool.and_eq_true, decide_eq_true_eq] at covered
  omega

/-- Adding text changes no style in front of it. -/
theorem stylesAt_append_before (styled : Styled) (text : List Char) (style : String)
    {column : Nat} (before : column < styled.plain.length) :
    (styled.append text style).stylesAt column = styled.stylesAt column := by
  unfold Styled.append
  split
  · rfl
  · dsimp only [stylesAt]
    split
    · rfl
    · have apart : ¬(styled.plain.length : Int) ≤ column := by omega
      simp [List.filter_append, Mark.covers, apart]

/-- Over text that is added lies its own style. -/
theorem Marked.stylesAt_append {styled : Styled} (marked : styled.Marked) (text : List Char)
    {style : String} {column : Nat} (behind : styled.plain.length ≤ column)
    (within : column < styled.plain.length + (kept text).length) :
    (styled.append text style).stylesAt column = if style = "" then [] else [style] := by
  have filled : text ≠ [] := by
    rintro rfl
    simp only [kept, List.filter_nil, List.length_nil] at within
    omega
  have earlier := marked.stylesAt_behind behind
  rw [Styled.append, if_neg filled]
  dsimp only [stylesAt] at earlier ⊢
  split
  · exact earlier
  · have covered : Mark.covers ⟨styled.plain.length, (styled.plain ++ kept text).length, style⟩
        column = true := by
      simp only [Mark.covers, List.length_append, Bool.and_eq_true, decide_eq_true_eq]
      omega
    rw [List.filter_append, List.map_append, earlier, List.filter_singleton, covered]
    rfl

end Styled

namespace Highlight

open Styled (isDropped kept)
open Form (Span)

/-- The style of the character at a column. -/
def styleOf? (text : List Char) (column : Nat) : Option String := (styles text)[column]?.join

/-! ## Runs -/

/-- All characters of a run have one style, which has a name. -/
def IsRun (run : List (Char × Option String)) : Prop :=
  ∀ first ∈ run.head?, ∀ cell ∈ run, cell.2 = first.2 ∧ cell.2 ≠ some ""

/-- Adding runs changes no style in front of them. -/
theorem stylesAt_foldl_before (runs : List (List (Char × Option String))) {styled : Styled}
    {column : Nat} (before : column < styled.plain.length) :
    (runs.foldl appendRun styled).stylesAt column = styled.stylesAt column := by
  induction runs generalizing styled with
  | nil => rfl
  | cons run rest ih =>
    have further : column < (appendRun styled run).plain.length := by
      rw [appendRun, Styled.plain_append, List.length_append]
      omega
    rw [List.foldl_cons, ih further, appendRun, Styled.stylesAt_append_before _ _ _ before]

/-- Over a run that is added lies the style of its characters. -/
theorem stylesAt_appendRun {styled : Styled} (marked : styled.Marked)
    {run : List (Char × Option String)} (single : IsRun run) {cell : Char × Option String}
    (member : cell ∈ run) {column : Nat} (behind : styled.plain.length ≤ column)
    (within : column < styled.plain.length + (kept (run.map (·.1))).length) :
    (appendRun styled run).stylesAt column = cell.2.toList := by
  rw [appendRun, marked.stylesAt_append _ behind within]
  cases run with
  | nil => contradiction
  | cons first rest =>
    obtain ⟨same, named⟩ := single first rfl cell member
    rw [List.head?_cons, Option.bind_some, ← same]
    cases found : cell.2 with
    | none => rfl
    | some style =>
      have filled : style ≠ "" := fun empty => named (by rw [found, empty])
      simp [filled]

/-- In runs that are added, a character that is kept is shown in its style, at the place behind the
characters in front of it that are kept. -/
theorem stylesAt_foldl (runs : List (List (Char × Option String)))
    (single : ∀ run ∈ runs, IsRun run) {styled : Styled} (marked : styled.Marked) {place : Nat}
    {cell : Char × Option String} (found : runs.flatten[place]? = some cell)
    (stays : isDropped cell.1 = false) :
    (runs.foldl appendRun styled).stylesAt
      (styled.plain.length + (kept ((runs.flatten.take place).map (·.1))).length : Nat) =
        cell.2.toList := by
  induction runs generalizing styled place with
  | nil => simp at found
  | cons run rest ih =>
    rw [List.flatten_cons] at found ⊢
    have added : (appendRun styled run).plain.length =
        styled.plain.length + (kept (run.map (·.1))).length := by
      rw [appendRun, Styled.plain_append, List.length_append]
    rw [List.foldl_cons]
    by_cases inside : place < run.length
    · rw [List.getElem?_append_left inside] at found
      rw [List.take_append_of_le_length (Nat.le_of_lt inside)]
      -- The character itself is one more that is kept.
      have width : (kept ((run.take place).map (·.1))).length <
          (kept (run.map (·.1))).length := by
        obtain ⟨_, same⟩ := List.getElem?_eq_some_iff.mp found
        have parts : run = run.take place ++ cell :: run.drop (place + 1) := by
          rw [← same, ← List.drop_eq_getElem_cons inside, List.take_append_drop]
        conv_rhs => rw [parts]
        simp only [kept, List.map_append, List.map_cons, List.filter_append, List.filter_cons,
          stays, Bool.not_false, ↓reduceIte, List.length_append, List.length_cons]
        omega
      rw [stylesAt_foldl_before rest (by omega),
        stylesAt_appendRun marked (single run (.head _)) (List.mem_of_getElem? found) (by omega)
          (by omega)]
    · have beyond := Nat.le_of_not_lt inside
      rw [List.getElem?_append_right beyond] at found
      have shown := ih (fun other member => single other (.tail _ member))
        (marked.append (run.map (·.1)) ((run.head?.bind (·.2)).getD "")) found
      have place_eq : (kept (((run ++ rest.flatten).take place).map (·.1))).length =
          (kept (run.map (·.1))).length +
            (kept ((rest.flatten.take (place - run.length)).map (·.1))).length := by
        rw [List.take_append, List.take_of_length_le beyond, List.map_append, kept,
          List.filter_append, List.length_append]
        rfl
      rw [place_eq, ← Nat.add_assoc, ← added]
      exact shown

/-! ## The rules -/

/-- The style that the rules give to a column is that of one of them. -/
theorem styleOf?_eq {text : List Char} {column : Nat} (inside : column < text.length) :
    styleOf? text column = styleAt (rules text) column := by
  rw [styleOf?, styles, List.getElem?_map, List.getElem?_range inside]
  rfl

/-- Of the rules the last one wins: a comment over a string, and a string over the others. -/
theorem styleAt_rules (text : List Char) (place : Nat) :
    styleAt (rules text) place =
      if (comments text).any (covers place) then some "dim grey"
      else if (strings text).any (covers place) then some "green"
      else if (parts numberLength? text).any (covers place) then some "cyan"
      else if (parts keywordLength? text).any (covers place) then some "magenta"
      else if (specials 0 text).any (covers place) then some "bold blue"
      else none := rfl

/-- A column is shown as a comment exactly when the comment covers it. -/
theorem styleOf?_eq_dim_grey {text : List Char} {column : Nat} (inside : column < text.length) :
    styleOf? text column = some "dim grey" ↔ (comments text).any (covers column) = true := by
  rw [styleOf?_eq inside, styleAt_rules]
  repeat' split
  all_goals simp_all

/-- A column is shown as a string exactly when a string covers it and the comment does not. -/
theorem styleOf?_eq_green {text : List Char} {column : Nat} (inside : column < text.length) :
    styleOf? text column = some "green" ↔
      (strings text).any (covers column) = true ∧ (comments text).any (covers column) = false := by
  rw [styleOf?_eq inside, styleAt_rules]
  repeat' split
  all_goals simp_all

/-- Every style has a name. -/
theorem styleAt_rules_named (text : List Char) (place : Nat) :
    styleAt (rules text) place ≠ some "" := by
  rw [styleAt_rules]
  repeat' split
  all_goals simp

/-- The characters of a run of the line have one style. -/
theorem isRun_of_mem_runs {text : List Char} {run : List (Char × Option String)}
    (member : run ∈ runs text) : IsRun run := by
  have named : ∀ cell ∈ run, cell.2 ≠ some "" := by
    intro cell inside
    have listed : cell ∈ text.zip (styles text) := by
      have whole := List.mem_flatten.mpr ⟨run, member, inside⟩
      rwa [runs, List.flatten_splitBy] at whole
    have given := (List.of_mem_zip listed).2
    rw [styles, List.mem_map] at given
    obtain ⟨place, -, same⟩ := given
    rw [← same]
    exact styleAt_rules_named text place
  have chained := List.isChain_of_mem_splitBy member
  intro first front cell inside
  refine ⟨?_, named cell inside⟩
  cases run with
  | nil => contradiction
  | cons own rest =>
    cases front
    have alike : (first :: rest).Pairwise fun left right => left.2 = right.2 :=
      (chained.imp fun left right same => beq_iff_eq.mp same).pairwise
    rcases List.mem_cons.mp inside with rfl | later
    · rfl
    · exact (List.rel_of_pairwise_cons alike later).symm

/-- A character that is kept is shown in the style that the rules give to its column, as many
columns further to the left as characters before it are dropped. -/
theorem stylesAt_line {text : List Char} {column : Nat} {c : Char}
    (found : text[column]? = some c) (stays : isDropped c = false) :
    (line text).stylesAt (column - (text.take column).countP isDropped : Nat) =
      (styleOf? text column).toList := by
  obtain ⟨inside, same⟩ := List.getElem?_eq_some_iff.mp found
  have width : column < (styles text).length := by
    rwa [styles, List.length_map, List.length_range]
  have whole : (runs text).flatten = text.zip (styles text) := List.flatten_splitBy _ _
  have cell : (runs text).flatten[column]? = some (c, (styles text)[column]) := by
    rw [whole, List.getElem?_zip_eq_some]
    exact ⟨found, List.getElem?_eq_getElem width⟩
  have unmarked : Styled.empty.Marked := fun _ member => absurd member List.not_mem_nil
  have shown := stylesAt_foldl (runs text) (fun run => isRun_of_mem_runs) unmarked cell stays
  have front : ((runs text).flatten.take column).map (·.1) = text.take column := by
    rw [List.map_take, map_flatten_runs]
  rw [front] at shown
  rw [← Styled.length_kept_take (Nat.le_of_lt inside), styleOf?,
    List.getElem?_eq_getElem width, Option.join_some]
  simpa [line, Styled.empty] using shown

end Highlight
end EvalDesk
