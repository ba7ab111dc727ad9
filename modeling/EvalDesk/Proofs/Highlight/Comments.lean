import EvalDesk.Proofs.Highlight.Strings

/-!
# The comment of a line

A comment starts at the first semicolon that has no backslash in front of it and lies in no string.
The search for it takes the first semicolon without a backslash in front of it, and looks for no
other one when that one lies in a string. So a line is shown with its comment exactly when no such
semicolon stands in a string in front of the comment.
-/
namespace EvalDesk.Highlight

open Form (Span)
open Styled (isDropped)

/-- A semicolon without a backslash right in front of it. -/
def isBare (text : List Char) (place : Nat) : Bool :=
  text[place]? = some ';' && (place = 0 || text[place - 1]? ≠ some '\\')

/-- A semicolon from which a comment may go to the end of the line. -/
def opensComment (text : List Char) (place : Nat) : Bool :=
  isBare text place && endsLine (text.drop (place + 1))

/-- Where the comment of a line starts: at the first bare semicolon that lies in no string. -/
def commentPlace? (text : List Char) : Option Nat :=
  (List.range text.length).find? fun place =>
    isBare text place && !(successiveMatches stringExpression text).any (covers place)

/-! ## The search for the comment -/

/-- The search for the first semicolon goes on at any place of the line. -/
theorem commentStart?_iff {front rest : List Char} {place : Nat} :
    commentStart? front.getLast? front.length rest = some place ↔
      front.length ≤ place ∧ opensComment (front ++ rest) place = true ∧
        ∀ earlier < place, front.length ≤ earlier →
          opensComment (front ++ rest) earlier = false := by
  induction rest generalizing front with
  | nil =>
    refine iff_of_false nofun fun ⟨behind, opens, _⟩ => ?_
    have missing : front[place]? = none := List.getElem?_eq_none_iff.mpr behind
    simp [opensComment, isBare, missing] at opens
  | cons c rest ih =>
    have before : front.length = 0 ∨ (front ++ c :: rest)[front.length - 1]? = front.getLast? := by
      cases front with
      | nil => exact .inl rfl
      | cons first more =>
        refine .inr ?_
        rw [List.getElem?_append_left (by simp), List.getLast?_eq_getElem?]
    have own : opensComment (front ++ c :: rest) front.length = true ↔
        c = ';' ∧ front.getLast? ≠ some '\\' ∧ endsLine rest = true := by
      have behind : (front ++ c :: rest).drop (front.length + 1) = rest := by simp
      rw [opensComment, isBare, behind]
      rcases before with empty | same
      · have nothing : front = [] := List.length_eq_zero_iff.mp empty
        simp [nothing]
      · by_cases first : front.length = 0
        · have nothing : front = [] := List.length_eq_zero_iff.mp first
          simp [nothing]
        · simp [same, first, and_assoc]
    rw [commentStart?]
    split
    · rename_i opens
      have isOpen := own.mpr opens
      constructor
      · intro found
        cases found
        exact ⟨Nat.le_refl _, isOpen, fun earlier early behind => absurd early (by omega)⟩
      · rintro ⟨behind, -, none_before⟩
        congr 1
        by_contra different
        have closed := none_before front.length (by omega) (Nat.le_refl _)
        rw [isOpen] at closed
        contradiction
    · rename_i closed
      have isClosed : opensComment (front ++ c :: rest) front.length = false :=
        Bool.eq_false_iff.mpr fun opens => closed (own.mp opens)
      have further := @ih (front ++ [c])
      rw [List.getLast?_concat, List.length_append, List.length_singleton, List.append_assoc,
        List.singleton_append] at further
      rw [further]
      constructor
      · rintro ⟨behind, opens, none_before⟩
        refine ⟨by omega, opens, fun earlier early from_here => ?_⟩
        rcases Nat.eq_or_lt_of_le from_here with rfl | later
        · exact isClosed
        · exact none_before earlier early later
      · rintro ⟨behind, opens, none_before⟩
        refine ⟨?_, opens, fun earlier early later => none_before earlier early (by omega)⟩
        rcases Nat.eq_or_lt_of_le behind with rfl | later
        · rw [isClosed] at opens
          contradiction
        · exact later

/-- On a line without a line feed a comment may start at every bare semicolon. -/
theorem opensComment_eq_isBare {text : List Char} (single : '\n' ∉ text) (place : Nat) :
    opensComment text place = isBare text place := by
  have whole : ∀ c ∈ text.drop (place + 1), decide (c ≠ '\n') = true := by
    intro c member
    rw [decide_eq_true_eq]
    rintro rfl
    exact single (List.mem_of_mem_drop member)
  have ends : endsLine (text.drop (place + 1)) = true := by
    rw [endsLine, List.dropWhile_eq_nil_iff.mpr whole]
    rfl
  rw [opensComment, ends, Bool.and_true]

variable {text : List Char} {place : Nat}

/-- The search comes to the first bare semicolon of a line. -/
theorem commentStart?_eq_some (single : '\n' ∉ text) :
    commentStart? none 0 text = some place ↔
      isBare text place = true ∧ ∀ earlier < place, isBare text earlier = false := by
  have found := @commentStart?_iff [] text place
  simp only [List.getLast?_nil, List.length_nil, List.nil_append, opensComment_eq_isBare single,
    Nat.zero_le, true_and, forall_const] at found
  exact found

/-- The comment of a line goes to its end. -/
theorem mem_comments {span : Span} :
    span ∈ comments text ↔ ∃ place, commentStart? none 0 text = some place ∧
      (strings text).any (covers place) = false ∧ span = ⟨place, text.length⟩ := by
  rw [comments]
  cases commentStart? none 0 text with
  | none => simp
  | some place =>
    cases inside : (strings text).any (covers place) <;> simp only [↓reduceIte,
      Bool.false_eq_true, List.mem_singleton, List.not_mem_nil, Option.some.injEq,
      exists_eq_left', inside, Bool.true_eq_false, false_and, true_and]

/-- A bare semicolon stands in the line. -/
theorem lt_length_of_isBare (bare : isBare text place = true) : place < text.length := by
  simp only [isBare, Bool.and_eq_true, decide_eq_true_eq] at bare
  exact (List.getElem?_eq_some_iff.mp bare.1).1

/-- The comment of a line starts at the first bare semicolon that lies in no string. -/
theorem commentPlace?_eq_some :
    commentPlace? text = some place ↔
      (isBare text place = true ∧ (strings text).any (covers place) = false) ∧
        ∀ earlier < place, isBare text earlier = true →
          (strings text).any (covers earlier) = true := by
  rw [commentPlace?, ← strings_eq_successiveMatches, List.find?_range_eq_some]
  simp only [List.mem_range, Bool.and_eq_true, Bool.not_eq_eq_eq_not, Bool.not_true,
    Bool.and_eq_false_imp]
  constructor
  · rintro ⟨opens, -, none_before⟩
    refine ⟨opens, fun earlier early bare => ?_⟩
    simpa using none_before earlier early bare
  · rintro ⟨opens, none_before⟩
    refine ⟨opens, lt_length_of_isBare opens.1, fun earlier early bare => ?_⟩
    simpa using none_before earlier early bare

/-- A column is shown as a comment exactly when it stands at or behind the first bare semicolon, and
this one lies in no string. -/
theorem styleOf?_eq_dim_grey_iff (single : '\n' ∉ text) {column : Nat}
    (inside : column < text.length) :
    styleOf? text column = some "dim grey" ↔
      ∃ place ≤ column, (isBare text place = true ∧ (strings text).any (covers place) = false) ∧
        ∀ earlier < place, isBare text earlier = false := by
  rw [styleOf?_eq_dim_grey inside, List.any_eq_true]
  constructor
  · rintro ⟨span, member, covered⟩
    obtain ⟨place, found, outside, rfl⟩ := mem_comments.mp member
    obtain ⟨bare, first⟩ := (commentStart?_eq_some single).mp found
    simp only [covers, Bool.and_eq_true, decide_eq_true_eq] at covered
    exact ⟨place, covered.1, ⟨bare, outside⟩, first⟩
  · rintro ⟨place, before, ⟨bare, outside⟩, first⟩
    have found := (commentStart?_eq_some single).mpr ⟨bare, first⟩
    refine ⟨⟨place, text.length⟩, mem_comments.mpr ⟨place, found, outside, rfl⟩, ?_⟩
    simp only [covers, Bool.and_eq_true, decide_eq_true_eq]
    exact ⟨before, inside⟩

/-- The columns from the start of the comment on are shown as a comment, and no others, exactly when
no bare semicolon stands in front of the comment, where it could only stand in a string. In any case
what is shown as a comment belongs to it, so a comment may be missed but nothing else is taken for
one; and each character that is kept is shown in the style of its column. -/
theorem comment_shown_iff (single : '\n' ∉ text) :
    ((∀ column < text.length, styleOf? text column = some "dim grey" ↔
        ∃ place, commentPlace? text = some place ∧ place ≤ column) ↔
      ∀ place, commentPlace? text = some place → ∀ earlier < place, isBare text earlier = false) ∧
    (∀ column < text.length, styleOf? text column = some "dim grey" →
      ∃ place, commentPlace? text = some place ∧ place ≤ column) ∧
    ∀ column c, text[column]? = some c → isDropped c = false →
      (line text).stylesAt (column - (text.take column).countP isDropped : Nat) =
        (styleOf? text column).toList := by
  have sound : ∀ column < text.length, styleOf? text column = some "dim grey" →
      ∃ place, commentPlace? text = some place ∧ place ≤ column := by
    intro column inside shown
    obtain ⟨place, before, opens, first⟩ := (styleOf?_eq_dim_grey_iff single inside).mp shown
    refine ⟨place, commentPlace?_eq_some.mpr ⟨opens, fun earlier early bare => ?_⟩, before⟩
    rw [first earlier early] at bare
    contradiction
  have drawn : ∀ column c, text[column]? = some c → isDropped c = false →
      (line text).stylesAt (column - (text.take column).countP isDropped : Nat) =
        (styleOf? text column).toList := fun _ _ => stylesAt_line
  refine ⟨⟨fun shown place found => ?_, fun clear column inside => ⟨sound column inside, ?_⟩⟩,
    sound, drawn⟩
  · -- The first column of the comment is shown as one, so the search came to it.
    obtain ⟨opens, behind⟩ := commentPlace?_eq_some.mp found
    have inside := lt_length_of_isBare opens.1
    obtain ⟨start, before, starts, first⟩ := (styleOf?_eq_dim_grey_iff single inside).mp
      ((shown place inside).mpr ⟨place, found, Nat.le_refl _⟩)
    rcases Nat.eq_or_lt_of_le before with rfl | early
    · exact first
    · rw [behind start early starts.1] at starts
      exact absurd starts.2 (by decide)
  · rintro ⟨place, found, before⟩
    obtain ⟨opens, -⟩ := commentPlace?_eq_some.mp found
    exact (styleOf?_eq_dim_grey_iff single inside).mpr ⟨place, before, opens, clear place found⟩

/-- A comment behind a string is shown as a comment. -/
theorem comment_shown_iff_behind_string :
    '\n' ∉ "(f \"a\") ; b".toList ∧
      ∀ column < 11, styleOf? "(f \"a\") ; b".toList column = some "dim grey" ↔ 8 ≤ column := by
  have single : '\n' ∉ "(f \"a\") ; b".toList := by decide
  have found : commentPlace? "(f \"a\") ; b".toList = some 8 := by
    rw [commentPlace?, ← strings_eq_successiveMatches]
    decide +kernel
  have clear : ∀ earlier < 8, isBare "(f \"a\") ; b".toList earlier = false := by decide +kernel
  have shown := (comment_shown_iff single).1.mpr fun place here => by
    cases found.symm.trans here
    exact clear
  refine ⟨single, fun column inside => (shown column inside).trans ?_⟩
  rw [found]
  simp only [Option.some.injEq, exists_eq_left']

/-- Behind a string with a semicolon the comment is not shown as one. -/
theorem semicolon_in_string_hides_comment :
    commentPlace? "\"a;b\" ; c".toList = some 6 ∧
      ¬(∀ column < "\"a;b\" ; c".toList.length,
        styleOf? "\"a;b\" ; c".toList column = some "dim grey" ↔
          ∃ place, commentPlace? "\"a;b\" ; c".toList = some place ∧ place ≤ column) := by
  have found : commentPlace? "\"a;b\" ; c".toList = some 6 := by
    rw [commentPlace?, ← strings_eq_successiveMatches]
    decide +kernel
  have hidden : styleOf? "\"a;b\" ; c".toList 6 ≠ some "dim grey" := by decide +kernel
  exact ⟨found, fun shown => hidden ((shown 6 (by decide)).mpr ⟨6, found, Nat.le_refl _⟩)⟩

end EvalDesk.Highlight
