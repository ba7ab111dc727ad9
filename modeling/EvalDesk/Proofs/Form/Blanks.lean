import EvalDesk.Form.Signed
import EvalDesk.Proofs.Form.Reading

/-!
# Blanks up to a limit

Blanks and comments are passed over in two ways: all of them on the input, or position by position
up to a limit. The walk to a limit looks for the end of a comment behind the limit too, and still it
stops where the other one stops, or at the limit when that comes first. What is passed over is a
gap: blanks and comments, of which only the last one may be left without its line feed.
-/
namespace EvalDesk.Form

/-- Blanks and comments, each comment with the line feed that ends it. -/
inductive Gap : List Char → Prop where
  /-- Nothing. -/
  | nil : Gap []
  /-- A blank. -/
  | blank {c : Char} {rest : List Char} (isBlank : isBlank c = true) (more : Gap rest) :
    Gap (c :: rest)
  /-- A comment. -/
  | comment {line rest : List Char} (clear : '\n' ∉ line) (more : Gap rest) :
    Gap (';' :: (line ++ '\n' :: rest))

/-- Blanks and comments, of which the last comment has no line feed. -/
def OpenGap (part : List Char) : Prop :=
  ∃ gap line, Gap gap ∧ '\n' ∉ line ∧ part = gap ++ ';' :: line

/-! ## What is passed over -/

/-- A gap in front of another is one gap with it. -/
theorem Gap.append {front behind : List Char} (first : Gap front) (second : Gap behind) :
    Gap (front ++ behind) := by
  induction first with
  | nil => exact second
  | blank isBlank _ ih => exact .blank isBlank ih
  | comment clear _ ih =>
    rw [List.cons_append, List.append_assoc, List.cons_append]
    exact .comment clear ih

/-- A gap in front of one that is open is an open gap with it. -/
theorem OpenGap.append {front behind : List Char} (first : Gap front) (second : OpenGap behind) :
    OpenGap (front ++ behind) := by
  obtain ⟨gap, line, isGap, clear, rfl⟩ := second
  exact ⟨front ++ gap, line, first.append isGap, clear, (List.append_assoc _ _ _).symm⟩

/-- Where a gap is cut, a gap is left in front, be it an open one. -/
theorem Gap.take {part : List Char} (gap : Gap part) (count : Nat) :
    Gap (part.take count) ∨ OpenGap (part.take count) := by
  induction gap generalizing count with
  | nil =>
    rw [List.take_nil]
    exact .inl .nil
  | blank isBlank _ ih =>
    cases count with
    | zero => exact .inl .nil
    | succ count => exact (ih count).imp (.blank isBlank) (.append (.blank isBlank .nil))
  | @comment line rest clear _ ih =>
    cases count with
    | zero => exact .inl .nil
    | succ count =>
      have whole : Gap (';' :: (line ++ ['\n'])) := .comment clear .nil
      by_cases short : count ≤ line.length
      · -- The cut lies in the comment.
        right
        rw [List.take_succ_cons, List.take_append_of_le_length short]
        exact ⟨[], line.take count, .nil, fun feed => clear (List.mem_of_mem_take feed), rfl⟩
      · obtain ⟨width, rfl⟩ : ∃ width, count = line.length + (width + 1) :=
          ⟨count - line.length - 1, by omega⟩
        have parts : (';' :: (line ++ '\n' :: rest)).take (line.length + (width + 1) + 1) =
            (';' :: (line ++ ['\n'])) ++ rest.take width := by
          rw [List.take_succ_cons, List.take_length_add_append, List.take_succ_cons]
          simp
        rw [parts]
        exact (ih width).imp whole.append (.append whole)

/-- Where an open gap is cut, a gap is left in front, be it an open one. -/
theorem OpenGap.take {part : List Char} (gap : OpenGap part) (count : Nat) :
    Gap (part.take count) ∨ OpenGap (part.take count) := by
  obtain ⟨front, line, isGap, clear, rfl⟩ := gap
  by_cases short : count ≤ front.length
  · rw [List.take_append_of_le_length short]
    exact isGap.take count
  · right
    obtain ⟨width, rfl⟩ : ∃ width, count = front.length + (width + 1) :=
      ⟨count - front.length - 1, by omega⟩
    rw [List.take_length_add_append, List.take_succ_cons]
    exact ⟨front, line.take width, isGap, fun feed => clear (List.mem_of_mem_take feed), rfl⟩

/-- What the reader of blanks passes over is a gap, which is open only where nothing is left. -/
theorem exists_gap (input : List Char) :
    ∃ part, input = part ++ skipBlank input ∧
      (Gap part ∨ skipBlank input = [] ∧ OpenGap part) := by
  unfold skipBlank
  fun_induction skipBlankBy commentLength? input with
  | case1 => exact ⟨[], rfl, .inl .nil⟩
  | case2 c rest blank ih =>
    obtain ⟨part, parts, gap⟩ := ih
    refine ⟨c :: part, by rw [List.cons_append, ← parts], ?_⟩
    exact gap.imp (.blank blank) (And.imp_right (.append (.blank blank .nil)))
  | case3 rest length reach _ ih =>
    obtain ⟨line, behind, clear, rfl, rfl⟩ := (commentLength?_iff rest length).mp reach
    have left : (line ++ '\n' :: behind).drop (line.length + 1) = behind := by simp
    rw [left] at ih ⊢
    obtain ⟨part, parts, gap⟩ := ih
    have whole : Gap (';' :: (line ++ ['\n'])) := .comment clear .nil
    refine ⟨(';' :: (line ++ ['\n'])) ++ part, ?_, ?_⟩
    · rw [List.append_assoc, ← parts]
      simp
    · exact gap.imp whole.append (And.imp_right (.append whole))
  | case4 rest unended =>
    have clear : '\n' ∉ rest := by
      intro feed
      obtain ⟨line, behind, rfl, before⟩ := List.eq_append_cons_of_mem feed
      have reach := (commentLength?_iff _ _).mpr ⟨line, behind, before, rfl, rfl⟩
      rw [reach] at unended
      contradiction
    exact ⟨';' :: rest, by simp, .inr ⟨rfl, [], rest, .nil, clear, rfl⟩⟩
  | case5 c rest => exact ⟨[], rfl, .inl .nil⟩

/-- The reader of blanks stops at a character that neither is a blank nor starts a comment. -/
theorem ink_of_skipBlank {input rest : List Char} {c : Char} (left : skipBlank input = c :: rest) :
    isBlank c = false ∧ c ≠ ';' := by
  unfold skipBlank at left
  fun_induction skipBlankBy commentLength? input with
  | case1 | case4 => contradiction
  | case2 _ _ _ ih | case3 _ _ _ _ ih => exact ih left
  | case5 first others apart code =>
    cases left
    exact ⟨by simpa using apart, code⟩

/-- At a place where blanks end there are none to pass over. -/
theorem skipBlank_skipBlank (input : List Char) :
    skipBlank (skipBlank input) = skipBlank input := by
  cases left : skipBlank input with
  | nil => rw [skipBlank, skipBlankBy]
  | cons c rest =>
    obtain ⟨apart, code⟩ := ink_of_skipBlank left
    rw [skipBlank_cons, apart, if_neg Bool.false_ne_true, if_neg code]

/-! ## The walk to a limit -/

variable {text : List Char} {start limit : Nat}

/-- The walk to a limit ends there. -/
theorem signedSkipBlank_limit (passed : limit ≤ start) :
    signedSkipBlank text start limit = .ok limit := by
  have behind : (limit : Int) ≤ start := by exact_mod_cast passed
  rw [signedSkipBlank, if_pos behind]

/-- The character at a position in front of the limit decides where the walk goes on. -/
theorem signedSkipBlank_cons {c : Char} {rest : List Char} (room : start < limit)
    (split : text.drop start = c :: rest) :
    signedSkipBlank text start limit =
      if isBlank c then signedSkipBlank text ((start + 1 : Nat) : Int) limit
      else if c = ';' then
        match commentLength? rest with
        | some length => signedSkipBlank text ((start + 1 + length : Nat) : Int) limit
        | none => .ok limit
      else .ok start := by
  have inside : start < text.length := by
    have size := congrArg List.length split
    rw [List.length_drop, List.length_cons] at size
    omega
  have before : ¬(limit : Int) ≤ start := by exact_mod_cast Nat.not_le_of_lt room
  have named : Text.place? text.length start = some start := by
    simp [Text.place?, inside]
  rw [List.drop_eq_getElem_cons inside] at split
  obtain ⟨rfl, rfl⟩ := List.cons.inj split
  rw [signedSkipBlank, if_neg before]
  split
  · rename_i missing
    rw [named] at missing
    contradiction
  · rename_i place found
    rw [named] at found
    cases found
    rfl

/-- The character at a position decides where blanks and comments end. -/
theorem blankEnd_cons {c : Char} {rest : List Char} (split : text.drop start = c :: rest) :
    blankEnd text start =
      if isBlank c then blankEnd text (start + 1)
      else if c = ';' then
        match commentLength? rest with
        | some length => blankEnd text (start + 1 + length)
        | none => text.length
      else start := by
  have behind : text.drop (start + 1) = rest := by
    rw [← List.drop_drop, split, List.drop_one, List.tail_cons]
  have size := congrArg List.length split
  rw [List.length_drop] at size
  rw [blankEnd, split, skipBlank_cons]
  by_cases blank : isBlank c = true
  · rw [if_pos blank, if_pos blank, blankEnd, behind]
  rw [if_neg blank, if_neg blank]
  by_cases comment : c = ';'
  · rw [if_pos comment, if_pos comment]
    cases commentLength? rest with
    | none => rfl
    | some length => simp only [blankEnd, ← List.drop_drop, behind]
  · rw [if_neg comment, if_neg comment, ← size]
    rw [List.length_cons] at size
    omega

/-- The walk stops where all blanks and comments have been passed over, or at the limit when that
comes first. -/
theorem signedSkipBlank_eq (inside : start ≤ text.length) (last : limit ≤ text.length) :
    signedSkipBlank text start limit = .ok ((min (blankEnd text start) limit : Nat) : Int) := by
  -- The walk comes closer to the limit with each step, and may be led beyond it by a comment.
  induction room : limit - start using Nat.strongRecOn generalizing start with
  | ind distance ih =>
    have bounds := blankEnd_bounds inside
    by_cases passed : limit ≤ start
    · rw [signedSkipBlank_limit passed, Nat.min_eq_right (Nat.le_trans passed bounds.1)]
    have before : start < limit := Nat.lt_of_not_le passed
    obtain ⟨c, rest, split⟩ : ∃ c rest, text.drop start = c :: rest :=
      ⟨_, _, List.drop_eq_getElem_cons (Nat.lt_of_lt_of_le before last)⟩
    have size := congrArg List.length split
    rw [List.length_drop, List.length_cons] at size
    rw [signedSkipBlank_cons before split, blankEnd_cons split]
    by_cases blank : isBlank c = true
    · rw [if_pos blank, if_pos blank]
      exact ih _ (by omega) (by omega) rfl
    rw [if_neg blank, if_neg blank]
    by_cases comment : c = ';'
    · rw [if_pos comment, if_pos comment]
      cases reach : commentLength? rest with
      | none => simp only [Nat.min_eq_right last]
      | some length =>
        obtain ⟨line, behind, _, rfl, rfl⟩ := (commentLength?_iff rest length).mp reach
        rw [List.length_append, List.length_cons] at size
        exact ih _ (by omega) (by omega) rfl
    · rw [if_neg comment, if_neg comment, Nat.min_eq_left (Nat.le_of_lt before)]

/-- What lies between a position and the end of the blanks behind it, or any place before that, is a
gap, which can be open only where blanks go on up to that place. -/
theorem gap_before_blankEnd {stop : Nat} (inside : start ≤ text.length) (first : start ≤ stop)
    (within : stop ≤ blankEnd text start) :
    Gap (Span.of ⟨start, stop⟩ text) ∨
      (stop < blankEnd text start ∨ stop = text.length) ∧ OpenGap (Span.of ⟨start, stop⟩ text) := by
  obtain ⟨part, parts, gap⟩ := exists_gap (text.drop start)
  have size := congrArg List.length parts
  rw [List.length_append, List.length_drop] at size
  have bounds := blankEnd_bounds inside
  have width : blankEnd text start = start + part.length := by
    rw [blankEnd] at bounds ⊢
    omega
  have cut : Span.of ⟨start, stop⟩ text = part.take (stop - start) := by
    have short : stop - start ≤ part.length := by omega
    rw [Span.of, parts, List.take_append_of_le_length short]
  rw [cut]
  by_cases whole : stop = blankEnd text start
  · have all : part.take (stop - start) = part := List.take_of_length_le (by omega)
    rw [all]
    rcases gap with closed | isOpen
    · exact .inl closed
    · have rest := isOpen.1
      rw [rest, List.length_nil] at size
      have ending : stop = text.length := by omega
      exact .inr ⟨.inr ending, isOpen.2⟩
  · have before : stop < blankEnd text start := by omega
    have shorter : Gap (part.take (stop - start)) ∨ OpenGap (part.take (stop - start)) :=
      gap.elim (fun closed => closed.take _) (fun isOpen => isOpen.2.take _)
    exact shorter.imp id fun isOpen => ⟨.inl before, isOpen⟩

/-- At the end of blanks stands a character that neither is a blank nor starts a comment, unless the
text ends there. -/
theorem ink_at_blankEnd (more : blankEnd text start < text.length) :
    ∃ c, text[blankEnd text start]? = some c ∧ isBlank c = false ∧ c ≠ ';' := by
  have split := List.drop_eq_getElem_cons more
  have left := drop_blankEnd text start
  rw [split] at left
  exact ⟨_, List.getElem?_eq_getElem more, ink_of_skipBlank left.symm⟩

/-- Blanks that end at a place end there again. -/
theorem blankEnd_blankEnd (inside : start ≤ text.length) :
    blankEnd text (blankEnd text start) = blankEnd text start := by
  have bounds := blankEnd_bounds inside
  have size := congrArg List.length (drop_blankEnd text start)
  rw [List.length_drop] at size
  rw [blankEnd, drop_blankEnd, skipBlank_skipBlank, ← size]
  omega

/-- Passing over blanks and comments up to a limit is passing over all of them, cut at the limit.
The walk stops between its start and the limit, and a second walk from there stays. What it passes
over are blanks and comments, of which the last one is without its line feed only where the walk
stops at the limit. In front of the limit it stops at a character that neither is a blank nor starts
a comment. -/
theorem blanks_cut_at_limit (first : start ≤ limit) (last : limit ≤ text.length) :
    ∃ stop whole : Nat, signedSkipBlank text start limit = .ok stop ∧
      signedSkipBlank text start text.length = .ok whole ∧ stop = min whole limit ∧
      start ≤ stop ∧ stop ≤ limit ∧ signedSkipBlank text stop limit = .ok stop ∧
      (Gap (Span.of ⟨start, stop⟩ text) ∨ stop = limit ∧ OpenGap (Span.of ⟨start, stop⟩ text)) ∧
      (stop < limit → ∃ c, text[stop]? = some c ∧ isBlank c = false ∧ c ≠ ';') := by
  have inside : start ≤ text.length := Nat.le_trans first last
  have bounds := blankEnd_bounds inside
  refine ⟨min (blankEnd text start) limit, blankEnd text start, signedSkipBlank_eq inside last, ?_,
    rfl, Nat.le_min.mpr ⟨bounds.1, first⟩, Nat.min_le_right _ _, ?_, ?_, ?_⟩
  · have whole := signedSkipBlank_eq inside (Nat.le_refl text.length)
    rwa [Nat.min_eq_left bounds.2] at whole
  · have again := @signedSkipBlank_eq text (min (blankEnd text start) limit) limit
      (Nat.le_trans (Nat.min_le_right _ _) last) last
    rw [again]
    by_cases reached : limit ≤ blankEnd text start
    · have further := (blankEnd_bounds last).1
      rw [Nat.min_eq_right reached, Nat.min_eq_right further]
    · have before : blankEnd text start ≤ limit := Nat.le_of_not_le reached
      rw [Nat.min_eq_left before, blankEnd_blankEnd inside, Nat.min_eq_left before]
  · have gap := gap_before_blankEnd inside (Nat.le_min.mpr ⟨bounds.1, first⟩)
      (Nat.min_le_left (blankEnd text start) limit)
    exact gap.imp id (And.imp_left fun early => by omega)
  · intro before
    have own : min (blankEnd text start) limit = blankEnd text start := by omega
    rw [own] at before ⊢
    exact ink_at_blankEnd (Nat.lt_of_lt_of_le before last)

/-- A comment that goes on behind the limit is cut there, and no walk goes on from the limit. -/
theorem blanks_cut_at_limit_comment :
    signedSkipBlank ",;b\n;cd\nx".toList 0 6 = .ok 6 ∧
      signedSkipBlank ",;b\n;cd\nx".toList 0 9 = .ok 8 ∧
      signedSkipBlank ",;b\n;cd\nx".toList 6 6 = .ok 6 ∧
      (Gap ",;b\n;c".toList ∨ OpenGap ",;b\n;c".toList) := by
  obtain ⟨stop, whole, walked, all, -, -, -, again, gap, -⟩ :=
    @blanks_cut_at_limit ",;b\n;cd\nx".toList 0 6 (by decide) (by decide)
  have cut : signedSkipBlank ",;b\n;cd\nx".toList 0 6 = .ok 6 := by with_unfolding_all rfl
  have stops : (6 : Int) = stop := Except.ok.inj (cut.symm.trans walked)
  obtain rfl : stop = 6 := by omega
  exact ⟨cut, by with_unfolding_all rfl, again, gap.imp id And.right⟩

end EvalDesk.Form
