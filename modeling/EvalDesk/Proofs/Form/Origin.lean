import EvalDesk.Proofs.Form.Context
import EvalDesk.Proofs.Form.Outermost

/-!
# The outermost form of the last expression

The expression in front of an offset and the outermost form at the offset are searched for apart
from each other. The form holds the expression whenever the expression lies inside an outermost
form. An expression that is an outermost form itself is the one found at the offset only as long as
the next form does not start at or before the offset. At the start of the expression, the form that
holds it is always found.
-/
namespace EvalDesk.Form

variable {text : List Char} {offset : Int} {low high : Nat} {form span : Span}

/-- The group of a form starts inside it. -/
theorem bodyStart?_bounds {body : Nat} (found : bodyStart? text form = some body)
    (bound : form.stop ≤ text.length) : form.start < body ∧ body ≤ form.stop := by
  have size : (form.of text).length = form.stop - form.start := length_span bound
  have shorter := length_dropWhile_le (!opensOrQuotes ·) (form.of text)
  rw [bodyStart?] at found
  split at found
  · contradiction
  · rename_i c rest parts
    split at found
    · cases found
      rw [parts, List.length_cons] at shorter
      omega
    · contradiction

/-- The forms around an offset are forms, and the offset lies behind the one and not behind the
other. -/
theorem around_mem {spans : List Span} :
    (∀ last, (around offset spans).1 = some last → last ∈ spans ∧ last.endsBy offset = true) ∧
      ∀ next, (around offset spans).2 = some next → next ∈ spans ∧ next.endsBy offset = false := by
  refine ⟨fun last found => ?_, fun next found => ?_⟩
  · have member := List.mem_of_getLast? found
    have passed := List.all_eq_true.mp List.all_takeWhile last member
    exact ⟨(List.takeWhile_sublist _).subset member, passed⟩
  · refine ⟨mem_of_around_next found, ?_⟩
    have stops := List.head?_dropWhile_not (Span.endsBy offset) spans
    have ahead : (spans.dropWhile (Span.endsBy offset)).head? = some next := found
    rw [ahead] at stops
    exact stops

/-- The expression in front of an offset is the last form that ends at or before it, or it is found
behind the first bracket of the form around the offset. -/
theorem lastBeforeIn_cases (found : lastBeforeIn text offset low high = some span) :
    (span ∈ formsIn text low high ∧ span.endsBy offset = true) ∨
      ∃ next ∈ formsIn text low high, ∃ body, next.endsBy offset = false ∧
        bodyStart? text next = some body ∧ next.start < offset ∧
          lastBeforeIn text offset body (next.stop - 1) = some span := by
  rw [lastBeforeIn] at found
  split at found
  · exact .inl (around_mem.1 span found)
  · rename_i next isNext
    obtain ⟨member, behind⟩ := around_mem.2 next isNext
    split at found
    · exact .inl (around_mem.1 span found)
    · rename_i body opens
      split at found
      · rename_i inside
        exact .inr ⟨next, member, body, behind, opens, inside.1, found⟩
      · exact .inl (around_mem.1 span found)

/-- The expression in front of an offset lies between the two positions. -/
theorem lastBeforeIn_bounds (found : lastBeforeIn text offset low high = some span) :
    low ≤ span.start ∧ span.stop ≤ high := by
  induction high using Nat.strong_induction_on generalizing low with
  | h high ih =>
    rcases lastBeforeIn_cases found with ⟨member, _⟩ | ⟨next, member, body, _, opens, _, inside⟩
    · obtain ⟨starts, _, stops⟩ := formsIn_bounds member
      exact ⟨starts, stops⟩
    · obtain ⟨starts, filled, stops⟩ := formsIn_bounds member
      obtain ⟨_, _, bound⟩ := formEnd?_iff.mp (formEnd?_of_mem_formsIn member)
      have entry := bodyStart?_bounds opens bound
      have bounds := ih (next.stop - 1) (by omega) inside
      omega

/-- The expression in front of an offset is an outermost form, or it lies inside the outermost form
that the offset lies in. -/
theorem lastBefore_cases (found : lastBefore text offset = some span) :
    (span ∈ forms text ∧ span.endsBy offset = true) ∨
      ∃ form ∈ forms text, form.holds offset = true ∧ form.start < span.start ∧
        span.stop < form.stop := by
  rcases lastBeforeIn_cases found with own | ⟨form, member, body, behind, opens, started, inside⟩
  · exact .inl own
  · obtain ⟨_, filled, _⟩ := formsIn_bounds member
    obtain ⟨_, _, bound⟩ := formEnd?_iff.mp (formEnd?_of_mem_formsIn member)
    have entry := bodyStart?_bounds opens bound
    have bounds := lastBeforeIn_bounds inside
    have begins : form.startsBy offset = true := decide_eq_true (Int.le_of_lt started)
    exact .inr ⟨form, member, by simp [Span.holds, begins, behind], by omega, by omega⟩

/-- A form that holds an offset is the outermost form at it. -/
theorem topLevelAt_of_holds (member : form ∈ forms text) (inside : form.holds offset = true) :
    topLevelAt text offset = some form := by
  rw [topLevelAt_eq_outermost, outermost]
  cases found : (forms text).find? (Span.holds offset) with
  | none => exact absurd inside (List.find?_eq_none.mp found form member)
  | some other =>
    have others := List.find?_some found
    have same : other = form := by
      by_contra different
      have apart := formsIn_apart (List.mem_of_find?_eq_some found) member different
      simp only [Span.holds, Span.startsBy, Span.endsBy, Bool.and_eq_true, Bool.not_eq_true',
        decide_eq_true_eq, decide_eq_false_iff_not] at inside others
      unfold Span.Apart at apart
      omega
    rw [same]
    rfl

/-- Behind the end of a form the outermost form at an offset is looked for in what is left behind
it. -/
theorem topLevelFrom_of_mem_behind {size : Nat} {input : List Char} {extent : Nat × Nat}
    (bound : input.length ≤ size) (member : extent ∈ extentsBy commentLength? 0 input)
    (behind : (size : Int) - extent.2 ≤ offset) (previous : Option Span) :
    ∃ rest, rest <:+ input ∧ rest.length = extent.2 ∧
      topLevelFrom size offset previous input =
        topLevelFrom size offset (some ⟨size - extent.1, size - extent.2⟩) rest := by
  fun_induction extentsBy commentLength? 0 input generalizing previous with
  | case1 | case2 | case3 => contradiction
  | case4 input ink rest read _ ih =>
    have shorter : rest.length < (skipBlank input).length := length_formRestBy_lt read
    have blanks : (skipBlank input).length ≤ input.length :=
      length_skipBlankBy_le commentLength? input
    have some_left : skipBlank input ≠ [] := by
      intro nothing
      rw [nothing] at shorter
      contradiction
    have isEnd : rest <:+ input :=
      (formRest_suffix read).trans (skipBlankBy_suffix commentLength? input)
    rcases List.mem_cons.mp member with rfl | later
    · exact ⟨rest, isEnd, rfl, topLevelFrom_behind some_left read behind bound previous⟩
    · obtain ⟨_, filled, within⟩ := extentsBy_bounds later
      obtain ⟨last, lastEnd, size_last, same⟩ := ih (by omega) later
        (some ⟨size - (skipBlank input).length, size - rest.length⟩)
      refine ⟨last, lastEnd.trans isEnd, size_last, ?_⟩
      rw [topLevelFrom_behind some_left read (by omega) bound previous, same]

/-- The form before the input is not the outermost one when a form of the input starts at or before
the offset. -/
theorem topLevelFrom_late {size : Nat} {input : List Char} (ink : skipBlank input ≠ [])
    (late : (size - (skipBlank input).length : Nat) ≤ offset) (previous : Option Span) :
    topLevelFrom size offset previous input = topLevelFrom size offset none input := by
  have reached : ¬offset < (size - (skipBlank input).length : Nat) := Int.not_lt.mpr late
  rw [topLevelFrom, topLevelFrom, if_neg ink, if_neg ink]
  split
  · rw [if_pos late, if_pos late]
  · simp only [reached, ↓reduceIte]

/-- The form before the input stays the outermost one exactly as long as no form of the input starts
at or before the offset. -/
theorem topLevelFrom_eq_previous_iff {size : Nat} {input : List Char}
    (bound : input.length ≤ size) (before : span.stop ≤ size - input.length)
    (filled : span.start < span.stop) :
    topLevelFrom size offset (some span) input = some span ↔
      skipBlank input = [] ∨ offset < (size - (skipBlank input).length : Nat) := by
  by_cases ink : skipBlank input = []
  · rw [topLevelFrom, if_pos ink]
    exact iff_of_true rfl (.inl ink)
  by_cases early : offset < (size - (skipBlank input).length : Nat)
  · refine iff_of_true ?_ (.inr early)
    rw [topLevelFrom, if_neg ink]
    split
    · exact if_neg (Int.not_le.mpr early)
    · exact if_pos early
  · refine iff_of_false (fun same => ?_) (not_or.mpr ⟨ink, early⟩)
    rw [topLevelFrom_late ink (Int.not_lt.mp early)] at same
    rcases topLevelFrom_start same bound with missing | ⟨inside, _⟩
    · contradiction
    · omega

/-- Behind the end of an outermost form the form is the one found at an offset exactly as long as
nothing but blanks and comments stands between them. -/
theorem topLevelAt_eq_form_iff (member : span ∈ forms text) (ended : span.endsBy offset = true) :
    topLevelAt text offset = some span ↔
      blankEnd text span.stop = text.length ∨ offset < blankEnd text span.stop := by
  obtain ⟨_, filled, stops⟩ := formsIn_bounds member
  obtain ⟨extent, listed, rfl⟩ := List.mem_map.mp member
  rw [Nat.sub_self, List.drop_zero] at listed
  obtain ⟨_, _, within⟩ := extentsBy_bounds listed
  have behind : (text.length : Int) - extent.2 ≤ offset := by
    simp only [Span.endsBy, decide_eq_true_eq] at ended
    omega
  obtain ⟨rest, isEnd, size, same⟩ := topLevelFrom_of_mem_behind (Nat.le_refl _) listed behind none
  have left : rest = text.drop (text.length - extent.2) := by
    rw [← size]
    exact List.suffix_iff_eq_drop.mp isEnd
  have blanks : skipBlank rest = text.drop (blankEnd text (text.length - extent.2)) := by
    rw [drop_blankEnd, left]
  have bounds : text.length - extent.2 ≤ blankEnd text (text.length - extent.2) ∧
      blankEnd text (text.length - extent.2) ≤ text.length :=
    blankEnd_bounds (Nat.sub_le text.length extent.2)
  rw [topLevelAt, same, topLevelFrom_eq_previous_iff isEnd.length_le (by rw [size]) filled, blanks,
    List.drop_eq_nil_iff, List.length_drop]
  simp only
  omega

/-- An outermost form that holds a form of the text is that form. -/
theorem eq_of_topLevelAt_holds (member : span ∈ forms text)
    (found : topLevelAt text offset = some form) (starts : form.start ≤ span.start)
    (stops : span.stop ≤ form.stop) : form = span := by
  have apart : (stretchesOf text.length text).Pairwise Span.Apart :=
    (stretchesOf_pairwise (Nat.le_refl _)).imp fun before => .inl before
  have listed : span ∈ stretchesOf text.length text := by
    rw [stretchesOf, formsOf_text]
    exact List.mem_append_left _ member
  have filled := (formsIn_bounds member).2.1
  by_contra different
  rcases apart.forall (mem_of_topLevelAt found) listed different with before | behind <;> omega

/-- A form that lies inside an outermost form is not an outermost form. -/
theorem not_mem_forms_of_inside (member : form ∈ forms text) (starts : form.start < span.start)
    (filled : span.start < span.stop) (stops : span.stop < form.stop) : span ∉ forms text := by
  intro listed
  have different : form ≠ span := fun same => Nat.ne_of_lt starts (congrArg Span.start same)
  rcases formsIn_apart member listed different with before | behind <;> omega

/-- The outermost form at an offset holds the expression in front of it exactly as long as the
expression lies inside an outermost form or nothing but blanks and comments stands between the end
of the expression and the offset; and the outermost form at the start of the expression always holds
it. -/
theorem topLevelAt_holds_lastBefore_iff (found : lastBefore text offset = some span) :
    ((∃ form, topLevelAt text offset = some form ∧ form.start ≤ span.start ∧
        span.stop ≤ form.stop) ↔
      (span ∈ forms text →
        blankEnd text span.stop = text.length ∨ offset < blankEnd text span.stop)) ∧
      ∃ form, topLevelAt text span.start = some form ∧ form.start ≤ span.start ∧
        span.stop ≤ form.stop := by
  rcases lastBefore_cases found with ⟨member, ended⟩ | ⟨form, member, inside, starts, stops⟩
  · have next := topLevelAt_eq_form_iff member ended
    refine ⟨⟨?_, ?_⟩, span, topLevelAt_of_mem member, Nat.le_refl _, Nat.le_refl _⟩
    · rintro ⟨form, isForm, starts, stops⟩ _
      rw [eq_of_topLevelAt_holds member isForm starts stops] at isForm
      exact next.mp isForm
    · intro alone
      exact ⟨span, next.mpr (alone member), Nat.le_refl _, Nat.le_refl _⟩
  · have filled := (formEnd?_iff.mp (formEnd?_of_lastBeforeIn found)).2.1
    have around : form.holds span.start = true := by
      simp only [Span.holds, Span.startsBy, Span.endsBy, Bool.and_eq_true, Bool.not_eq_true',
        decide_eq_true_eq, decide_eq_false_iff_not]
      omega
    refine ⟨iff_of_true ?_ fun outermost => ?_, ?_⟩
    · exact ⟨form, topLevelAt_of_holds member inside, Nat.le_of_lt starts, Nat.le_of_lt stops⟩
    · exact absurd outermost (not_mem_forms_of_inside member starts filled stops)
    · exact ⟨form, topLevelAt_of_holds member around, Nat.le_of_lt starts, Nat.le_of_lt stops⟩

/-- An expression inside a list, found at an offset in a comment behind it. -/
theorem topLevelAt_holds_lastBefore_iff_nested :
    lastBefore "a ([b] ;(\n c) d".toList 9 = some ⟨3, 6⟩ ∧
      ∃ form, topLevelAt "a ([b] ;(\n c) d".toList 9 = some form ∧ form.start ≤ 3 ∧
        6 ≤ form.stop := by
  have found : lastBefore "a ([b] ;(\n c) d".toList 9 = some ⟨3, 6⟩ := by with_unfolding_all decide
  have nested : (⟨3, 6⟩ : Span) ∉ forms "a ([b] ;(\n c) d".toList := by with_unfolding_all decide
  have law := topLevelAt_holds_lastBefore_iff found
  exact ⟨found, law.1.mpr fun outermost => absurd outermost nested⟩

/-- In `(a)` and `(b)` on two lines, the expression in front of the second form is the first one,
while the outermost form at that offset is the second one. -/
theorem lastBefore_outside_topLevelAt :
    lastBefore "(a)\n(b)".toList 4 = some ⟨0, 3⟩ ∧
      topLevelAt "(a)\n(b)".toList 4 = some ⟨4, 7⟩ ∧
      ¬∃ form, topLevelAt "(a)\n(b)".toList 4 = some form ∧ form.start ≤ 0 ∧ 3 ≤ form.stop := by
  have outermost : topLevelAt "(a)\n(b)".toList 4 = some ⟨4, 7⟩ := by with_unfolding_all decide
  refine ⟨by with_unfolding_all decide, outermost, ?_⟩
  rintro ⟨form, found, starts, _⟩
  rw [outermost] at found
  cases found
  contradiction

end EvalDesk.Form
