import EvalDesk.Proofs.Form.Blanks
import EvalDesk.Proofs.Form.Quotes
import EvalDesk.Proofs.Form.Signed

/-!
# Forms tile a text

The forms between two positions stand one behind the other, each of them whole, and nothing but
blanks and comments lies in front of them and between them. Behind the last one there are only
blanks and comments too, up to the second position or to a place where no form can be read in front
of it. Since a form ends behind its start and in the text, reading forms one after another comes to
an end.
-/
namespace EvalDesk.Form

/-- Where the last of some stretches ends; the given position when there is none. -/
def stopOf (low : Nat) (spans : List Span) : Nat := (spans.getLast?.map Span.stop).getD low

/-- Reading stops at a position in front of another: no blank and no comment starts there, and no
form that ends at or before the other position. -/
structure StuckAt (text : List Char) (high stop : Nat) : Prop where
  /-- A character stands there that neither is a blank nor starts a comment. -/
  ink : ∃ c, text[stop]? = some c ∧ isBlank c = false ∧ c ≠ ';'
  /-- No form starts there, or it ends behind the other position. -/
  unread : ∀ next, formEnd? text stop = some next → high < next

/-- Stretches of a text tile what lies between two positions. -/
structure Tiles (text : List Char) (low high : Nat) (spans : List Span) : Prop where
  /-- Each is not empty and lies between the positions. -/
  inside : ∀ span ∈ spans, low ≤ span.start ∧ span.start < span.stop ∧ span.stop ≤ high
  /-- They are in order, and no two of them overlap. -/
  ordered : spans.Pairwise fun first second => first.stop ≤ second.start
  /-- Each is one whole form. -/
  whole : ∀ span ∈ spans, formEnd? text span.start = some span.stop
  /-- In front of each, from the end of the one before on, are blanks and comments only. -/
  gaps : ∀ earlier span later, spans = earlier ++ span :: later →
    Gap (Span.of ⟨stopOf low earlier, span.start⟩ text)
  /-- Behind the last one are blanks and comments only, up to the second position, which may cut the
  last comment, or to a place where reading is stuck. -/
  behind : ∃ stop, stopOf low spans ≤ stop ∧
    ((stop = high ∧ (Gap (Span.of ⟨stopOf low spans, stop⟩ text) ∨
        OpenGap (Span.of ⟨stopOf low spans, stop⟩ text))) ∨
      (stop < high ∧ Gap (Span.of ⟨stopOf low spans, stop⟩ text) ∧ StuckAt text high stop))

variable {text : List Char} {low high : Nat}

/-- The last of some stretches is the last behind the first one. -/
theorem stopOf_cons (low : Nat) (span : Span) (spans : List Span) :
    stopOf low (span :: spans) = stopOf span.stop spans := by
  rw [stopOf, stopOf, List.getLast?_cons]
  cases spans.getLast? <;> rfl

/-- In front of a form that is read behind blanks stands a gap. -/
theorem gap_before_form {next : Nat} (inside : low ≤ text.length)
    (read : formEnd? text (blankEnd text low) = some next) :
    Gap (Span.of ⟨low, blankEnd text low⟩ text) := by
  obtain ⟨_, order, bound⟩ := formEnd?_iff.mp read
  have gap := gap_before_blankEnd inside (blankEnd_bounds inside).1 (Nat.le_refl _)
  exact gap.resolve_right fun ⟨early, _⟩ => by omega

/-- The first of the forms between two positions is read behind the blanks, and the others behind
it. -/
theorem formsIn_head {span : Span} {others : List Span}
    (parts : formsIn text low high = span :: others) :
    span.start = blankEnd text low ∧ others = formsIn text span.stop high ∧
      formEnd? text (blankEnd text low) = some span.stop ∧ span.stop ≤ high := by
  have member : span ∈ formsIn text low high := parts ▸ List.mem_cons_self
  obtain ⟨start, rest⟩ := formsIn_cons parts
  have read := formEnd?_of_mem_formsIn member
  rw [start] at read
  exact ⟨start, rest, read, (formsIn_bounds member).2.2⟩

/-- In front of each form are blanks and comments only. -/
theorem gap_of_formsIn (first : low ≤ high) (last : high ≤ text.length)
    {earlier later : List Span} {span : Span}
    (parts : formsIn text low high = earlier ++ span :: later) :
    Gap (Span.of ⟨stopOf low earlier, span.start⟩ text) := by
  induction earlier generalizing low with
  | nil =>
    obtain ⟨start, _, read, _⟩ := formsIn_head parts
    rw [start]
    exact gap_before_form (Nat.le_trans first last) read
  | cons front earlier ih =>
    obtain ⟨_, rest, _, within⟩ := formsIn_head parts
    rw [stopOf_cons]
    exact ih within rest.symm

/-- Behind the last form between two positions there is no other. -/
theorem formsIn_stopOf (first : low ≤ high) :
    stopOf low (formsIn text low high) ≤ high ∧ low ≤ stopOf low (formsIn text low high) ∧
      formsIn text (stopOf low (formsIn text low high)) high = [] := by
  induction parts : formsIn text low high generalizing low with
  | nil => exact ⟨first, Nat.le_refl _, parts⟩
  | cons span others ih =>
    obtain ⟨_, rest, _, within⟩ := formsIn_head parts
    have bounds := formsIn_bounds (parts ▸ List.mem_cons_self : span ∈ formsIn text low high)
    obtain ⟨upper, lower, none_left⟩ := ih within rest.symm
    rw [stopOf_cons]
    exact ⟨upper, by omega, none_left⟩

/-- Where no form is found between two positions, blanks go on up to the second one, or reading is
stuck behind them. -/
theorem stuckAt_of_formsIn (last : high ≤ text.length) (nothing : formsIn text low high = [])
    (before : blankEnd text low < high) : StuckAt text high (blankEnd text low) := by
  refine ⟨ink_at_blankEnd (Nat.lt_of_lt_of_le before last), fun next read => ?_⟩
  by_contra within
  rw [formsIn_form read (Nat.le_of_not_lt within) last] at nothing
  contradiction

/-- The forms between two positions tile what lies between them. -/
theorem tiles_formsIn (first : low ≤ high) (last : high ≤ text.length) :
    Tiles text low high (formsIn text low high) := by
  refine ⟨fun span member => formsIn_bounds member, formsIn_pairwise text low high,
    fun span member => formEnd?_of_mem_formsIn member,
    fun earlier span later parts => gap_of_formsIn first last parts, ?_⟩
  obtain ⟨upper, lower, nothing⟩ := @formsIn_stopOf text low high first
  generalize stopOf low (formsIn text low high) = stop at upper lower nothing ⊢
  have inside : stop ≤ text.length := Nat.le_trans upper last
  have bounds := blankEnd_bounds inside
  by_cases before : blankEnd text stop < high
  · have gap := gap_before_blankEnd inside bounds.1 (Nat.le_refl _)
    have closed : Gap (Span.of ⟨stop, blankEnd text stop⟩ text) :=
      gap.resolve_right fun ⟨early, _⟩ => by omega
    exact ⟨blankEnd text stop, bounds.1,
      .inr ⟨before, closed, stuckAt_of_formsIn last nothing before⟩⟩
  · have gap := gap_before_blankEnd inside upper (Nat.le_of_not_lt before)
    exact ⟨high, upper, .inl ⟨rfl, gap.imp id And.right⟩⟩

/-- Forms tile the text between two positions: they are whole, in order and apart from one another,
and what lies in front of them, between them and, up to the place where reading gets stuck, behind
them are blanks and comments. Wherever a form starts, it ends behind its start and in the text. -/
theorem forms_tile (first : low ≤ high) (last : high ≤ text.length) :
    signedForms text low high =
        .ok ((formsIn text low high).map fun span => ((span.start : Int), (span.stop : Int))) ∧
      Tiles text low high (formsIn text low high) ∧
      (∀ start : Nat,
        signedFormEnd text start =
          .ok ((formEnd? text start).map fun (stop : Nat) => (stop : Int))) ∧
      ∀ start stop : Int, signedFormEnd text start = .ok (some stop) →
        start < stop ∧ stop ≤ text.length :=
  ⟨signedForms_natural first last, tiles_formsIn first last, signedFormEnd_natural text,
    fun _ _ => signedFormEnd_bounds⟩

/-- Two forms with a comment between them, and reading gets stuck behind them at a bracket that does
not close. -/
theorem forms_tile_stuck :
    Tiles "(a) ;b\n#c 1 (".toList 0 13 [⟨0, 3⟩, ⟨7, 11⟩] := by
  have found : formsIn "(a) ;b\n#c 1 (".toList 0 13 = [⟨0, 3⟩, ⟨7, 11⟩] := by decide +kernel
  obtain ⟨-, tiles, -⟩ := @forms_tile "(a) ;b\n#c 1 (".toList 0 13 (by decide) (by decide)
  rw [found] at tiles
  exact tiles

end EvalDesk.Form
