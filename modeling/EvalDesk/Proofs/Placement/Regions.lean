import EvalDesk.Proofs.Placement.Landing

/-!
# The regions that are drawn

Whatever line and column a diagnostic tells, what is drawn for it is a region that a reader sees: it
starts on its line, lies in the text, and is empty only when the line is. Only an expression that
starts on the line makes it go on behind the end of the line.
-/
namespace EvalDesk

open Form

/-- A region that is drawn for a line, given by its extent. -/
structure Buffer.Visible (buffer : Buffer) (extent region : Span) : Prop where
  /-- It does not start in front of the line. -/
  first : extent.start ≤ region.start
  /-- It does not start behind the line. -/
  last : region.start ≤ extent.stop
  /-- It does not end in front of its start. -/
  ordered : region.start ≤ region.stop
  /-- It ends in the text. -/
  inside : region.stop ≤ buffer.chars.length
  /-- It is not empty, unless the line is. -/
  filled : extent.start < extent.stop → region.start < region.stop
  /-- It ends behind the line only where the expression at its start does. -/
  beyond : extent.stop < region.stop → formEnd? buffer.chars region.start = some region.stop

namespace Buffer

variable {buffer : Buffer} {line : Int} {extent : Span}

/-- A line that the buffer has has an extent. -/
theorem exists_extent (inside : buffer.hasLine line = true) :
    ∃ extent, buffer.lineSpan line = .ok extent := by
  rw [lineSpan, lineStart, if_pos inside]
  exact ⟨_, rfl⟩

/-- A whole line is visible. -/
theorem visible_line (found : buffer.lineSpan line = .ok extent) :
    buffer.Visible extent extent := by
  obtain ⟨ordered, bound⟩ := lineSpan_bounds found
  exact ⟨Nat.le_refl _, ordered, ordered, bound, id, fun behind => absurd behind (Nat.lt_irrefl _)⟩

/-- What is drawn from a place of a line on is not empty, unless the line is. -/
theorem spanFrom_filled (filled : extent.start < extent.stop) (first : Nat) :
    (buffer.spanFrom extent first).start < (buffer.spanFrom extent first).stop := by
  simp only [spanFrom]
  split
  · exact filled
  · rename_i room
    have before := Nat.lt_of_not_le (not_or.mp room).2
    simp only
    cases read : formEnd? buffer.chars
        (min (buffer.chars.length - (skipBlank (buffer.chars.drop first)).length) extent.stop) with
    | none => exact before
    | some stop => exact (formEnd?_iff.mp read).2.1

/-- What is drawn from a place of a line on ends behind the line only where the expression at its
start does. -/
theorem spanFrom_beyond {first : Nat} (behind : extent.stop < (buffer.spanFrom extent first).stop) :
    formEnd? buffer.chars (buffer.spanFrom extent first).start =
      some (buffer.spanFrom extent first).stop := by
  simp only [spanFrom] at behind ⊢
  split at behind
  · exact absurd behind (Nat.lt_irrefl _)
  · rename_i room
    rw [if_neg room]
    simp only at behind ⊢
    cases read : formEnd? buffer.chars
        (min (buffer.chars.length - (skipBlank (buffer.chars.drop first)).length) extent.stop) with
    | none =>
      rw [read] at behind
      exact absurd behind (Nat.lt_irrefl _)
    | some stop => rfl

/-- What is drawn from a place of a line on is visible. -/
theorem visible_spanFrom (found : buffer.lineSpan line = .ok extent) {first : Nat}
    (inside : extent.start ≤ first) : buffer.Visible extent (buffer.spanFrom extent first) := by
  obtain ⟨ordered, bound⟩ := lineSpan_bounds found
  obtain ⟨starts, onLine, forward⟩ := spanFrom_within ordered bound inside
  exact ⟨starts, onLine, forward, stop_spanFrom_le bound first,
    fun filled => spanFrom_filled filled first, spanFrom_beyond⟩

/-- A visible region starts on its line. -/
theorem Visible.position {region : Span} (visible : buffer.Visible extent region)
    (found : buffer.lineSpan line = .ok extent) :
    ((buffer.position region.start).1 : Int) = line :=
  position_of_lineSpan found visible.first visible.last

/-- The region of any column of a line is visible. -/
theorem visible_expressionSpan (inside : buffer.hasLine line = true) (column : Int) :
    ∃ extent region, buffer.lineSpan line = .ok extent ∧
      buffer.expressionSpan line column = .ok region ∧ buffer.Visible extent region := by
  obtain ⟨extent, found⟩ := exists_extent inside
  have drawn : buffer.expressionSpan line column =
      .ok (buffer.spanFrom extent (extent.start + ((max column 1).toNat - 1))) := by
    rw [expressionSpan_eq, found]
    rfl
  exact ⟨extent, _, found, drawn, visible_spanFrom found (Nat.le_add_right _ _)⟩

end Buffer

/-- In a buffer that has its line a diagnostic is drawn over a visible region. -/
theorem Diagnostic.exists_placeIn {diagnostic : Diagnostic} {line : Int} {buffer : Buffer}
    (inside : buffer.hasLine line = true) (target : String) :
    ∃ placement extent, diagnostic.placeIn target line buffer = .ok (some placement) ∧
      placement.line = line ∧ buffer.lineSpan line = .ok extent ∧
      buffer.Visible extent ⟨placement.start, placement.stop⟩ := by
  obtain ⟨extent, region, found, drawn, visible⟩ : ∃ extent region,
      buffer.lineSpan line = .ok extent ∧
      diagnostic.placeIn target line buffer = .ok (some
        ⟨if buffer.path = "" then target else buffer.path, region.start, region.stop,
          diagnostic.severity, diagnostic.message, line, diagnostic.column⟩) ∧
      buffer.Visible extent region := by
    cases told : diagnostic.column with
    | none =>
      obtain ⟨extent, found⟩ := Buffer.exists_extent inside
      refine ⟨extent, extent, found, ?_, Buffer.visible_line found⟩
      simp only [placeIn, inside, told, found, Bool.not_true, Bool.false_eq_true, ↓reduceIte]
      rfl
    | some column =>
      obtain ⟨extent, region, found, drawn, visible⟩ := Buffer.visible_expressionSpan inside column
      refine ⟨extent, region, found, ?_, visible⟩
      simp only [placeIn, inside, told, drawn, Bool.not_true, Bool.false_eq_true, ↓reduceIte]
      rfl
  exact ⟨_, extent, drawn, rfl, found, visible⟩

/-- A diagnostic whose target opens is placed without a fault, exactly when the buffer has its line,
and then on this line over a visible region. -/
theorem exists_place {σ : Type} {diagnostic : Diagnostic} {origin : Origin} {opener : Opener σ}
    {buffer : Buffer} {left : σ} (opens : opener (diagnostic.place origin).1 = .ok (buffer, left)) :
    ∃ placement, place diagnostic origin opener = .ok (placement, some left) ∧
      (placement = none ↔ buffer.hasLine (diagnostic.place origin).2 = false) ∧
      ∀ drawn, placement = some drawn → drawn.line = (diagnostic.place origin).2 ∧
        ∃ extent, buffer.lineSpan drawn.line = .ok extent ∧
          buffer.Visible extent ⟨drawn.start, drawn.stop⟩ := by
  have placed : place diagnostic origin opener = (diagnostic.placeIn (diagnostic.place origin).1
      (diagnostic.place origin).2 buffer).map fun placement => (placement, some left) := by
    simp only [place, opens]
    cases diagnostic.placeIn (diagnostic.place origin).1 (diagnostic.place origin).2 buffer <;> rfl
  rw [placed]
  cases inside : buffer.hasLine (diagnostic.place origin).2 with
  | true =>
    obtain ⟨placement, extent, drawn, line, found, visible⟩ :=
      Diagnostic.exists_placeIn inside (diagnostic.place origin).1
    refine ⟨some placement, by rw [drawn]; rfl, by simp, ?_⟩
    rintro _ ⟨rfl⟩
    exact ⟨line, extent, line ▸ found, visible⟩
  | false =>
    refine ⟨none, ?_, by simp, by rintro _ ⟨⟩⟩
    simp only [Diagnostic.placeIn, inside, Bool.not_false, ↓reduceIte]
    rfl

/-- In every buffer: the region of any column of any line is visible. A diagnostic with any line and
column whose target opens as this buffer is placed without a fault, exactly when the buffer has its
line, and then it is drawn on this line over a visible region. A target that cannot be shown places
it nowhere. -/
theorem regions_visible (buffer : Buffer) :
    (∀ line column : Int, buffer.hasLine line = true → ∃ extent region,
      buffer.lineSpan line = .ok extent ∧ buffer.expressionSpan line column = .ok region ∧
        buffer.Visible extent region) ∧
    ∀ (σ : Type) (diagnostic : Diagnostic) (origin : Origin) (opener : Opener σ),
      (∀ left, opener (diagnostic.place origin).1 = .ok (buffer, left) → ∃ placement,
        place diagnostic origin opener = .ok (placement, some left) ∧
        (placement = none ↔ buffer.hasLine (diagnostic.place origin).2 = false) ∧
        ∀ drawn, placement = some drawn → drawn.line = (diagnostic.place origin).2 ∧
          ((buffer.position drawn.start).1 : Int) = drawn.line ∧
          ∃ extent, buffer.lineSpan drawn.line = .ok extent ∧
            buffer.Visible extent ⟨drawn.start, drawn.stop⟩) ∧
      ∀ problem, opener (diagnostic.place origin).1 = .error (.source problem) →
        place diagnostic origin opener = .ok (none, none) := by
  refine ⟨fun line column inside => Buffer.visible_expressionSpan inside column,
    fun σ diagnostic origin opener => ⟨fun left opens => ?_, fun problem fails => ?_⟩⟩
  · obtain ⟨placement, placed, missing, onLine⟩ := exists_place opens
    refine ⟨placement, placed, missing, fun drawn shown => ?_⟩
    obtain ⟨line, extent, found, visible⟩ := onLine drawn shown
    exact ⟨line, visible.position found, extent, found, visible⟩
  · simp only [place, fails]
    rfl

/-- The region of a column below one, at the start of an expression that goes on behind its line. -/
theorem regions_visible_beyond :
    (∃ extent region, Buffer.lineSpan ⟨"a.clj", "(f\n  x)"⟩ 1 = .ok extent ∧
      Buffer.expressionSpan ⟨"a.clj", "(f\n  x)"⟩ 1 (-3) = .ok region ∧
      Buffer.Visible ⟨"a.clj", "(f\n  x)"⟩ extent region) ∧
    Buffer.expressionSpan ⟨"a.clj", "(f\n  x)"⟩ 1 (-3) = .ok ⟨0, 7⟩ ∧
    ∃ placement, place ⟨1, .error, "unbound", none, some (-3)⟩ ⟨"a.clj", 1⟩
      (fun _ => .ok (⟨"a.clj", "(f\n  x)"⟩, ())) = .ok (placement, some ()) ∧ placement ≠ none := by
  have inside : Buffer.hasLine ⟨"a.clj", "(f\n  x)"⟩ 1 = true := by decide +kernel
  obtain ⟨spans, places⟩ := regions_visible ⟨"a.clj", "(f\n  x)"⟩
  obtain ⟨placement, placed, missing, _⟩ := (places Unit ⟨1, .error, "unbound", none, some (-3)⟩
    ⟨"a.clj", 1⟩ (fun _ => .ok (⟨"a.clj", "(f\n  x)"⟩, ()))).1 () rfl
  refine ⟨spans 1 (-3) inside, ?_, placement, placed, fun nothing => ?_⟩
  · with_unfolding_all rfl
  · have outside := missing.mp nothing
    exact absurd (inside.symm.trans outside) (by decide)

end EvalDesk
