import EvalDesk.Decoration

/-!
# Drawing decorations on a line

A decoration is drawn on a line by one mark over the part of the line that it covers, and by none
when it covers no character of it. On an empty line each decoration has a blank of its own. In
either case what the line has in front stays as it is.
-/
namespace EvalDesk

namespace Styled

/-- The mark lies over a column. -/
def Mark.covers (mark : Mark) (column : Int) : Bool := mark.start ≤ column && column < mark.stop

/-- The styles of the marks over a column, in the order they were made. -/
def stylesAt (styled : Styled) (column : Int) : List String :=
  (styled.marks.filter (·.covers column)).map (·.style)

end Styled

namespace Decoration

/-- The region has the character at an offset. -/
def holds (decoration : Decoration) (offset : Int) : Bool :=
  decoration.start ≤ offset && offset < decoration.stop

/-- The marks by which it is drawn on a line that has characters: one over the part of the line that
it covers, if it covers any. -/
def marksOn (decoration : Decoration) (lineStart lineLength : Int) : List Styled.Mark :=
  let start := max (decoration.start - lineStart) 0
  let stop := min (decoration.stop - lineStart) lineLength
  if start < stop then [⟨start, stop, drawnStyle decoration.style⟩] else []

variable {decoration : Decoration} {lineStart lineLength : Int}

/-- Every class is drawn in a style. -/
theorem drawnStyle_ne_empty (style : String) : drawnStyle style ≠ "" := by
  unfold drawnStyle
  split
  · decide
  · split <;> decide

/-- A mark lies in the line and is not empty. -/
theorem marksOn_bounds {mark : Styled.Mark}
    (made : mark ∈ decoration.marksOn lineStart lineLength) :
    0 ≤ mark.start ∧ mark.start < mark.stop ∧ mark.stop ≤ lineLength := by
  unfold marksOn at made
  dsimp only at made
  split at made
  · cases List.mem_singleton.mp made
    refine ⟨?_, ?_, ?_⟩ <;> simp only <;> omega
  · contradiction

/-- Over a column of the line lies a mark of exactly those that hold the character there. -/
theorem marksOn_over (decoration : Decoration) (lineStart : Int) {column : Int}
    (first : 0 ≤ column) (last : column < lineLength) :
    ((decoration.marksOn lineStart lineLength).filter (·.covers column)).map (·.style) =
      if decoration.holds (lineStart + column) then [drawnStyle decoration.style] else [] := by
  have held : decoration.holds (lineStart + column) = true ↔
      max (decoration.start - lineStart) 0 ≤ column ∧
        column < min (decoration.stop - lineStart) lineLength := by
    simp only [holds, Bool.and_eq_true, decide_eq_true_eq]
    omega
  unfold marksOn
  dsimp only
  split
  · by_cases holds : decoration.holds (lineStart + column) = true
    · have covered := held.mp holds
      simp [Styled.Mark.covers, holds, covered]
    · have apart : ¬(max (decoration.start - lineStart) 0 ≤ column ∧
          column < min (decoration.stop - lineStart) lineLength) :=
        fun within => holds (held.mpr within)
      simp only [holds, Styled.Mark.covers, ← Bool.decide_and, List.filter_cons, apart,
        decide_false, Bool.false_eq_true, ↓reduceIte, List.filter_nil, List.map_nil]
  · rename_i narrow
    have apart : ¬decoration.holds (lineStart + column) = true := by
      intro holds
      have covered := held.mp holds
      omega
    rw [if_neg apart]
    rfl

/-- Drawing on a line that has characters adds the mark, if there is one. -/
theorem drawOn_filled (decoration : Decoration) (lineStart : Int) {text : Styled}
    (size : (text.plain.length : Int) = lineLength) (filled : lineLength ≠ 0) :
    decoration.drawOn lineStart lineLength text =
      { text with marks := text.marks ++ decoration.marksOn lineStart lineLength } := by
  unfold drawOn marksOn
  dsimp only
  split
  · rename_i wide
    have style := drawnStyle_ne_empty decoration.style
    have forward : ¬ max (decoration.start - lineStart) 0 < 0 := by omega
    have behind : ¬ min (decoration.stop - lineStart) lineLength < 0 := by omega
    have within : ¬ (text.plain.length : Int) ≤ max (decoration.start - lineStart) 0 := by omega
    have ordered : ¬ min (decoration.stop - lineStart) lineLength ≤
        max (decoration.start - lineStart) 0 := by omega
    have clipped : min (text.plain.length : Int) (min (decoration.stop - lineStart) lineLength) =
        min (decoration.stop - lineStart) lineLength := by omega
    simp only [Styled.stylize, if_neg forward, if_neg behind, style, within, ordered, or_self,
      ↓reduceIte, clipped]
  · simp only [List.append_nil]

/-- Drawing on a line that has characters changes none of them. -/
theorem plain_drawOn (decoration : Decoration) (lineStart : Int) (text : Styled)
    (filled : lineLength ≠ 0) :
    (decoration.drawOn lineStart lineLength text).plain = text.plain := by
  unfold drawOn
  dsimp only
  rw [if_neg filled]
  split
  · exact Styled.plain_stylize _ _ _ _
  · rfl

/-- Drawing on an empty line adds a blank in the style. -/
theorem drawOn_empty (decoration : Decoration) (lineStart : Int) (text : Styled) :
    decoration.drawOn lineStart 0 text =
      ⟨text.plain ++ [' '], text.marks ++
        [⟨text.plain.length, text.plain.length + 1, drawnStyle decoration.style⟩]⟩ := by
  have narrow : ¬ max (decoration.start - lineStart) 0 < min (decoration.stop - lineStart) 0 := by
    omega
  have blank : Styled.kept [' '] = [' '] := by decide
  have style := drawnStyle_ne_empty decoration.style
  simp [drawOn, narrow, Styled.append, blank, style]

end Decoration

namespace Decorations

variable {lineStart lineLength : Int}

/-- Drawing on a line that has characters changes none of them. -/
theorem plain_drawOn (decorations : Decorations) (lineStart : Int) (text : Styled)
    (filled : lineLength ≠ 0) :
    (decorations.drawOn lineStart lineLength text).plain = text.plain := by
  unfold drawOn
  induction decorations generalizing text with
  | nil => rfl
  | cons decoration rest ih =>
    rw [List.foldl_cons, ih, Decoration.plain_drawOn decoration lineStart text filled]

/-- Drawing on a line that has characters adds a mark for each decoration that has one. -/
theorem drawOn_filled (decorations : Decorations) (lineStart : Int) {text : Styled}
    (size : (text.plain.length : Int) = lineLength) (filled : lineLength ≠ 0) :
    decorations.drawOn lineStart lineLength text =
      { text with
        marks := text.marks ++ decorations.flatMap (·.marksOn lineStart lineLength) } := by
  unfold drawOn
  induction decorations generalizing text with
  | nil => simp
  | cons decoration rest ih =>
    let drawn : Styled :=
      { text with marks := text.marks ++ decoration.marksOn lineStart lineLength }
    rw [List.foldl_cons, Decoration.drawOn_filled decoration lineStart size filled,
      @ih drawn size, List.append_assoc, List.flatMap_cons]

/-- Drawing on an empty line adds a blank for each decoration, in its style. -/
theorem drawOn_empty (decorations : Decorations) (lineStart : Int) (text : Styled) :
    decorations.drawOn lineStart 0 text =
      ⟨text.plain ++ List.replicate decorations.length ' ', text.marks ++
        decorations.mapIdx fun index decoration =>
          ⟨(text.plain.length + index : Nat), (text.plain.length + index : Nat) + 1,
            Decoration.drawnStyle decoration.style⟩⟩ := by
  unfold drawOn
  induction decorations generalizing text with
  | nil => simp
  | cons decoration rest ih =>
    rw [List.foldl_cons, Decoration.drawOn_empty, ih, List.mapIdx_cons, List.length_cons,
      List.replicate_succ]
    simp [Nat.add_assoc, Nat.add_comm 1]

/-- Over a column of a line that has characters the decorations that hold the character there are
drawn, in order, and no others. -/
theorem stylesAt_drawOn (decorations : Decorations) (lineStart : Int) {text : Styled}
    (size : (text.plain.length : Int) = lineLength) {column : Int} (first : 0 ≤ column)
    (last : column < lineLength) :
    (decorations.drawOn lineStart lineLength text).stylesAt column =
      text.stylesAt column ++ (decorations.filter (·.holds (lineStart + column))).map
        fun decoration => Decoration.drawnStyle decoration.style := by
  have filled : lineLength ≠ 0 := by omega
  rw [drawOn_filled decorations lineStart size filled]
  simp only [Styled.stylesAt, List.filter_append, List.map_append, List.append_cancel_left_eq]
  clear size
  induction decorations with
  | nil => rfl
  | cons decoration rest ih =>
    rw [List.flatMap_cons, List.filter_append, List.map_append, ih,
      Decoration.marksOn_over decoration lineStart first last, List.filter_cons]
    split <;> rfl

/-- The decorations that hold a character of a stretch touch the stretch. -/
theorem filter_holds_overlapping (decorations : Decorations) (surface : String)
    {start stop offset : Int} (first : start ≤ offset) (last : offset ≤ stop) :
    (decorations.overlapping surface start stop).filter (·.holds offset) =
      (decorations.onSurface surface).filter (·.holds offset) := by
  rw [overlapping, List.filter_filter]
  apply List.filter_congr
  intro decoration _
  rw [Bool.and_eq_left_iff_imp]
  intro held
  simp only [Decoration.holds, Bool.and_eq_true, decide_eq_true_eq] at held
  simp only [Decoration.touches, Bool.and_eq_true, decide_eq_true_eq]
  omega

end Decorations
end EvalDesk
