import EvalDesk.Proofs.Highlight.Columns
import EvalDesk.Proofs.Placement.Lines

/-!
# Painting a source line by line

A source is painted one line at a time: the line is highlighted, and those decorations of the buffer
that touch it are drawn on it. Every character of a line stands at one offset of the buffer, and
every offset but those of line feeds is one of a line. So all lines together show a decoration on
the characters of its region and on no others, whatever lines the region starts in, ends in or
crosses.
-/
namespace EvalDesk

namespace Buffer

open Text

/-- A line of a buffer stands at its extent. -/
theorem lineSpan_of_line {buffer : Buffer} {index : Nat} {row : List Char}
    (own : buffer.charLines[index]? = some row) :
    ∃ start : Nat, buffer.lineSpan (index + 1) = .ok ⟨start, start + row.length⟩ ∧
      ∀ column < row.length, buffer.chars[start + column]? = row[column]? := by
  have inside : index < buffer.charLines.length := (List.getElem?_eq_some_iff.mp own).1
  rw [charLines, length_splitOn] at inside
  obtain ⟨prior, rest, whole, counted, text⟩ :=
    exists_wholeLines_count (show index ≤ buffer.chars.count '\n' by omega)
  obtain ⟨earlier, later, lines, count, _⟩ := charLines_split whole text
  have same : row = lineRest rest := by
    rw [lines, List.getElem?_append_right (by omega), count, counted, Nat.sub_self] at own
    exact (Option.some.inj own).symm
  subst same
  refine ⟨prior.length, ?_, fun column within => ?_⟩
  · rw [← counted]
    exact lineSpan_eq whole text
  · obtain ⟨behind, parts⟩ := List.takeWhile_prefix (l := rest) (· ≠ '\n')
    have front : rest[column]? = (lineRest rest)[column]? := by
      conv => lhs; rw [← parts]
      exact List.getElem?_append_left within
    rw [text, List.getElem?_append_right (Nat.le_add_right _ _), Nat.add_sub_cancel_left, front]

/-- Every character but a line feed stands in a line. -/
theorem exists_line_of_offset {buffer : Buffer} {offset : Nat} {c : Char}
    (found : buffer.chars[offset]? = some c) (ink : c ≠ '\n') :
    ∃ (index : Nat) (row : List Char) (start column : Nat),
      buffer.charLines[index]? = some row ∧
      buffer.lineSpan (index + 1) = .ok ⟨start, start + row.length⟩ ∧
      offset = start + column ∧ row[column]? = some c := by
  obtain ⟨inside, rfl⟩ := List.getElem?_eq_some_iff.mp found
  obtain ⟨prior, head, whole, clear, front⟩ := exists_wholeLines (buffer.chars.take offset)
  have text : buffer.chars =
      prior ++ (head ++ buffer.chars[offset] :: buffer.chars.drop (offset + 1)) := by
    rw [← List.drop_eq_getElem_cons inside, ← List.append_assoc, ← front, List.take_append_drop]
  have place : offset = prior.length + head.length := by
    have sizes := congrArg List.length front
    rw [List.length_take_of_le (Nat.le_of_lt inside), List.length_append] at sizes
    exact sizes
  have row : lineRest (head ++ buffer.chars[offset] :: buffer.chars.drop (offset + 1)) =
      head ++ buffer.chars[offset] :: lineRest (buffer.chars.drop (offset + 1)) := by
    rw [lineRest_append clear]
    congr 1
    exact List.takeWhile_cons_of_pos (by simpa using ink)
  obtain ⟨earlier, later, lines, count, _⟩ := charLines_split whole text
  have span := lineSpan_eq whole text
  rw [row] at lines span
  refine ⟨prior.count '\n', _, prior.length, head.length, ?_, span, place, ?_⟩
  · rw [lines, List.getElem?_append_right (by omega), count, Nat.sub_self]
    rfl
  · rw [List.getElem?_append_right (Nat.le_refl _), Nat.sub_self]
    rfl

end Buffer

namespace Decorations

/-- A line that starts at an offset of a surface, painted: highlighted, and with the decorations of
the surface that touch it drawn on it. -/
def paintLine (decorations : Decorations) (surface : String) (start : Nat) (line : List Char) :
    Styled :=
  (decorations.overlapping surface start (start + line.length)).drawOn start line.length
    (Highlight.line line)

/-- The painted line shows the line and on each of its characters the decorations that hold the
character; an empty line shows a blank for each decoration that touches it. -/
structure PaintsExactly (decorations : Decorations) (surface : String) (start : Nat)
    (line : List Char) : Prop where
  /-- The text is the line; for an empty one it has a blank for each decoration that touches it. -/
  text : (decorations.paintLine surface start line).plain =
    if line = [] then
      List.replicate ((decorations.onSurface surface).countP (·.touches start start)) ' '
    else line
  /-- The marks of the highlighted line stay in front. -/
  highlighted : (Highlight.line line).marks <+: (decorations.paintLine surface start line).marks
  /-- Over a column lie the styles of the highlighted line, and then those of the decorations that
  hold the character at its offset, in order. -/
  styles : ∀ column < line.length, (decorations.paintLine surface start line).stylesAt column =
    (Highlight.line line).stylesAt column ++
      ((decorations.onSurface surface).filter (·.holds (start + column : Nat))).map
        fun decoration => Decoration.drawnStyle decoration.style
  /-- Marks that are added lie in the line. -/
  within : line ≠ [] →
    ∀ mark ∈ (decorations.paintLine surface start line).marks.drop
        (Highlight.line line).marks.length,
      0 ≤ mark.start ∧ mark.start < mark.stop ∧ mark.stop ≤ line.length
  /-- On an empty line each blank has the style of its decoration. -/
  blanks : line = [] → (decorations.paintLine surface start line).marks =
    ((decorations.onSurface surface).filter (·.touches start start)).mapIdx
      fun index decoration => ⟨index, index + 1, Decoration.drawnStyle decoration.style⟩

/-- An empty line is painted exactly. -/
theorem paintsExactly_empty (decorations : Decorations) (surface : String) (start : Nat) :
    decorations.PaintsExactly surface start [] := by
  have drawn : decorations.paintLine surface start [] =
      ⟨List.replicate (decorations.overlapping surface start start).length ' ',
        (decorations.overlapping surface start start).mapIdx fun index decoration =>
          ⟨index, index + 1, Decoration.drawnStyle decoration.style⟩⟩ := by
    have base : Highlight.line [] = ⟨[], []⟩ := rfl
    have width : ((start : Nat) : Int) + ([] : List Char).length = start := by simp
    rw [paintLine, width, base]
    exact (drawOn_empty _ _ _).trans (by simp)
  constructor
  · rw [drawn, if_pos rfl, overlapping, List.countP_eq_length_filter]
  · exact List.nil_prefix
  · intro column bound
    contradiction
  · intro filled
    contradiction
  · intro _
    rw [drawn]
    rfl

/-- A line of characters that are all shown is painted exactly. -/
theorem paintsExactly (decorations : Decorations) (surface : String) (start : Nat)
    {line : List Char} (clean : ∀ c ∈ line, Styled.isDropped c = false) :
    decorations.PaintsExactly surface start line := by
  by_cases empty : line = []
  · subst empty
    exact paintsExactly_empty decorations surface start
  have plain : (Highlight.line line).plain = line := by
    rw [Highlight.plain_line]
    exact (Styled.kept_eq_iff line).mpr clean
  have size : ((Highlight.line line).plain.length : Int) = line.length := by rw [plain]
  have filled : (line.length : Int) ≠ 0 := by
    have some_left := List.length_pos_iff.mpr empty
    omega
  have drawn := drawOn_filled (decorations.overlapping surface start (start + line.length)) start
    size filled
  constructor
  · rw [if_neg empty, paintLine, plain_drawOn _ _ _ filled, plain]
  · rw [paintLine, drawn]
    exact List.prefix_append _ _
  · intro column bound
    have first : (start : Int) ≤ (start + column : Nat) := by omega
    have last : ((start + column : Nat) : Int) ≤ start + line.length := by omega
    have offset : (start : Int) + column = (start + column : Nat) := by omega
    rw [paintLine, stylesAt_drawOn _ _ size (by omega) (by omega), offset,
      filter_holds_overlapping _ _ first last]
  · intro _ mark member
    rw [paintLine, drawn, List.drop_left] at member
    obtain ⟨decoration, _, made⟩ := List.mem_flatMap.mp member
    exact Decoration.marksOn_bounds made
  · intro none_left
    contradiction

/-- For every buffer and all decorations: each line whose characters are all shown is painted
exactly, where its columns stand for the offsets from the start of the line on. Every character of
the text other than a line feed stands in a column of a line that is painted exactly if all its
characters are shown. So all lines together show each decoration on the characters of its region,
and on no others. -/
theorem regions_painted_exactly (buffer : Buffer) (decorations : Decorations) :
    (∀ (index : Nat) (row : List Char), buffer.charLines[index]? = some row →
      (∀ c ∈ row, Styled.isDropped c = false) →
      ∃ start : Nat, buffer.lineSpan (index + 1) = .ok ⟨start, start + row.length⟩ ∧
        (∀ column < row.length, buffer.chars[start + column]? = row[column]?) ∧
        decorations.PaintsExactly buffer.path start row) ∧
    ∀ (offset : Nat) (c : Char), buffer.chars[offset]? = some c → c ≠ '\n' →
      ∃ (index : Nat) (row : List Char) (start column : Nat),
        buffer.charLines[index]? = some row ∧
        buffer.lineSpan (index + 1) = .ok ⟨start, start + row.length⟩ ∧
        offset = start + column ∧ row[column]? = some c ∧
        ((∀ other ∈ row, Styled.isDropped other = false) →
          decorations.PaintsExactly buffer.path start row) := by
  refine ⟨fun index row own clean => ?_, fun offset c found ink => ?_⟩
  · obtain ⟨start, span, columns⟩ := Buffer.lineSpan_of_line own
    exact ⟨start, span, columns, decorations.paintsExactly buffer.path start clean⟩
  · obtain ⟨index, row, start, column, own, span, place, read⟩ :=
      Buffer.exists_line_of_offset found ink
    exact ⟨index, row, start, column, own, span, place, read,
      decorations.paintsExactly buffer.path start⟩

/-- A decoration that ends on the third line, given by its ends in the wrong order, is drawn on the
bracket there and not behind it, one of another surface is not drawn, and the empty line before has
a blank for the first one. -/
theorem regions_painted_exactly_crossing :
    let buffer : Buffer := ⟨"a.clj", "a\n\n(b)"⟩
    let decorations : Decorations :=
      [.between "a.clj" 4 0 "warning" "" 1, .between "b.clj" 0 6 "error" "" 1]
    (buffer.charLines[1]? = some [] ∧ buffer.charLines[2]? = some "(b)".toList ∧
      ∀ c ∈ "(b)".toList, Styled.isDropped c = false) ∧
    (decorations.paintLine "a.clj" 2 []).plain = [' '] ∧
    (decorations.paintLine "a.clj" 3 "(b)".toList).plain = "(b)".toList ∧
    (decorations.paintLine "a.clj" 3 "(b)".toList).stylesAt 0 =
      (Highlight.line "(b)".toList).stylesAt 0 ++ ["on #5c4a00"] ∧
    (decorations.paintLine "a.clj" 3 "(b)".toList).stylesAt 1 =
      (Highlight.line "(b)".toList).stylesAt 1 := by
  intro buffer decorations
  have second : buffer.charLines[1]? = some [] := by decide +kernel
  have third : buffer.charLines[2]? = some "(b)".toList := by decide +kernel
  have kept : "(b)".toList.all (fun c => !Styled.isDropped c) = true := by decide +kernel
  have clean : ∀ c ∈ "(b)".toList, Styled.isDropped c = false :=
    fun c member => by simpa using List.all_eq_true.mp kept c member
  have lines := (regions_painted_exactly buffer decorations).1
  obtain ⟨start, span, _, empty⟩ := lines 1 [] second (by simp)
  have first : start = 2 := by
    have extent : (buffer.lineSpan 2).toOption = some ⟨2, 2⟩ := by decide +kernel
    exact congrArg Form.Span.start
      (Option.some.inj ((congrArg Except.toOption span).symm.trans extent))
  subst first
  obtain ⟨start, span, _, drawn⟩ := lines 2 _ third clean
  have last : start = 3 := by
    have extent : (buffer.lineSpan 3).toOption = some ⟨3, 6⟩ := by decide +kernel
    exact congrArg Form.Span.start
      (Option.some.inj ((congrArg Except.toOption span).symm.trans extent))
  subst last
  refine ⟨⟨second, third, clean⟩, ?_, ?_, ?_, ?_⟩
  · exact empty.text
  · exact drawn.text
  · exact drawn.styles 0 (by decide)
  · exact (drawn.styles 1 (by decide)).trans (List.append_nil _)

end Decorations
end EvalDesk
