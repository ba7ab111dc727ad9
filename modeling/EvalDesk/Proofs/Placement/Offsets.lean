import EvalDesk.Proofs.Placement.Lines

/-!
# Offsets against lines and columns

An offset and its line and column name the same place. The columns of a line go from its first
character to the place right behind its last one, where its line feed or the end of the text is, so
every offset from the start of the text up to its end has one line and one column.
-/
namespace EvalDesk.Buffer

open Text

/-- The line is one of the buffer, and the column is one of its characters or right behind them. -/
def HasPlace (buffer : Buffer) (line column : Int) : Prop :=
  buffer.hasLine line = true ∧
    ∃ own, buffer.lines[line.toNat - 1]? = some own ∧ 1 ≤ column ∧ column ≤ own.length + 1

/-- The lines with a line feed between them are the text. -/
theorem intercalate_lines (buffer : Buffer) : "\n".intercalate buffer.lines = buffer.text := by
  have parts : buffer.lines.map String.toList = buffer.charLines := by
    simp [lines, Function.comp_def]
  apply String.toList_inj.mp
  rw [String.toList_intercalate, parts]
  exact intercalate_splitOn '\n' buffer.chars

/-- The line behind whole lines goes up to the next line feed. -/
theorem lines_getElem? {buffer : Buffer} {prior rest : List Char} (whole : WholeLines prior)
    (text : buffer.chars = prior ++ rest) :
    buffer.lines[((prior.count '\n' : Int) + 1).toNat - 1]? =
      some (String.ofList (lineRest rest)) := by
  have index : ((prior.count '\n' : Int) + 1).toNat - 1 = prior.count '\n' := by omega
  rw [index, lines, List.getElem?_map, charLines_getElem? whole text]
  rfl

/-- The text in the extent of a line is the line. -/
theorem substring_lineSpan {buffer : Buffer} {line : Int} (inside : buffer.hasLine line = true) :
    ∃ extent own, buffer.lineSpan line = .ok extent ∧
      buffer.lines[line.toNat - 1]? = some own ∧
      buffer.substring extent.start extent.stop = own := by
  obtain ⟨prior, rest, whole, text, rfl⟩ := exists_of_hasLine inside
  refine ⟨_, _, lineSpan_eq whole text, lines_getElem? whole text, ?_⟩
  have bound : prior.length + (lineRest rest).length ≤ buffer.chars.length := by
    rw [text, List.length_append]
    exact Nat.add_le_add_left (length_lineRest_le rest) _
  have own : rest.take (lineRest rest).length = lineRest rest :=
    (List.prefix_iff_eq_take.mp (List.takeWhile_prefix _)).symm
  rw [substring, slice_natural _ (Nat.le_add_right _ _) bound, Nat.add_sub_cancel_left, text,
    List.drop_left, own]

/-- The offset of the place behind whole lines and a part of the line after them. -/
theorem offset_eq {buffer : Buffer} {prior head rest : List Char} (whole : WholeLines prior)
    (text : buffer.chars = prior ++ (head ++ rest)) :
    buffer.offset ((prior.count '\n' : Int) + 1) ((head.length : Int) + 1) =
      .ok (prior.length + head.length) := by
  have shift : (max ((head.length : Int) + 1) 1).toNat = head.length + 1 := by omega
  rw [offset, lineStart_eq whole text, shift]
  rfl

/-- The line and column of an offset of the text are a place of it, and name this offset. -/
theorem offset_position {buffer : Buffer} {offset : Nat} (inside : offset ≤ buffer.chars.length) :
    buffer.HasPlace (buffer.position offset).1 (buffer.position offset).2 ∧
      buffer.offset (buffer.position offset).1 (buffer.position offset).2 = .ok offset := by
  obtain ⟨prior, head, rest, whole, clear, text, _, rfl⟩ := exists_of_offset inside
  have counted : buffer.hasLine ((prior.count '\n' : Int) + 1) = true := by
    have feeds : prior.count '\n' ≤ buffer.chars.count '\n' := by
      rw [text, List.count_append]
      exact Nat.le_add_right _ _
    rw [hasLine_iff, lineCount, charLines, length_splitOn]
    omega
  have width : (head.length : Int) + 1 ≤
      ((String.ofList (lineRest (head ++ rest))).length : Int) + 1 := by
    rw [String.length_ofList, lineRest_append clear, List.length_append]
    omega
  rw [position_eq whole clear text]
  constructor
  · refine ⟨counted, _, lines_getElem? whole text, ?_, width⟩
    show (1 : Int) ≤ (head.length : Int) + 1
    omega
  · exact offset_eq whole text

/-- A place of the text has an offset in it, the line and column of which are this place. -/
theorem position_offset {buffer : Buffer} {line column : Int}
    (place : buffer.HasPlace line column) :
    ∃ offset : Nat, buffer.offset line column = .ok offset ∧ offset ≤ buffer.chars.length ∧
      buffer.position offset = (line.toNat, column) := by
  obtain ⟨inside, own, found, first, last⟩ := place
  obtain ⟨prior, rest, whole, text, rfl⟩ := exists_of_hasLine inside
  rw [lines_getElem? whole text, Option.some.injEq] at found
  subst found
  rw [String.length_ofList] at last
  have size : column.toNat - 1 ≤ (lineRest rest).length := by omega
  obtain ⟨head, behind, clear, rfl, width⟩ := exists_parts size
  have number : column = (head.length : Int) + 1 := by omega
  subst number
  refine ⟨_, offset_eq whole text, ?_, ?_⟩
  · rw [text, List.length_append, List.length_append]
    omega
  · rw [position_eq whole clear text]
    rfl

/-- The starts of lines rise. -/
theorem pairwise_startsFrom (offset : Nat) (lines : List (List Char)) :
    (startsFrom offset lines).Pairwise (· < ·) := by
  induction lines generalizing offset with
  | nil => exact .nil
  | cons line rest ih =>
    refine .cons ?_ (ih _)
    intro start member
    have bounds := startsFrom_bounds member
    omega

/-- Of rising starts those up to an offset come first. -/
theorem length_takeWhile_rising {starts : List Nat} (rising : starts.Pairwise (· < ·))
    (offset : Int) :
    (starts.takeWhile fun (start : Nat) => (start : Int) ≤ offset).length =
      starts.countP fun (start : Nat) => (start : Int) ≤ offset := by
  induction rising with
  | nil => rfl
  | @cons start rest above _ ih =>
    by_cases passed : (start : Int) ≤ offset
    · rw [List.takeWhile_cons_of_pos (by simpa using passed),
        List.countP_cons_of_pos (by simpa using passed), List.length_cons, ih]
    · have none : ∀ later ∈ rest, ¬ decide ((later : Int) ≤ offset) = true := by
        intro later member
        have order := above later member
        simp only [decide_eq_true_eq]
        omega
      rw [List.takeWhile_cons_of_neg (by simpa using passed),
        List.countP_cons_of_neg (by simpa using passed), List.countP_eq_zero.mpr none]
      rfl

/-- The line of an offset is the number of the starts up to it, as a search for it in the rising
starts finds it; before the text it is the first line. -/
theorem position_line (buffer : Buffer) (offset : Int) :
    (buffer.position offset).1 =
      max 1 (buffer.starts.countP fun (start : Nat) => (start : Int) ≤ offset) := by
  have found := length_takeWhile_rising (pairwise_startsFrom 0 buffer.charLines) offset
  simp only [position, starts, found]
  omega

/-- A later offset has a later line, or a later column on the same line. -/
theorem position_lt (buffer : Buffer) {first second : Int} (order : first < second) :
    Prod.Lex (· < ·) (· < ·) (buffer.position first) (buffer.position second) := by
  have passed : (buffer.starts.countP fun (start : Nat) => (start : Int) ≤ first) ≤
      buffer.starts.countP fun (start : Nat) => (start : Int) ≤ second := by
    apply List.countP_mono_left
    intro start _
    simp only [decide_eq_true_eq]
    omega
  have lines : (buffer.position first).1 ≤ (buffer.position second).1 := by
    rw [position_line, position_line]
    omega
  apply Prod.lex_def.mpr
  rcases Nat.lt_or_eq_of_le lines with earlier | same
  · exact .inl earlier
  · have index := Nat.succ.inj same
    refine .inr ⟨same, ?_⟩
    show first - _ + 1 < second - _ + 1
    rw [index]
    omega

/-- The lines of a buffer with a line feed between them are its text, and the text in the extent of
each line is the line. Offsets of the text and places on its lines are inverse to each other, and
the places of the offsets come after one another as the offsets do. -/
theorem offset_position_inverse (buffer : Buffer) :
    "\n".intercalate buffer.lines = buffer.text ∧
      (∀ line, buffer.hasLine line = true → ∃ extent own, buffer.lineSpan line = .ok extent ∧
        buffer.lines[line.toNat - 1]? = some own ∧
        buffer.substring extent.start extent.stop = own) ∧
      (∀ offset : Nat, offset ≤ buffer.text.length →
        buffer.HasPlace (buffer.position offset).1 (buffer.position offset).2 ∧
        buffer.offset (buffer.position offset).1 (buffer.position offset).2 = .ok offset) ∧
      (∀ line column, buffer.HasPlace line column →
        ∃ offset : Nat, buffer.offset line column = .ok offset ∧
          offset ≤ buffer.text.length ∧ buffer.position offset = (line.toNat, column)) ∧
      ∀ first second : Int, first < second →
        Prod.Lex (· < ·) (· < ·) (buffer.position first) (buffer.position second) := by
  have size : buffer.text.length = buffer.chars.length := String.length_toList.symm
  rw [size]
  exact ⟨intercalate_lines buffer, fun _ => substring_lineSpan, fun _ => offset_position,
    fun _ _ => position_offset, fun _ _ => position_lt buffer⟩

end EvalDesk.Buffer
