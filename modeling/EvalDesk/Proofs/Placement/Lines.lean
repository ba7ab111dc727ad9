import EvalDesk.Buffer

/-!
# Lines and positions of a buffer

A place in a text is given here by what stands in front of it: the lines before its own one, each
with the line feed that ends it, and the part of its own line up to the place. From these parts the
line and column of the place can be read off, and the extent of its line.
-/
namespace EvalDesk

namespace Text

/-- The text consists of whole lines, each with the line feed that ends it. -/
def WholeLines (text : List Char) : Prop := text = [] ∨ ∃ lines, text = lines ++ ['\n']

/-- Splitting gives one part more than there are marks. -/
theorem length_splitOn (mark : Char) (text : List Char) :
    (splitOn mark text).length = text.count mark + 1 := by
  induction text with
  | nil => rfl
  | cons c rest ih =>
    rw [splitOn]
    split
    · rename_i same
      subst same
      rw [List.length_cons, ih, List.count_cons_self]
    · rename_i other
      rw [List.length_modifyHead, ih, List.count_cons_of_ne other]

/-- A mark splits a text between the parts before it and those behind it. -/
theorem splitOn_append (mark : Char) (before behind : List Char) :
    splitOn mark (before ++ mark :: behind) = splitOn mark before ++ splitOn mark behind := by
  induction before with
  | nil => simp [splitOn]
  | cons c rest ih =>
    rw [List.cons_append, splitOn, splitOn, ih]
    split
    · rfl
    · cases parts : splitOn mark rest with
      | nil => exact absurd parts (splitOn_ne_nil mark rest)
      | cons => rfl

/-- How many characters parts have with a mark behind each. -/
def width : List (List Char) → Nat
  | [] => 0
  | part :: rest => part.length + 1 + width rest

/-- The parts with a mark behind each are as wide as the text with one more mark. -/
theorem width_splitOn (mark : Char) (text : List Char) :
    width (splitOn mark text) = text.length + 1 := by
  induction text with
  | nil => rfl
  | cons c rest ih =>
    rw [splitOn]
    cases parts : splitOn mark rest with
    | nil => exact absurd parts (splitOn_ne_nil mark rest)
    | cons =>
      rw [parts] at ih
      split <;> simp [width] at ih ⊢ <;> omega

/-- The part of a line that is left at the front of a text. -/
def lineRest (text : List Char) : List Char := text.takeWhile (· ≠ '\n')

/-- The rest of a line has no line feed. -/
theorem not_mem_lineRest (text : List Char) : '\n' ∉ lineRest text := by
  intro member
  have other := List.all_eq_true.mp List.all_takeWhile '\n' member
  simp at other

/-- The rest of a line is not longer than the text. -/
theorem length_lineRest_le (text : List Char) : (lineRest text).length ≤ text.length :=
  (List.takeWhile_prefix _).length_le

/-- A part of a line belongs to the rest of it. -/
theorem lineRest_append {head : List Char} (clear : '\n' ∉ head) (rest : List Char) :
    lineRest (head ++ rest) = head ++ lineRest rest := by
  apply List.takeWhile_append_of_pos
  intro c member
  simp only [ne_eq, decide_eq_true_eq]
  exact fun same => clear (same ▸ member)

/-- Behind the rest of a line stands a line feed, unless the text ends there. -/
theorem getElem?_lineRest {text : List Char} (more : (lineRest text).length < text.length) :
    text[(lineRest text).length]? = some '\n' := by
  induction text with
  | nil => contradiction
  | cons c rest ih =>
    by_cases feed : c = '\n'
    · subst feed
      rfl
    · have own : lineRest (c :: rest) = c :: lineRest rest :=
        List.takeWhile_cons_of_pos (by simpa using feed)
      rw [own, List.length_cons, List.length_cons] at more
      rw [own, List.length_cons, List.getElem?_cons_succ]
      exact ih (by omega)

/-- The first part of a text is its first line. -/
theorem exists_splitOn_eq_lineRest (text : List Char) :
    ∃ later, splitOn '\n' text = lineRest text :: later := by
  induction text with
  | nil => exact ⟨[], rfl⟩
  | cons c rest ih =>
    obtain ⟨later, parts⟩ := ih
    by_cases feed : c = '\n'
    · subst feed
      exact ⟨splitOn '\n' rest, rfl⟩
    · have own : lineRest (c :: rest) = c :: lineRest rest :=
        List.takeWhile_cons_of_pos (by simpa using feed)
      refine ⟨later, ?_⟩
      rw [splitOn, if_neg feed, parts, own]
      rfl

/-- Every text is whole lines and the start of one more. -/
theorem exists_wholeLines (text : List Char) :
    ∃ prior head, WholeLines prior ∧ '\n' ∉ head ∧ text = prior ++ head := by
  induction text with
  | nil => exact ⟨[], [], .inl rfl, by simp, rfl⟩
  | cons c rest ih =>
    obtain ⟨prior, head, whole, clear, rfl⟩ := ih
    rcases whole with rfl | ⟨lines, rfl⟩
    · by_cases feed : c = '\n'
      · subst feed
        exact ⟨['\n'], head, .inr ⟨[], rfl⟩, clear, rfl⟩
      · refine ⟨[], c :: head, .inl rfl, ?_, rfl⟩
        simp only [List.mem_cons, not_or]
        exact ⟨fun same => feed same.symm, clear⟩
    · exact ⟨c :: (lines ++ ['\n']), head, .inr ⟨c :: lines, rfl⟩, clear, rfl⟩

/-- A text starts with as many whole lines as are asked for, when it has that many line feeds. -/
theorem exists_wholeLines_count {text : List Char} {count : Nat}
    (enough : count ≤ text.count '\n') :
    ∃ prior rest, WholeLines prior ∧ prior.count '\n' = count ∧ text = prior ++ rest := by
  induction count with
  | zero => exact ⟨[], text, .inl rfl, rfl, rfl⟩
  | succ count ih =>
    obtain ⟨prior, rest, whole, counted, rfl⟩ := ih (by omega)
    rw [List.count_append] at enough
    have feed : '\n' ∈ rest := List.count_pos_iff.mp (by omega)
    obtain ⟨line, behind, rfl, clear⟩ := List.eq_append_cons_of_mem feed
    refine ⟨prior ++ line ++ ['\n'], behind, .inr ⟨_, rfl⟩, ?_, by simp⟩
    rw [List.count_append, List.count_append, counted, List.count_eq_zero_of_not_mem clear]
    rfl

end Text

namespace Buffer

open Text

/-- Lines are numbered from one. -/
theorem hasLine_iff {buffer : Buffer} {line : Int} :
    buffer.hasLine line = true ↔ 1 ≤ line ∧ line ≤ buffer.lineCount := by
  simp only [hasLine, Bool.and_eq_true, decide_eq_true_eq]

/-- Starts of lines come after one another. -/
theorem startsFrom_append (offset : Nat) (lines more : List (List Char)) :
    startsFrom offset (lines ++ more) =
      startsFrom offset lines ++ startsFrom (offset + width lines) more := by
  induction lines generalizing offset with
  | nil => rfl
  | cons line rest ih =>
    rw [List.cons_append, startsFrom, startsFrom, ih, width, List.cons_append]
    congr 3
    omega

/-- There are as many starts as lines. -/
theorem length_startsFrom (offset : Nat) (lines : List (List Char)) :
    (startsFrom offset lines).length = lines.length := by
  induction lines generalizing offset with
  | nil => rfl
  | cons line rest ih => rw [startsFrom, List.length_cons, List.length_cons, ih]

/-- Starts of lines lie in the extent of the lines. -/
theorem startsFrom_bounds {offset start : Nat} {lines : List (List Char)}
    (member : start ∈ startsFrom offset lines) :
    offset ≤ start ∧ start < offset + width lines := by
  induction lines generalizing offset with
  | nil => contradiction
  | cons line rest ih =>
    rw [width]
    rcases List.mem_cons.mp member with rfl | later
    · omega
    · have bounds := ih later
      omega

/-- The lines of a buffer around the start of one: those before it, itself, and the others. -/
theorem charLines_split {buffer : Buffer} {prior rest : List Char} (whole : WholeLines prior)
    (text : buffer.chars = prior ++ rest) :
    ∃ earlier later, buffer.charLines = earlier ++ lineRest rest :: later ∧
      earlier.length = prior.count '\n' ∧ width earlier = prior.length := by
  obtain ⟨later, own⟩ := exists_splitOn_eq_lineRest rest
  rw [charLines, text]
  rcases whole with rfl | ⟨lines, rfl⟩
  · exact ⟨[], later, own, rfl, rfl⟩
  · refine ⟨splitOn '\n' lines, later, ?_, ?_, ?_⟩
    · rw [List.append_assoc, List.singleton_append, splitOn_append, own]
    · rw [length_splitOn, List.count_append]
      rfl
    · rw [width_splitOn, List.length_append]
      rfl

/-- The starts of lines around one: as many as there are lines before it, which lie in front of it,
itself, and others that lie behind its line. -/
theorem starts_split {buffer : Buffer} {prior rest : List Char} (whole : WholeLines prior)
    (text : buffer.chars = prior ++ rest) :
    ∃ earlier later, buffer.starts = earlier ++ prior.length :: later ∧
      earlier.length = prior.count '\n' ∧ (∀ start ∈ earlier, start ≤ prior.length) ∧
      (∀ start ∈ later, prior.length + (lineRest rest).length < start) := by
  obtain ⟨earlier, later, lines, count, width⟩ := charLines_split whole text
  refine ⟨startsFrom 0 earlier, startsFrom (prior.length + (lineRest rest).length + 1) later,
    ?_, ?_, ?_, ?_⟩
  · rw [starts, lines, startsFrom_append, startsFrom, width, Nat.zero_add]
  · rw [length_startsFrom, count]
  · intro start member
    have bounds := startsFrom_bounds member
    omega
  · intro start member
    have bounds := startsFrom_bounds member
    omega

/-- The line of a place is one more than the line feeds in front of it, and its column one more than
the characters of the line in front of it. -/
theorem position_eq {buffer : Buffer} {prior head rest : List Char} (whole : WholeLines prior)
    (clear : '\n' ∉ head) (text : buffer.chars = prior ++ (head ++ rest)) :
    buffer.position ((prior.length + head.length : Nat) : Int) =
      (prior.count '\n' + 1, (head.length : Int) + 1) := by
  obtain ⟨earlier, later, starts, count, before, behind⟩ := starts_split whole text
  rw [lineRest_append clear, List.length_append] at behind
  have passed : ∀ start ∈ earlier ++ [prior.length],
      decide ((start : Int) ≤ ((prior.length + head.length : Nat) : Int)) = true := by
    intro start member
    simp only [decide_eq_true_eq]
    rcases List.mem_append.mp member with first | own
    · have bound := before start first
      omega
    · cases List.mem_singleton.mp own
      omega
  have stops : later.takeWhile
      (fun (start : Nat) => (start : Int) ≤ ((prior.length + head.length : Nat) : Int)) = [] := by
    cases later with
    | nil => rfl
    | cons start more =>
      have bound := behind start (.head _)
      apply List.takeWhile_cons_of_neg
      simp only [decide_eq_true_eq]
      omega
  have index : (buffer.starts.takeWhile fun (start : Nat) =>
      (start : Int) ≤ ((prior.length + head.length : Nat) : Int)).length - 1 =
        prior.count '\n' := by
    rw [starts, List.append_cons, List.takeWhile_append_of_pos passed, stops, List.append_nil,
      List.length_append, count]
    rfl
  have first : buffer.starts.getD (prior.count '\n') 0 = prior.length := by
    rw [starts, List.getD_eq_getElem?_getD, ← count, List.getElem?_append_right (Nat.le_refl _),
      Nat.sub_self]
    rfl
  simp only [position, index, first, Prod.mk.injEq, true_and]
  omega

/-- The line behind whole lines starts where they end. -/
theorem lineStart_eq {buffer : Buffer} {prior rest : List Char} (whole : WholeLines prior)
    (text : buffer.chars = prior ++ rest) :
    buffer.lineStart ((prior.count '\n' : Int) + 1) = .ok prior.length := by
  obtain ⟨earlier, later, lines, count, _⟩ := charLines_split whole text
  obtain ⟨firsts, others, starts, counted, _⟩ := starts_split whole text
  have inside : buffer.hasLine ((prior.count '\n' : Int) + 1) = true := by
    have more : prior.count '\n' + 1 ≤ buffer.lineCount := by
      rw [lineCount, lines, List.length_append, count, List.length_cons]
      omega
    simp only [hasLine, Bool.and_eq_true, decide_eq_true_eq]
    omega
  have index : ((prior.count '\n' : Int) + 1).toNat - 1 = prior.count '\n' := by omega
  have first : buffer.starts.getD (prior.count '\n') 0 = prior.length := by
    rw [starts, List.getD_eq_getElem?_getD, ← counted, List.getElem?_append_right (Nat.le_refl _),
      Nat.sub_self]
    rfl
  rw [lineStart, if_pos inside, index, first]

/-- The characters of the line behind whole lines. -/
theorem charLines_getElem? {buffer : Buffer} {prior rest : List Char} (whole : WholeLines prior)
    (text : buffer.chars = prior ++ rest) :
    buffer.charLines[prior.count '\n']? = some (lineRest rest) := by
  obtain ⟨earlier, later, lines, count, _⟩ := charLines_split whole text
  rw [lines, ← count, List.getElem?_append_right (Nat.le_refl _), Nat.sub_self]
  rfl

/-- The extent of a line that starts behind whole lines. -/
theorem lineSpan_eq {buffer : Buffer} {prior rest : List Char} (whole : WholeLines prior)
    (text : buffer.chars = prior ++ rest) :
    buffer.lineSpan ((prior.count '\n' : Int) + 1) =
      .ok ⟨prior.length, prior.length + (lineRest rest).length⟩ := by
  have index : ((prior.count '\n' : Int) + 1).toNat - 1 = prior.count '\n' := by omega
  rw [lineSpan, lineStart_eq whole text, index, List.getD_eq_getElem?_getD,
    charLines_getElem? whole text]
  rfl

/-- Every line of a buffer starts behind whole lines. -/
theorem exists_of_hasLine {buffer : Buffer} {line : Int} (inside : buffer.hasLine line = true) :
    ∃ prior rest, WholeLines prior ∧ buffer.chars = prior ++ rest ∧
      (prior.count '\n' : Int) + 1 = line := by
  have bounds : 1 ≤ line ∧ line ≤ buffer.chars.count '\n' + 1 := by
    simp only [hasLine, lineCount, charLines, length_splitOn, Bool.and_eq_true,
      decide_eq_true_eq] at inside
    omega
  obtain ⟨prior, rest, whole, counted, text⟩ :=
    exists_wholeLines_count (show line.toNat - 1 ≤ buffer.chars.count '\n' by omega)
  have number : (prior.count '\n' : Int) + 1 = line := by omega
  exact ⟨prior, rest, whole, text, number⟩

/-- The extent of a line starts behind whole lines and goes up to the next line feed. -/
theorem exists_of_lineSpan {buffer : Buffer} {line : Int} {extent : Form.Span}
    (found : buffer.lineSpan line = .ok extent) :
    ∃ prior rest, WholeLines prior ∧ buffer.chars = prior ++ rest ∧
      (prior.count '\n' : Int) + 1 = line ∧
      extent = ⟨prior.length, prior.length + (lineRest rest).length⟩ := by
  have inside : buffer.hasLine line = true := by
    by_cases inside : buffer.hasLine line = true
    · exact inside
    · rw [lineSpan, lineStart, if_neg inside] at found
      contradiction
  obtain ⟨prior, rest, whole, text, number⟩ := exists_of_hasLine inside
  have span := lineSpan_eq whole text
  rw [number, found] at span
  exact ⟨prior, rest, whole, text, number, Except.ok.inj span⟩

/-- The extent of a line is in order and lies in the text. -/
theorem lineSpan_bounds {buffer : Buffer} {line : Int} {extent : Form.Span}
    (found : buffer.lineSpan line = .ok extent) :
    extent.start ≤ extent.stop ∧ extent.stop ≤ buffer.chars.length := by
  obtain ⟨prior, rest, _, text, _, rfl⟩ := exists_of_lineSpan found
  have width := length_lineRest_le rest
  rw [text, List.length_append]
  exact ⟨Nat.le_add_right _ _, Nat.add_le_add_left width _⟩

/-- A place on a line parts the text in front of the next line feed in two. -/
theorem exists_parts {rest : List Char} {width : Nat} (size : width ≤ (lineRest rest).length) :
    ∃ head behind, '\n' ∉ head ∧ rest = head ++ behind ∧ head.length = width := by
  refine ⟨(lineRest rest).take width, rest.drop width, ?_, ?_, List.length_take_of_le size⟩
  · exact fun member => not_mem_lineRest rest (List.mem_of_mem_take member)
  · obtain ⟨behind, parts⟩ := @List.takeWhile_prefix _ rest (· ≠ '\n')
    have ahead : rest.take width = (lineRest rest).take width := by
      conv => lhs; rw [← parts]
      exact List.take_append_of_le_length size
    rw [← ahead, List.take_append_drop]

/-- A place in the extent of a line is on this line. -/
theorem position_of_lineSpan {buffer : Buffer} {line : Int} {extent : Form.Span} {place : Nat}
    (found : buffer.lineSpan line = .ok extent) (first : extent.start ≤ place)
    (last : place ≤ extent.stop) : ((buffer.position place).1 : Int) = line := by
  obtain ⟨prior, rest, whole, text, number, rfl⟩ := exists_of_lineSpan found
  obtain ⟨width, rfl⟩ := Nat.exists_eq_add_of_le first
  obtain ⟨head, behind, clear, rfl, rfl⟩ := exists_parts (Nat.le_of_add_le_add_left last)
  rw [position_eq whole clear text]
  exact number

/-- An offset of a text stands behind whole lines and the part of its own line in front of it. -/
theorem exists_of_offset {buffer : Buffer} {offset : Nat}
    (inside : offset ≤ buffer.chars.length) :
    ∃ prior head rest, WholeLines prior ∧ '\n' ∉ head ∧
      buffer.chars = prior ++ (head ++ rest) ∧ buffer.chars.take offset = prior ++ head ∧
      prior.length + head.length = offset := by
  obtain ⟨prior, head, whole, clear, front⟩ := exists_wholeLines (buffer.chars.take offset)
  refine ⟨prior, head, buffer.chars.drop offset, whole, clear, ?_, front, ?_⟩
  · rw [← List.append_assoc, ← front, List.take_append_drop]
  · have sizes := congrArg List.length front
    rw [List.length_take_of_le inside, List.length_append] at sizes
    exact sizes.symm

/-- The line of an offset is one more than the line feeds in front of it. -/
theorem line_eq_count {buffer : Buffer} {offset : Nat} (inside : offset ≤ buffer.chars.length) :
    (buffer.position offset).1 = (buffer.chars.take offset).count '\n' + 1 := by
  obtain ⟨prior, head, rest, whole, clear, text, front, place⟩ := exists_of_offset inside
  have line := position_eq whole clear text
  rw [place] at line
  rw [line, front, List.count_append, List.count_eq_zero_of_not_mem clear]

/-- Offsets of a text do not go back to an earlier line. -/
theorem line_mono {buffer : Buffer} {first second : Nat} (order : first ≤ second)
    (inside : second ≤ buffer.chars.length) :
    (buffer.position first).1 ≤ (buffer.position second).1 := by
  rw [line_eq_count inside, line_eq_count (Nat.le_trans order inside)]
  have front := List.take_prefix_take_left (l := buffer.chars) order
  exact Nat.succ_le_succ (front.sublist.count_le '\n')

/-- Behind a line feed the next line starts, and behind any other character the line goes on. -/
theorem line_succ {buffer : Buffer} {offset : Nat} {c : Char}
    (found : buffer.chars[offset]? = some c) :
    (buffer.position (offset + 1 : Nat)).1 =
      (buffer.position offset).1 + if c = '\n' then 1 else 0 := by
  obtain ⟨inside, same⟩ := List.getElem?_eq_some_iff.mp found
  rw [line_eq_count inside, line_eq_count (Nat.le_of_lt inside), List.take_succ_eq_append_getElem
    inside, same, List.count_append, List.count_singleton]
  simp only [beq_iff_eq]
  omega

/-- A line starts at or in front of the offsets of its own and of later lines. -/
theorem start_le_iff {buffer : Buffer} {line : Int} {extent : Form.Span} {offset : Nat}
    (found : buffer.lineSpan line = .ok extent) (inside : offset ≤ buffer.chars.length) :
    extent.start ≤ offset ↔ line ≤ (buffer.position offset).1 := by
  obtain ⟨ordered, bound⟩ := lineSpan_bounds found
  have first := position_of_lineSpan found (Nat.le_refl _) ordered
  constructor
  · intro behind
    have order := line_mono behind inside
    omega
  · intro later
    refine Decidable.byContradiction fun before => ?_
    -- The character in front of a line is a line feed, and so the offset stands on an earlier line.
    obtain ⟨prior, rest, whole, text, number, rfl⟩ := exists_of_lineSpan found
    rcases whole with rfl | ⟨lines, rfl⟩
    · simp at before
    · have feed : buffer.chars[lines.length]? = some '\n' := by simp [text]
      have last := line_succ feed
      simp only [List.length_append, List.length_singleton, if_pos] at before first last
      have within := Nat.le_of_lt (List.getElem?_eq_some_iff.mp feed).1
      have order := line_mono (show offset ≤ lines.length by omega) within
      omega

/-- A line ends at or behind the offsets of its own and of earlier lines. -/
theorem le_stop_iff {buffer : Buffer} {line : Int} {extent : Form.Span} {offset : Nat}
    (found : buffer.lineSpan line = .ok extent) (inside : offset ≤ buffer.chars.length) :
    offset ≤ extent.stop ↔ (buffer.position offset).1 ≤ line := by
  obtain ⟨ordered, bound⟩ := lineSpan_bounds found
  have last := position_of_lineSpan found ordered (Nat.le_refl _)
  constructor
  · intro before
    have order := line_mono before bound
    omega
  · intro earlier
    refine Decidable.byContradiction fun behind => ?_
    -- The character behind a line is a line feed, and so the offset stands on a later line.
    obtain ⟨prior, rest, whole, text, number, rfl⟩ := exists_of_lineSpan found
    have size := congrArg List.length text
    rw [List.length_append] at size
    simp only at behind
    have feed : buffer.chars[prior.length + (lineRest rest).length]? = some '\n' := by
      rw [text, List.getElem?_append_right (Nat.le_add_right _ _), Nat.add_sub_cancel_left]
      exact getElem?_lineRest (by omega)
    have next := line_succ feed
    have passed : prior.length + (lineRest rest).length + 1 ≤ offset := by omega
    have order := line_mono passed inside
    simp only [if_pos] at last next
    omega

end Buffer

end EvalDesk
