import EvalDesk.Placement
import EvalDesk.Proofs.Form.Reading
import EvalDesk.Proofs.Placement.Lines

/-!
# Where a diagnostic lands

A diagnostic with a line and a column is drawn from the first form at or behind its column on its
line. So it starts at a character of a form exactly when it tells the line of this character and
nothing but blanks lies between its column and the character.
-/
namespace EvalDesk.Buffer

open Form Text

/-- Blanks in front of a character that is none are passed over, and nothing else is. -/
theorem skipBlank_blanks {blanks : List Char} (blank : ∀ c ∈ blanks, isBlank c = true)
    {first : Char}
    (ink : isBlank first = false) (code : first ≠ ';') (rest : List Char) :
    skipBlank (blanks ++ first :: rest) = first :: rest := by
  induction blanks with
  | nil => rw [List.nil_append, skipBlank_cons, ink, if_neg Bool.false_ne_true, if_neg code]
  | cons c more ih =>
    rw [List.cons_append, skipBlank_cons, if_pos (blank c (.head _))]
    exact ih fun other member => blank other (.tail _ member)

/-- A part of a line that is not blank holds up the reader of blanks, unless a comment in it takes
the rest of the line along. -/
theorem length_skipBlank_ink {part : List Char} (clear : '\n' ∉ part)
    (ink : part.all isBlank = false) (rest : List Char) :
    rest.length < (skipBlank (part ++ rest)).length ∨
      (skipBlank (part ++ rest)).length + (lineRest rest).length ≤ rest.length := by
  induction part with
  | nil => contradiction
  | cons c more ih =>
    have behind : '\n' ∉ more := fun member => clear (.tail _ member)
    rw [List.cons_append, skipBlank_cons]
    by_cases blank : isBlank c = true
    · rw [if_pos blank]
      rw [List.all_cons, blank, Bool.true_and] at ink
      exact ih behind ink
    by_cases comment : c = ';'
    · right
      rw [if_neg blank, if_pos comment]
      cases reach : commentLength? (more ++ rest) with
      | none =>
        simpa using length_lineRest_le rest
      | some length =>
        obtain ⟨line, tail, clear_line, parts, rfl⟩ := (commentLength?_iff _ _).mp reach
        have own : lineRest (more ++ rest) = line := by
          rw [parts, lineRest_append clear_line]
          exact List.append_nil line
        rw [lineRest_append behind] at own
        have shorter := length_skipBlankBy_le commentLength? ((more ++ rest).drop (line.length + 1))
        have sizes := congrArg List.length own
        have whole := length_lineRest_le rest
        simp only [List.length_drop, List.length_append] at shorter sizes
        simp only [skipBlank]
        omega
    · left
      rw [if_neg blank, if_neg comment, List.length_cons, List.length_append]
      omega

/-- The span drawn on a line, given by its extent, from an offset on. -/
def spanFrom (buffer : Buffer) (extent : Span) (first : Nat) : Span :=
  let start := min (buffer.chars.length - (skipBlank (buffer.chars.drop first)).length) extent.stop
  if extent.stop ≤ first ∨ extent.stop ≤ start then extent
  else ⟨start, (formEnd? buffer.chars start).getD extent.stop⟩

/-- A diagnostic is drawn from its column on when its line exists. -/
theorem expressionSpan_eq (buffer : Buffer) (line column : Int) :
    buffer.expressionSpan line column = (buffer.lineSpan line).map fun extent =>
      buffer.spanFrom extent (extent.start + ((max column 1).toNat - 1)) := by
  rw [expressionSpan]
  cases buffer.lineSpan line with
  | error fault => rfl
  | ok extent =>
    simp only [bind, Except.bind, pure, Except.pure, Except.map, spanFrom]
    split
    · rename_i passed
      rw [if_pos (.inl passed)]
    · rename_i room
      split
      · rename_i passed
        rw [if_pos (.inr passed)]
      · rename_i space
        rw [if_neg (not_or.mpr ⟨room, space⟩)]

/-- What is drawn on a line starts on it, and its end does not lie before its start. -/
theorem spanFrom_within {buffer : Buffer} {extent : Span} (ordered : extent.start ≤ extent.stop)
    (bound : extent.stop ≤ buffer.chars.length) {first : Nat} (inside : extent.start ≤ first) :
    extent.start ≤ (buffer.spanFrom extent first).start ∧
      (buffer.spanFrom extent first).start ≤ extent.stop ∧
      (buffer.spanFrom extent first).start ≤ (buffer.spanFrom extent first).stop := by
  simp only [spanFrom]
  split
  · exact ⟨Nat.le_refl _, ordered, ordered⟩
  · rename_i room
    have blanks := blankEnd_bounds (show first ≤ buffer.chars.length by omega)
    refine ⟨?_, Nat.min_le_right _ _, ?_⟩
    · simp only [blankEnd] at blanks
      exact Nat.le_min.mpr ⟨Nat.le_trans inside blanks.1, ordered⟩
    · simp only
      cases read : formEnd? buffer.chars
          (min (buffer.chars.length - (skipBlank (buffer.chars.drop first)).length)
            extent.stop) with
      | none => exact Nat.min_le_right _ _
      | some stop => exact Nat.le_of_lt (formEnd?_iff.mp read).2.1

/-- What is drawn on a line ends in the text, be it behind the line. -/
theorem stop_spanFrom_le {buffer : Buffer} {extent : Span}
    (bound : extent.stop ≤ buffer.chars.length) (first : Nat) :
    (buffer.spanFrom extent first).stop ≤ buffer.chars.length := by
  simp only [spanFrom]
  split
  · exact bound
  · cases read : formEnd? buffer.chars
        (min (buffer.chars.length - (skipBlank (buffer.chars.drop first)).length) extent.stop) with
    | none => exact bound
    | some stop => exact (formEnd?_iff.mp read).2.2

/-- What is drawn on the line of a character that belongs to a form starts at this character exactly
when only blanks lie between the first place and the character. -/
theorem spanFrom_start_iff {buffer : Buffer} {prior head rest : List Char} {ink : Char}
    (clear : '\n' ∉ head) (text : buffer.chars = prior ++ (head ++ ink :: rest))
    (apart : isBlank ink = false) (code : ink ≠ ';') {skipped : Nat}
    (inside : skipped ≤ head.length) :
    (buffer.spanFrom ⟨prior.length, prior.length + (lineRest (head ++ ink :: rest)).length⟩
        (prior.length + skipped)).start = prior.length + head.length ↔
      (head.drop skipped).all isBlank = true := by
  have feed : ink ≠ '\n' := by
    intro same
    subst same
    contradiction
  have own : lineRest (ink :: rest) = ink :: lineRest rest :=
    List.takeWhile_cons_of_pos (by simpa using feed)
  have width : (lineRest (head ++ ink :: rest)).length =
      head.length + 1 + (lineRest rest).length := by
    rw [lineRest_append clear, own, List.length_append, List.length_cons]
    omega
  have size : buffer.chars.length = prior.length + head.length + (rest.length + 1) := by
    rw [text, List.length_append, List.length_append, List.length_cons, Nat.add_assoc]
  have input : buffer.chars.drop (prior.length + skipped) = head.drop skipped ++ ink :: rest := by
    rw [text, ← List.drop_drop, List.drop_left, List.drop_append_of_le_length inside]
  simp only [spanFrom, input, width]
  by_cases blank : (head.drop skipped).all isBlank = true
  · have passed := skipBlank_blanks (List.all_eq_true.mp blank) apart code rest
    simp only [passed, blank, iff_true, List.length_cons]
    rw [if_neg (by omega)]
    simp only
    omega
  · have part : '\n' ∉ head.drop skipped := fun member => clear (List.mem_of_mem_drop member)
    have held := length_skipBlank_ink part (by simpa using blank) (ink :: rest)
    have room : head.drop skipped ≠ [] := by
      intro none_left
      rw [none_left] at blank
      exact blank rfl
    have longer := List.length_pos_iff.mpr room
    rw [List.length_drop] at longer
    rw [own, List.length_cons, List.length_cons] at held
    simp only [blank, Bool.false_eq_true, iff_false]
    split
    · simp only
      omega
    · simp only
      omega

/-! ## Slices of a buffer -/

/-- The buffer of a slice that is sent alone. -/
def slice (buffer : Buffer) (span : Span) : Buffer := { text := buffer.spanText span }

/-- How far a line of a slice is moved to the right in the buffer: the first one by what stands in
front of the slice on its line, and the others not at all. -/
def shift (buffer : Buffer) (span : Span) (line : Nat) : Nat :=
  if line = 1 then ((buffer.position span.start).2 - 1).toNat else 0

/-- So many characters in front of a place are all blank. -/
def blanksBefore (text : List Char) (place width : Nat) : Bool :=
  ((text.take place).drop (place - width)).all isBlank

/-- The characters of the buffer of a slice. -/
theorem chars_slice (buffer : Buffer) (span : Span) :
    (buffer.slice span).chars = span.of buffer.chars := by
  simp [slice, chars, spanText]

/-- The parts of a buffer around a character of a slice: whole lines and the part of a line in front
of the slice, and whole lines and the part of a line in front of the character in the slice. -/
theorem exists_slice_parts {buffer : Buffer} {span : Span} {place : Nat} {ink : Char}
    (found : (span.of buffer.chars)[place]? = some ink) :
    ∃ lines indent linesIn head rest,
      WholeLines lines ∧ '\n' ∉ indent ∧ lines.length + indent.length = span.start ∧
      WholeLines linesIn ∧ '\n' ∉ head ∧ linesIn.length + head.length = place ∧
      (∃ more, (buffer.slice span).chars = linesIn ++ (head ++ ink :: more)) ∧
      buffer.chars = lines ++ (indent ++ (linesIn ++ (head ++ ink :: rest))) := by
  obtain ⟨lines, indent, whole, clear, front⟩ := exists_wholeLines (buffer.chars.take span.start)
  obtain ⟨linesIn, head, wholeIn, clearIn, inside⟩ :=
    exists_wholeLines ((span.of buffer.chars).take place)
  have sliced : (buffer.slice span).chars =
      linesIn ++ (head ++ ink :: (span.of buffer.chars).drop (place + 1)) := by
    have parts := List.take_append_drop place (span.of buffer.chars)
    rw [drop_of_getElem? found, inside, List.append_assoc] at parts
    rw [chars_slice, parts]
  obtain ⟨rest, behind⟩ : ∃ rest, buffer.chars.drop span.start =
      linesIn ++ (head ++ ink :: rest) := by
    have parts := List.take_append_drop (span.stop - span.start) (buffer.chars.drop span.start)
    rw [← Span.of, ← chars_slice, sliced] at parts
    rw [List.append_assoc, List.append_assoc, List.cons_append] at parts
    exact ⟨_, parts.symm⟩
  have text : buffer.chars = lines ++ (indent ++ (linesIn ++ (head ++ ink :: rest))) := by
    rw [← behind, ← List.append_assoc, ← front, List.take_append_drop]
  have first : lines.length + indent.length = span.start := by
    have longer := congrArg List.length behind
    have taken := congrArg List.length front
    simp only [List.length_drop, List.length_append, List.length_cons,
      List.length_take] at longer taken
    omega
  have last : linesIn.length + head.length = place := by
    have longer := (List.getElem?_eq_some_iff.mp found).1
    have taken := congrArg List.length inside
    rw [List.length_take_of_le (Nat.le_of_lt longer), List.length_append] at taken
    exact taken.symm
  exact ⟨lines, indent, linesIn, head, rest, whole, clear, first, wholeIn, clearIn, last,
    ⟨_, sliced⟩, text⟩

/-- A character of a slice in the buffer: what stands in front of it there, and how its line and
column there come from those in the slice. -/
theorem place_of_slice {buffer : Buffer} {span : Span} {place : Nat} {ink : Char}
    (found : (span.of buffer.chars)[place]? = some ink) :
    ∃ prior head rest skipped, WholeLines prior ∧ '\n' ∉ head ∧
      buffer.chars = prior ++ (head ++ ink :: rest) ∧
      prior.length + head.length = span.start + place ∧ skipped ≤ head.length ∧
      ((buffer.slice span).position place).2 = (skipped : Int) + 1 ∧
      prior.count '\n' + 1 =
        (buffer.position span.start).1 + ((buffer.slice span).position place).1 - 1 ∧
      head.length - skipped = buffer.shift span ((buffer.slice span).position place).1 := by
  obtain ⟨lines, indent, linesIn, head, rest, whole, clear, first, wholeIn, clearIn, last,
    ⟨_, sliced⟩, text⟩ := exists_slice_parts found
  have start := position_eq whole clear text
  have own := position_eq wholeIn clearIn sliced
  rw [first] at start
  rw [last] at own
  rw [own, start]
  rcases wholeIn with rfl | ⟨more, rfl⟩
  · -- On the first line of the slice both starts are the same line.
    refine ⟨lines, indent ++ head, rest, head.length, whole, ?_, ?_, ?_, ?_, rfl, ?_, ?_⟩
    · intro member
      rcases List.mem_append.mp member with before | after
      · exact clear before
      · exact clearIn after
    · rw [text, List.nil_append, List.append_assoc]
    · rw [List.length_append, ← first, ← last, List.length_nil]
      omega
    · rw [List.length_append]
      omega
    · simp
    · rw [shift, start, List.length_append]
      simp
  · -- Another line of the slice is a line of the buffer from its start on.
    refine ⟨lines ++ indent ++ (more ++ ['\n']), head, rest, head.length, ?_, clearIn, ?_, ?_,
      Nat.le_refl _, rfl, ?_, ?_⟩
    · exact .inr ⟨lines ++ indent ++ more, by simp⟩
    · rw [text]
      simp
    · rw [List.length_append, List.length_append, first, Nat.add_assoc, last]
    · rw [List.count_append, List.count_append, List.count_eq_zero_of_not_mem clear]
      simp only
      omega
    · have later : (more ++ ['\n']).count '\n' + 1 ≠ 1 := by
        rw [List.count_append]
        simp
      rw [shift, if_neg later, Nat.sub_self]

/-- A diagnostic that tells the line and column of a character of a slice is drawn from this
character in the buffer exactly when its line is counted from the line on which the slice starts,
and on the first line of the slice only blanks lie in front of the character, as many as the slice
is moved to the right. -/
theorem expressionSpan_of_slice {buffer : Buffer} {span : Span} {place line : Nat} {column : Int}
    {ink : Char} (found : (span.of buffer.chars)[place]? = some ink) (apart : isBlank ink = false)
    (code : ink ≠ ';') (told : (buffer.slice span).position place = (line, column)) (origin : Int) :
    (∃ drawn, buffer.expressionSpan (origin + line - 1) column = .ok drawn ∧
        drawn.start = span.start + place) ↔
      origin = (buffer.position span.start).1 ∧
        blanksBefore buffer.chars (span.start + place) (buffer.shift span line) = true := by
  obtain ⟨prior, head, rest, skipped, whole, clear, text, here, inside, columns, lines, width⟩ :=
    place_of_slice found
  rw [told] at columns lines width
  simp only at columns lines width
  have extent := lineSpan_eq whole text
  have own := position_eq whole clear text
  rw [here] at own
  have blanks : blanksBefore buffer.chars (span.start + place) (buffer.shift span line) =
      (head.drop skipped).all isBlank := by
    have front : buffer.chars.take (span.start + place) = prior ++ head := by
      rw [text, ← List.append_assoc, ← here, ← List.length_append, List.take_left]
    have from_ : span.start + place - buffer.shift span line = prior.length + skipped := by
      omega
    rw [blanksBefore, front, from_, ← List.drop_drop, List.drop_left]
  have first : (max column 1).toNat - 1 = skipped := by omega
  rw [blanks, ← spanFrom_start_iff clear text apart code inside, here, expressionSpan_eq, first]
  have same_line : (origin + line - 1 = (prior.count '\n' : Int) + 1) ↔
      origin = (buffer.position span.start).1 := by
    have numbered : 1 ≤ line := by
      have counted := congrArg Prod.fst told
      rw [position] at counted
      omega
    omega
  constructor
  · rintro ⟨drawn, shown, same⟩
    cases other : buffer.lineSpan (origin + line - 1) with
    | error fault =>
      rw [other] at shown
      contradiction
    | ok whole_line =>
      rw [other] at shown
      cases shown
      obtain ⟨ordered, bound⟩ := lineSpan_bounds other
      obtain ⟨before, behind, _⟩ :=
        spanFrom_within ordered bound (Nat.le_add_right whole_line.start skipped)
      rw [same] at before behind
      have number := position_of_lineSpan other before behind
      rw [own] at number
      have agrees := same_line.mp number.symm
      rw [same_line.mpr agrees, extent] at other
      cases other
      exact ⟨agrees, same⟩
  · rintro ⟨agrees, same⟩
    refine ⟨_, ?_, same⟩
    rw [same_line.mpr agrees, extent]
    rfl

end EvalDesk.Buffer

namespace EvalDesk

/-- A diagnostic is drawn in a buffer that has its line, over the line or from a place on it on. -/
theorem Diagnostic.placeIn_cases {diagnostic : Diagnostic} {target : String} {line : Int}
    {buffer : Buffer} {placement : Placement}
    (drawn : diagnostic.placeIn target line buffer = .ok (some placement)) :
    buffer.hasLine line = true ∧ ∃ extent span, buffer.lineSpan line = .ok extent ∧
      (span = extent ∨
        ∃ first, extent.start ≤ first ∧ span = buffer.spanFrom extent first) ∧
      placement = ⟨if buffer.path = "" then target else buffer.path, span.start, span.stop,
        diagnostic.severity, diagnostic.message, line, diagnostic.column⟩ := by
  simp only [placeIn] at drawn
  split at drawn
  · cases drawn
  rename_i inside
  refine ⟨by simpa using inside, ?_⟩
  cases own : buffer.lineSpan line with
  | error fault =>
    simp only [Buffer.expressionSpan_eq, own] at drawn
    split at drawn <;> cases drawn
  | ok extent =>
    simp only [Buffer.expressionSpan_eq, own] at drawn
    split at drawn
    · cases drawn
      exact ⟨extent, extent, rfl, .inl rfl, rfl⟩
    · cases drawn
      exact ⟨extent, _, rfl, .inr ⟨_, Nat.le_add_right _ _, rfl⟩, rfl⟩

/-- A diagnostic is drawn in the buffer of its target, if its target can be shown. -/
theorem place_cases {σ : Type} {diagnostic : Diagnostic} {origin : Origin} {opener : Opener σ}
    {placement : Option Placement} {left : Option σ}
    (placed : place diagnostic origin opener = .ok (placement, left)) :
    (placement = none ∧ left = none) ∨
      ∃ buffer after, opener (diagnostic.place origin).1 = .ok (buffer, after) ∧
        left = some after ∧ diagnostic.placeIn (diagnostic.place origin).1
          (diagnostic.place origin).2 buffer = .ok placement := by
  simp only [place] at placed
  split at placed
  · cases placed
    exact .inl ⟨rfl, rfl⟩
  · cases placed
  · rename_i buffer after opens
    cases drawn : diagnostic.placeIn (diagnostic.place origin).1 (diagnostic.place origin).2 buffer
      with
    | error fault =>
      rw [drawn] at placed
      cases placed
    | ok placement =>
      rw [drawn] at placed
      cases placed
      exact .inr ⟨buffer, after, opens, rfl, drawn⟩

/-- Opening the target of a diagnostic leaves behind what opening it does. -/
theorem exists_of_place {σ : Type} {diagnostic : Diagnostic} {origin : Origin} {opener : Opener σ}
    {placement : Option Placement} {left : σ}
    (placed : place diagnostic origin opener = .ok (placement, some left)) :
    ∃ buffer, opener (diagnostic.place origin).1 = .ok (buffer, left) := by
  rcases place_cases placed with ⟨_, nothing⟩ | ⟨buffer, after, opens, same, _⟩
  · contradiction
  · cases same
    exact ⟨buffer, opens⟩

end EvalDesk
