import EvalDesk.Proofs.Path
import Mathlib.Data.List.TakeWhile

/-!
# Lines of a buffer among lines of output

The lines of a buffer end at line feeds only. Split as output, a line of a buffer gives one line for
each break in it, and a carriage return at its very end is one break with the line feed. So the line
of output with a number is taken from the line of the buffer with this number as long as no line in
front of it has a break of its own; behind such a line it is a part of an earlier one.
-/
namespace EvalDesk

namespace Text

/-- Nothing in the text ends a line. -/
def IsUnbroken (text : List Char) : Prop := ∀ c ∈ text, isLineBreak c = false

/-- The part of a text in front of its first break. -/
def front (text : List Char) : List Char := text.takeWhile fun c => !isLineBreak c

/-- The line has no break of its own, but for a carriage return at its very end. -/
def IsWhole (line : List Char) : Prop := line = front line ∨ line = front line ++ ['\r']

/-- The lines of output that a line gives with the line feed behind it. -/
def outputParts (line : List Char) : List (List Char) := outputLinesFrom [] (line ++ ['\n'])

/-- What stands among the lines of output in the place of a line of a buffer. -/
structure StandsFor (lines : List (List Char)) (index : Nat) (row : Option (List Char)) : Prop where
  /-- When all lines in front are whole, it is the line up to its first break; there is none behind
  the last line, nor for an empty last one. -/
  own : (∀ line ∈ lines.take index, IsWhole line) → row = lines[index]?.bind fun line =>
    if line = [] ∧ index + 1 = lines.length then none else some (front line)
  /-- When a line in front is not whole, there is something for every line. -/
  there : ∀ broken ∈ lines.take index, ¬IsWhole broken → index < lines.length → row ≠ none
  /-- When a line in front is not whole, it is a part of an earlier line. -/
  earlier : ∀ broken ∈ lines.take index, ¬IsWhole broken →
    ∀ shown, row = some shown → ∃ line ∈ lines.take index, shown ∈ outputParts line

/-! ## Fronts -/

/-- The front of a text is unbroken. -/
theorem isUnbroken_front (text : List Char) : IsUnbroken (front text) := by
  intro c member
  have holds := List.all_eq_true.mp List.all_takeWhile c member
  simpa using holds

/-- A text is its own front exactly when it is unbroken. -/
theorem front_eq_iff (text : List Char) : front text = text ↔ IsUnbroken text := by
  rw [front, List.takeWhile_eq_self_iff]
  apply forall₂_congr
  intro c _
  rw [Bool.not_eq_true']

/-- The front of a text with a break in it ends there. -/
theorem front_append {head : List Char} (clear : IsUnbroken head) {c : Char}
    (breaks : isLineBreak c = true) (rest : List Char) : front (head ++ c :: rest) = head := by
  have stops : (c :: rest).takeWhile (fun c => !isLineBreak c) = [] :=
    List.takeWhile_cons_of_neg (by simp [breaks])
  rw [front, List.takeWhile_append_of_pos fun other member => by simp [clear other member], stops,
    List.append_nil]

/-- A text is unbroken, or its first break stands behind its front. -/
theorem exists_first_break (text : List Char) :
    IsUnbroken text ∨
      ∃ head c rest, IsUnbroken head ∧ isLineBreak c = true ∧ text = head ++ c :: rest := by
  induction text with
  | nil => exact .inl fun c member => absurd member List.not_mem_nil
  | cons c rest ih =>
    cases breaks : isLineBreak c with
    | true => exact .inr ⟨[], c, rest, fun c member => absurd member List.not_mem_nil, breaks, rfl⟩
    | false =>
      have longer : ∀ head, IsUnbroken head → IsUnbroken (c :: head) :=
        fun head clear => List.forall_mem_cons.mpr ⟨breaks, clear⟩
      rcases ih with clear | ⟨head, mark, behind, clear, marks, rfl⟩
      · exact .inl (longer rest clear)
      · exact .inr ⟨c :: head, mark, behind, longer head clear, marks, rfl⟩

/-- A line feed behind a text does not change its front. -/
theorem front_append_feed (text rest : List Char) : front (text ++ '\n' :: rest) = front text := by
  rcases exists_first_break text with clear | ⟨head, c, behind, clear, breaks, rfl⟩
  · rw [front_append clear rfl, (front_eq_iff text).mpr clear]
  · rw [List.append_assoc, List.cons_append, front_append clear breaks, front_append clear breaks]

/-- What is true of unbroken texts and of those that end in their only break, a carriage return, is
true of all when it is true with a first break in front: a carriage return and a line feed, or any
break that is not the first half of these. -/
@[elab_as_elim]
theorem breaks_induction {motive : List Char → Prop}
    (clear : ∀ head, IsUnbroken head → motive head)
    (half : ∀ head, IsUnbroken head → motive (head ++ ['\r']))
    (pair : ∀ head rest, IsUnbroken head → motive rest → motive (head ++ '\r' :: '\n' :: rest))
    (single : ∀ head c rest, IsUnbroken head → isLineBreak c = true →
      (c = '\r' → ∃ next more, rest = next :: more ∧ next ≠ '\n') → motive rest →
      motive (head ++ c :: rest))
    (text : List Char) : motive text := by
  rcases exists_first_break text with unbroken | ⟨head, c, rest, unbroken, breaks, same⟩
  · exact clear text unbroken
  · have shorter : rest.length < text.length := by
      rw [same, List.length_append, List.length_cons]
      omega
    have behind : motive rest := breaks_induction clear half pair single rest
    rw [same]
    by_cases first : c = '\r'
    · subst first
      cases rest with
      | nil => exact half head unbroken
      | cons next more =>
        by_cases feed : next = '\n'
        · subst feed
          have shorter : more.length < text.length := Nat.lt_of_succ_lt shorter
          exact pair head more unbroken (breaks_induction clear half pair single more)
        · exact single head '\r' _ unbroken breaks (fun _ => ⟨next, more, rfl, feed⟩) behind
    · exact single head c rest unbroken breaks (fun half => absurd half first) behind
termination_by text.length

/-! ## Equations -/

/-- A character that is not the first half of a break ends the line that was begun, or is added to
it. -/
theorem outputLinesFrom_cons (reversed : List Char) {c : Char} {rest : List Char}
    (single : c = '\r' → ∀ more, rest ≠ '\n' :: more) :
    outputLinesFrom reversed (c :: rest) =
      if isLineBreak c then reversed.reverse :: outputLinesFrom [] rest
      else outputLinesFrom (c :: reversed) rest := by
  conv => lhs; unfold outputLinesFrom
  split
  · contradiction
  · rename_i more same
    cases same
    exact absurd rfl (single rfl more)
  · rename_i same
    cases same
    rfl

section Equations

variable {head : List Char} (clear : IsUnbroken head)
include clear

/-- What does not break is added to the line that was begun. -/
theorem outputLinesFrom_append (reversed rest : List Char) :
    outputLinesFrom reversed (head ++ rest) = outputLinesFrom (head.reverse ++ reversed) rest := by
  induction head generalizing reversed with
  | nil => rfl
  | cons c more ih =>
    have inner : isLineBreak c = false := clear c (.head _)
    have single : c = '\r' → ∀ behind, more ++ rest ≠ '\n' :: behind := by
      rintro rfl
      contradiction
    rw [List.cons_append, outputLinesFrom_cons reversed single, inner, if_neg Bool.false_ne_true,
      ih fun other member => clear other (.tail _ member),
      List.reverse_cons, List.append_assoc, List.singleton_append]

/-- An unbroken text is one line, or none if it is empty. -/
theorem outputLinesFrom_clear :
    outputLinesFrom [] head = if head = [] then [] else [head] := by
  have lines := outputLinesFrom_append clear [] []
  rw [List.append_nil, List.append_nil] at lines
  rw [lines]
  unfold outputLinesFrom
  simp only [List.isEmpty_iff, List.reverse_eq_nil_iff, List.reverse_reverse]

/-- A carriage return and a line feed end one line. -/
theorem outputLinesFrom_pair (rest : List Char) :
    outputLinesFrom [] (head ++ '\r' :: '\n' :: rest) = head :: outputLinesFrom [] rest := by
  rw [outputLinesFrom_append clear, List.append_nil]
  exact congrArg (· :: outputLinesFrom [] rest) (List.reverse_reverse head)

/-- A break ends a line, when it is not the first half of one. -/
theorem outputLinesFrom_single {c : Char} (breaks : isLineBreak c = true) {rest : List Char}
    (single : c = '\r' → ∀ more, rest ≠ '\n' :: more) :
    outputLinesFrom [] (head ++ c :: rest) = head :: outputLinesFrom [] rest := by
  rw [outputLinesFrom_append clear, outputLinesFrom_cons _ single, breaks, if_pos rfl,
    List.append_nil, List.reverse_reverse]

/-- A break that is not the first half of one ends a line, whatever is added behind. -/
theorem outputLinesFrom_single_append {c : Char} (breaks : isLineBreak c = true) {rest : List Char}
    (other : c = '\r' → ∃ next more, rest = next :: more ∧ next ≠ '\n') (tail : List Char) :
    outputLinesFrom [] (head ++ c :: (rest ++ tail)) =
      head :: outputLinesFrom [] (rest ++ tail) := by
  refine outputLinesFrom_single clear breaks fun half behind same => ?_
  obtain ⟨next, later, rfl, stays⟩ := other half
  exact stays (List.cons.inj same).1

/-- Every break ends a line. -/
theorem exists_outputLinesFrom_break {c : Char} (breaks : isLineBreak c = true)
    (rest : List Char) : ∃ behind, outputLinesFrom [] (head ++ c :: rest) =
      head :: outputLinesFrom [] behind := by
  by_cases pair : c = '\r' ∧ ∃ more, rest = '\n' :: more
  · obtain ⟨rfl, more, rfl⟩ := pair
    exact ⟨more, outputLinesFrom_pair clear more⟩
  · exact ⟨rest, outputLinesFrom_single clear breaks fun half more same =>
      pair ⟨half, more, same⟩⟩

/-- A line feed ends a line. -/
theorem outputLinesFrom_feed (rest : List Char) :
    outputLinesFrom [] (head ++ '\n' :: rest) = head :: outputLinesFrom [] rest :=
  outputLinesFrom_single clear rfl fun same => absurd same (by decide)

end Equations

/-- The lines of output before a line feed do not depend on what stands behind it. -/
theorem outputLinesFrom_line (line rest : List Char) :
    outputLinesFrom [] (line ++ '\n' :: rest) = outputParts line ++ outputLinesFrom [] rest := by
  rw [outputParts]
  induction line using breaks_induction with
  | clear head clear =>
    rw [outputLinesFrom_feed clear, outputLinesFrom_feed clear]
    rfl
  | half head clear =>
    simp only [List.append_assoc, List.singleton_append, outputLinesFrom_pair clear]
    rfl
  | pair head more clear ih =>
    simp only [List.append_assoc, List.cons_append, outputLinesFrom_pair clear, ih]
  | single head c more clear breaks other ih =>
    have ends := outputLinesFrom_single_append clear breaks other
    simp only [List.append_assoc, List.cons_append, ends, ih]

/-- A line feed at the end of a text takes no line of output away. -/
theorem outputLinesFrom_prefix_outputParts (text : List Char) :
    outputLinesFrom [] text <+: outputParts text := by
  rw [outputParts]
  induction text using breaks_induction with
  | clear head clear =>
    rw [outputLinesFrom_clear clear, outputLinesFrom_feed clear]
    split
    · exact List.nil_prefix
    · exact List.prefix_rfl
  | half head clear =>
    have alone : outputLinesFrom [] (head ++ ['\r']) = [head] :=
      outputLinesFrom_single clear (by decide) fun _ _ same => nomatch same
    have ends : outputLinesFrom [] (head ++ ['\r'] ++ ['\n']) = [head] := by
      rw [List.append_assoc]
      exact outputLinesFrom_pair clear []
    have same := alone.trans ends.symm
    exact same ▸ List.prefix_rfl
  | pair head more clear ih =>
    simp only [List.append_assoc, List.cons_append, outputLinesFrom_pair clear]
    exact (List.prefix_cons_inj head).mpr ih
  | single head c more clear breaks other ih =>
    have ends := outputLinesFrom_single_append clear breaks other
    have alone := ends []
    rw [List.append_nil] at alone
    rw [alone, List.append_assoc, List.cons_append, ends]
    exact (List.prefix_cons_inj head).mpr ih

/-- The first line of output reaches to the first break; an empty text has none. -/
theorem head?_outputLinesFrom (text : List Char) :
    (outputLinesFrom [] text).head? = if text = [] then none else some (front text) := by
  rcases exists_first_break text with clear | ⟨head, c, rest, clear, breaks, rfl⟩
  · rw [outputLinesFrom_clear clear, (front_eq_iff text).mpr clear]
    split <;> rfl
  · obtain ⟨behind, lines⟩ := exists_outputLinesFrom_break clear breaks rest
    have filled : head ++ c :: rest ≠ [] :=
      List.append_ne_nil_of_right_ne_nil head (List.cons_ne_nil c rest)
    rw [lines, front_append clear breaks, if_neg filled]
    rfl

/-! ## Parts of a line -/

/-- A line with its line feed gives a line of output up to its first break, and maybe others. -/
theorem head?_outputParts (line : List Char) : (outputParts line).head? = some (front line) := by
  have filled : line ++ ['\n'] ≠ [] := List.concat_ne_nil _ _
  rw [outputParts, head?_outputLinesFrom, if_neg filled, front_append_feed]

/-- A line with its line feed gives some line of output. -/
theorem length_outputParts_pos (line : List Char) : 0 < (outputParts line).length := by
  have first := head?_outputParts line
  apply List.length_pos_iff.mpr
  intro empty
  rw [empty] at first
  contradiction

/-- A whole line gives one line of output. -/
theorem outputParts_of_isWhole {line : List Char} (whole : IsWhole line) :
    outputParts line = [front line] := by
  have clear := isUnbroken_front line
  rw [outputParts]
  rcases whole with same | same
  · conv => lhs; rw [same]
    exact outputLinesFrom_feed clear []
  · conv => lhs; rw [same, List.append_assoc]
    exact outputLinesFrom_pair clear []

/-- A line of a buffer that is not whole gives more than one line of output. -/
theorem two_le_length_outputParts {line : List Char} (feedless : '\n' ∉ line)
    (broken : ¬IsWhole line) : 2 ≤ (outputParts line).length := by
  rcases exists_first_break line with clear | ⟨head, c, rest, clear, breaks, rfl⟩
  · exact absurd (.inl ((front_eq_iff line).mpr clear).symm) broken
  · have more : ¬(c = '\r' ∧ rest = []) := by
      rintro ⟨rfl, rfl⟩
      exact broken (.inr (by rw [front_append clear breaks]))
    have other : c = '\r' → ∃ next later, rest = next :: later ∧ next ≠ '\n' := by
      intro half
      obtain ⟨next, later, rfl⟩ := List.exists_cons_of_ne_nil fun empty => more ⟨half, empty⟩
      refine ⟨next, later, rfl, fun same => feedless ?_⟩
      simp [same]
    have lines := outputLinesFrom_single_append clear breaks other ['\n']
    rw [outputParts, List.append_assoc, List.cons_append, lines, List.length_cons]
    exact Nat.succ_le_succ (length_outputParts_pos rest)

/-! ## Parts of all lines -/

/-- A text is split at its line feeds first and at other breaks then; only an empty line at its end
may be missing. -/
theorem outputLinesFrom_intercalate (earlier : List (List Char)) {later : List (List Char)}
    (some_line : later ≠ []) :
    outputLinesFrom [] (['\n'].intercalate (earlier ++ later)) =
      earlier.flatMap outputParts ++ outputLinesFrom [] (['\n'].intercalate later) := by
  induction earlier with
  | nil => rfl
  | cons line rest ih =>
    obtain ⟨next, others, more⟩ := List.exists_cons_of_ne_nil
      (List.append_ne_nil_of_right_ne_nil rest some_line)
    rw [List.cons_append, more, List.intercalate_cons_cons, ← more, List.append_assoc,
      List.singleton_append, outputLinesFrom_line, ih, List.flatMap_cons, List.append_assoc]

/-- Lines give at least as many lines of output. -/
theorem length_le_flatMap_outputParts (lines : List (List Char)) :
    lines.length ≤ (lines.flatMap outputParts).length := by
  induction lines with
  | nil => exact Nat.le_refl 0
  | cons line rest ih =>
    have some_line := length_outputParts_pos line
    rw [List.flatMap_cons, List.length_append, List.length_cons]
    omega

/-- Whole lines give as many lines of output. -/
theorem length_flatMap_outputParts {lines : List (List Char)}
    (whole : ∀ line ∈ lines, IsWhole line) :
    (lines.flatMap outputParts).length = lines.length := by
  induction lines with
  | nil => rfl
  | cons line rest ih =>
    obtain ⟨first, others⟩ := List.forall_mem_cons.mp whole
    rw [List.flatMap_cons, List.length_append, outputParts_of_isWhole first, ih others,
      List.length_cons]
    exact Nat.add_comm _ _

/-- Lines of a buffer that are not all whole give more lines of output. -/
theorem length_lt_flatMap_outputParts {lines : List (List Char)}
    (feedless : ∀ line ∈ lines, '\n' ∉ line) {broken : List Char} (member : broken ∈ lines)
    (breaks : ¬IsWhole broken) : lines.length < (lines.flatMap outputParts).length := by
  obtain ⟨before, behind, rfl⟩ := List.append_of_mem member
  have more := two_le_length_outputParts (feedless broken member) breaks
  have front := length_le_flatMap_outputParts before
  have back := length_le_flatMap_outputParts behind
  simp only [List.flatMap_append, List.flatMap_cons, List.length_append, List.length_cons]
  omega

section Rows

variable (text : List Char)

/-- The lines of output are the parts of all lines; an empty one at the end may be missing. -/
theorem outputLinesFrom_prefix_flatMap :
    outputLinesFrom [] text <+: (splitOn '\n' text).flatMap outputParts := by
  have parts := List.dropLast_concat_getLast (splitOn_ne_nil '\n' text)
  have rows := outputLinesFrom_intercalate (splitOn '\n' text).dropLast
    (List.cons_ne_nil ((splitOn '\n' text).getLast (splitOn_ne_nil '\n' text)) [])
  rw [parts, intercalate_splitOn, List.intercalate_singleton] at rows
  rw [rows]
  conv => rhs; rw [← parts]
  rw [List.flatMap_append, List.flatMap_singleton]
  exact (List.prefix_append_right_inj _).mpr (outputLinesFrom_prefix_outputParts _)

/-- The lines of output around a line of the buffer: the parts of the lines in front, and others
that start with the front of the line. -/
theorem outputLinesFrom_around {index : Nat} {line : List Char}
    (own : (splitOn '\n' text)[index]? = some line) :
    ∃ later, outputLinesFrom [] text =
        ((splitOn '\n' text).take index).flatMap outputParts ++ later ∧
      later.head? = if line = [] ∧ index + 1 = (splitOn '\n' text).length then none
        else some (front line) := by
  obtain ⟨inside, rfl⟩ := List.getElem?_eq_some_iff.mp own
  have parts := List.take_append_drop index (splitOn '\n' text)
  rw [List.drop_eq_getElem_cons inside] at parts
  have rows := outputLinesFrom_intercalate ((splitOn '\n' text).take index)
    (List.cons_ne_nil (splitOn '\n' text)[index] ((splitOn '\n' text).drop (index + 1)))
  rw [parts, intercalate_splitOn] at rows
  refine ⟨_, rows, ?_⟩
  cases behind : (splitOn '\n' text).drop (index + 1) with
  | nil =>
    have last : index + 1 = (splitOn '\n' text).length := by
      have none_left := List.drop_eq_nil_iff.mp behind
      omega
    rw [List.intercalate_singleton, head?_outputLinesFrom]
    simp only [last, and_true]
  | cons next others =>
    have more : ¬index + 1 = (splitOn '\n' text).length := by
      intro last
      rw [last, List.drop_length] at behind
      contradiction
    rw [List.intercalate_cons_cons, List.append_assoc, List.singleton_append,
      head?_outputLinesFrom, front_append_feed, if_neg (List.append_ne_nil_of_right_ne_nil _
        (List.cons_ne_nil _ _)), if_neg fun both => more both.2]

/-- What stands among the lines of output of a text in the place of each line of its buffer. -/
theorem standsFor (index : Nat) :
    StandsFor (splitOn '\n' text) index (outputLinesFrom [] text)[index]? := by
  have feedless : ∀ line ∈ (splitOn '\n' text).take index, '\n' ∉ line :=
    fun line member => not_mem_of_mem_splitOn (List.mem_of_mem_take member)
  refine ⟨fun whole => ?_, fun broken member breaks inside => ?_,
    fun broken member breaks shown found => ?_⟩
  · -- As many lines of output stand in front as lines of the buffer do.
    have size := length_flatMap_outputParts whole
    cases own : (splitOn '\n' text)[index]? with
    | none =>
      have outside := List.getElem?_eq_none_iff.mp own
      have few := (outputLinesFrom_prefix_flatMap text).length_le
      rw [List.take_of_length_le outside] at size
      exact List.getElem?_eq_none_iff.mpr (by omega)
    | some line =>
      obtain ⟨later, rows, first⟩ := outputLinesFrom_around text own
      have inside := (List.getElem?_eq_some_iff.mp own).1
      rw [List.length_take_of_le (Nat.le_of_lt inside)] at size
      rw [rows, List.getElem?_append_right (Nat.le_of_eq size), size, Nat.sub_self,
        ← List.head?_eq_getElem?, first]
      rfl
  · -- More lines of output stand in front than lines of the buffer do, so there is one here.
    obtain ⟨later, rows, _⟩ := outputLinesFrom_around text (List.getElem?_eq_getElem inside)
    have size := length_lt_flatMap_outputParts feedless member breaks
    rw [List.length_take_of_le (Nat.le_of_lt inside)] at size
    intro missing
    have outside := List.getElem?_eq_none_iff.mp missing
    rw [rows, List.length_append] at outside
    omega
  · have size := length_lt_flatMap_outputParts feedless member breaks
    obtain ⟨extra, parts⟩ := outputLinesFrom_prefix_flatMap text
    have place : ((splitOn '\n' text).flatMap outputParts)[index]? = some shown := by
      rw [← parts, List.getElem?_append_left (List.getElem?_eq_some_iff.mp found).1]
      exact found
    rw [← List.take_append_drop index (splitOn '\n' text), List.flatMap_append] at place
    apply List.mem_flatMap.mp
    by_cases inside : index ≤ (splitOn '\n' text).length
    · rw [List.length_take_of_le inside] at size
      rw [List.getElem?_append_left size] at place
      exact List.mem_of_getElem? place
    · rw [List.drop_eq_nil_of_le (by omega), List.flatMap_nil, List.append_nil] at place
      exact List.mem_of_getElem? place

/-- Every line of output is the line of the buffer with its number exactly when no line of the
buffer has a break of its own. -/
theorem outputLinesFrom_agree_iff :
    (∀ (index : Nat) (row : List Char), (outputLinesFrom [] text)[index]? = some row →
      (splitOn '\n' text)[index]? = some row) ↔
      ∀ line ∈ splitOn '\n' text, IsUnbroken line := by
  constructor
  · intro agree line member
    obtain ⟨index, inside, rfl⟩ := List.getElem_of_mem member
    -- The first line with a break of its own would be cut off there.
    induction index using Nat.strong_induction_on with
    | _ index ih =>
      have whole : ∀ line ∈ (splitOn '\n' text).take index, IsWhole line := by
        intro line before
        obtain ⟨place, earlier, rfl⟩ := List.getElem_of_mem before
        rw [List.length_take] at earlier
        rw [List.getElem_take]
        exact .inl ((front_eq_iff _).mpr (ih place (by omega) (by omega) (List.getElem_mem _))).symm
      have row := (standsFor text index).own whole
      rw [List.getElem?_eq_getElem inside, Option.bind_some] at row
      by_cases last : (splitOn '\n' text)[index] = [] ∧ index + 1 = (splitOn '\n' text).length
      · rw [last.1]
        exact fun c member => absurd member List.not_mem_nil
      · rw [if_neg last] at row
        have same := agree index _ row
        rw [List.getElem?_eq_getElem inside, Option.some.injEq] at same
        exact (front_eq_iff _).mp same.symm
  · intro clear index row found
    have whole : ∀ line ∈ (splitOn '\n' text).take index, IsWhole line :=
      fun line before => .inl ((front_eq_iff line).mpr
        (clear line (List.mem_of_mem_take before))).symm
    rw [(standsFor text index).own whole] at found
    obtain ⟨line, own, shows⟩ := Option.bind_eq_some_iff.mp found
    split at shows
    · contradiction
    · rw [own, ← shows, (front_eq_iff line).mpr (clear line (List.mem_of_getElem? own))]

end Rows

end Text

/-- The lines of output of a buffer are its lines exactly when none of these has a break of its
own. -/
theorem Buffer.outputLines_agree_iff (buffer : Buffer) :
    (∀ (index : Nat) (row : String), (Text.outputLines buffer.text)[index]? = some row →
      buffer.lines[index]? = some row) ↔ ∀ own ∈ buffer.charLines, Text.IsUnbroken own := by
  rw [charLines, ← Text.outputLinesFrom_agree_iff]
  constructor
  · intro agree index row found
    have shown : (Text.outputLines buffer.text)[index]? = some (String.ofList row) := by
      rw [Text.outputLines, List.getElem?_map]
      exact congrArg (Option.map String.ofList) found
    have own := agree index _ shown
    rw [lines, List.getElem?_map] at own
    obtain ⟨line, there, same⟩ := Option.map_eq_some_iff.mp own
    rw [← String.ofList_injective same]
    exact there
  · intro agree index row found
    rw [Text.outputLines, List.getElem?_map] at found
    obtain ⟨line, there, rfl⟩ := Option.map_eq_some_iff.mp found
    rw [lines, List.getElem?_map]
    exact congrArg (Option.map String.ofList) (agree index line there)

end EvalDesk
