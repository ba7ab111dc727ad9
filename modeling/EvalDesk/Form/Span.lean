import EvalDesk.Form.Reader

/-!
# Forms of a text

The forms between two positions of a text stand one after another with blanks between them; the
list of them ends at the first place where no form can be read, or where one reaches beyond the
second position. Positions count characters.
-/
namespace EvalDesk.Form

/-- A stretch of text from one position up to another. -/
structure Span where
  /-- Position of its first character. -/
  start : Nat
  /-- Position behind its last character. -/
  stop : Nat
  deriving DecidableEq, Repr

/-- The characters of a stretch of text. -/
def Span.of (span : Span) (text : List Char) : List Char :=
  (text.drop span.start).take (span.stop - span.start)

/-- Where the form that starts at a position ends. -/
def formEnd? (text : List Char) (start : Nat) : Option Nat :=
  (formRest (text.drop start)).map (text.length - ·.length)

/-- The forms of the input, each told by how many characters of the input are left where it starts
and where it ends, as long as more than `left` are left at its start and no fewer at its end. -/
def extentsBy (reach : List Char → Option Nat) (left : Nat) (input : List Char) :
    List (Nat × Nat) :=
  if (skipBlankBy reach input).length ≤ left then []
  else
    match _ : formRestBy reach (skipBlankBy reach input) with
    | none => []
    | some rest =>
      if rest.length < left then []
      else ((skipBlankBy reach input).length, rest.length) :: extentsBy reach left rest
termination_by input.length
decreasing_by
  have shorter := length_formRestBy_lt ‹formRestBy _ _ = some _›
  have blanks := length_skipBlankBy_le reach input
  omega

/-- What is left behind the last form of the input that can be read. -/
def behindFormsBy (reach : List Char → Option Nat) (input : List Char) : List Char :=
  match _ : formRestBy reach (skipBlankBy reach input) with
  | none => input
  | some rest => behindFormsBy reach rest
termination_by input.length
decreasing_by
  have shorter := length_formRestBy_lt ‹formRestBy _ _ = some _›
  have blanks := length_skipBlankBy_le reach input
  omega

/-- The forms of a text between two positions. -/
def formsIn (text : List Char) (low high : Nat) : List Span :=
  (extentsBy commentLength? (text.length - high) (text.drop low)).map fun (start, stop) =>
    ⟨text.length - start, text.length - stop⟩

/-- The forms of a text. -/
def forms (text : List Char) : List Span := formsIn text 0 text.length

/-- A form takes at least one character of the input and leaves no fewer than it may. -/
theorem extentsBy_bounds {reach : List Char → Option Nat} {left : Nat} {input : List Char}
    {extent : Nat × Nat} (member : extent ∈ extentsBy reach left input) :
    left ≤ extent.2 ∧ extent.2 < extent.1 ∧ extent.1 ≤ input.length := by
  fun_induction extentsBy reach left input with
  | case1 | case2 | case3 => contradiction
  | case4 input _ rest found enough ih =>
    have shorter := length_formRestBy_lt found
    have blanks := length_skipBlankBy_le reach input
    rcases List.mem_cons.mp member with rfl | later
    · exact ⟨by omega, shorter, blanks⟩
    · have bounds := ih later
      omega

/-- A form of a text between two positions is not empty and lies between them. -/
theorem formsIn_bounds {text : List Char} {low high : Nat} {span : Span}
    (member : span ∈ formsIn text low high) :
    low ≤ span.start ∧ span.start < span.stop ∧ span.stop ≤ high := by
  simp only [formsIn, List.mem_map] at member
  obtain ⟨extent, found, rfl⟩ := member
  have bounds := extentsBy_bounds found
  simp only [List.length_drop] at bounds
  refine ⟨?_, ?_, ?_⟩ <;> simp only <;> omega

end EvalDesk.Form
