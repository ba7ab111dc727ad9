import EvalDesk.Text.Ranges

/-!
# Properties of characters

The five classes of characters the program tells apart in text of any script. Each is decided by
the ranges of the character database; a word character is an alphanumeric one or the low line.
-/
namespace EvalDesk.Text

/-- Whether a code point lies in one of the runs, which stand in increasing order. -/
def inRanges : List (Nat × Nat) → Nat → Bool
  | [], _ => false
  | (first, last) :: rest, code =>
    if code < first then false else code ≤ last || inRanges rest code

/-- White space of any script. -/
def isSpace (c : Char) : Bool := inRanges blankRanges c.toNat

/-- The value of a decimal digit of any script. -/
def decimalValue? (c : Char) : Option Nat :=
  (decimalZeros.find? fun nought => nought ≤ c.toNat && c.toNat < nought + 10).map (c.toNat - ·)

/-- A decimal digit of any script. -/
def isDecimal (c : Char) : Bool := (decimalValue? c).isSome

/-- A letter, a decimal digit or another character with a numeric value. -/
def isAlphanumeric (c : Char) : Bool := inRanges alphanumericRanges c.toNat

/-- A character of a word: alphanumeric, or the low line. -/
def isWord (c : Char) : Bool := c = '_' || isAlphanumeric c

/-- A character with a visible form, the space included. -/
def isVisible (c : Char) : Bool := !inRanges hiddenRanges c.toNat

/-- A code point in a run is at least the start of a run and at most its end. -/
theorem exists_range_of_inRanges {ranges : List (Nat × Nat)} {code : Nat}
    (inside : inRanges ranges code = true) :
    ∃ range ∈ ranges, range.1 ≤ code ∧ code ≤ range.2 := by
  induction ranges with
  | nil => simp [inRanges] at inside
  | cons range rest ih =>
    simp only [inRanges] at inside
    split at inside
    · contradiction
    · rename_i notBelow
      rcases Bool.or_eq_true_iff.mp inside with here | later
      · exact ⟨range, by simp, by omega, by simpa using here⟩
      · obtain ⟨found, member, bounds⟩ := ih later
        exact ⟨found, List.mem_cons_of_mem _ member, bounds⟩

/-- The value of a decimal digit is below ten. -/
theorem decimalValue?_lt {c : Char} {value : Nat} (found : decimalValue? c = some value) :
    value < 10 := by
  unfold decimalValue? at found
  obtain ⟨nought, noughtFound, rfl⟩ := Option.map_eq_some_iff.mp found
  have inside := List.find?_some noughtFound
  simp only [Bool.and_eq_true, decide_eq_true_eq] at inside
  omega

end EvalDesk.Text
