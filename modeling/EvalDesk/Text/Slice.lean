/-!
# Positions in a sequence

Positions may be given from either end: one below zero counts back from the end. A single
position outside the sequence names nothing, while the two ends of a slice are moved to the
nearest place inside, so every slice exists.
-/
namespace EvalDesk.Text

/-- The place a position names in a sequence of the given length. -/
def place? (length : Nat) (position : Int) : Option Nat :=
  if 0 ≤ position then
    if position.toNat < length then some position.toNat else none
  else if -position ≤ length then some (length - (-position).toNat)
  else none

/-- The place nearest to a position, the end of the sequence included. -/
def nearest (length : Nat) (position : Int) : Nat :=
  if 0 ≤ position then min position.toNat length else length - (-position).toNat

/-- The elements from one position up to another, none when they are out of order. -/
def slice {α : Type} (items : List α) (start stop : Int) : List α :=
  let first := nearest items.length start
  (items.drop first).take (nearest items.length stop - first)

/-- The elements from a position on. -/
def sliceFrom {α : Type} (items : List α) (start : Int) : List α :=
  items.drop (nearest items.length start)

/-- A named place lies inside the sequence. -/
theorem place?_lt {length place : Nat} {position : Int}
    (found : place? length position = some place) : place < length := by
  unfold place? at found
  split at found
  · split at found
    · cases found; assumption
    · contradiction
  · split at found
    · cases found; omega
    · contradiction

/-- A named place does not lie in front of its position. -/
theorem le_place? {length place : Nat} {position : Int}
    (found : place? length position = some place) : position ≤ place := by
  unfold place? at found
  split at found
  · split at found
    · cases found; omega
    · contradiction
  · split at found
    · cases found; omega
    · contradiction

/-- The nearest place never lies beyond the end. -/
theorem nearest_le (length : Nat) (position : Int) : nearest length position ≤ length := by
  unfold nearest
  split <;> omega

/-- A slice between two places in order is the text between them. -/
theorem slice_natural {α : Type} (items : List α) {start stop : Nat} (ordered : start ≤ stop)
    (inside : stop ≤ items.length) :
    slice items start stop = (items.drop start).take (stop - start) := by
  have first : nearest items.length start = start := by unfold nearest; split <;> omega
  have last : nearest items.length stop = stop := by unfold nearest; split <;> omega
  simp only [slice, first, last]

end EvalDesk.Text
