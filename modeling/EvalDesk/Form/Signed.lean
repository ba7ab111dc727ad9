import EvalDesk.Fault
import EvalDesk.Form.Query
import EvalDesk.Text.Slice

/-!
# Reading from positions of either sign

A position below zero counts back from the end of the text. Reading from it goes through the end
of the text and on into its beginning, so the input is that end followed by the whole text. A
comment that starts in the end is looked for in the text itself: it reaches up to a line feed of
that end, and the reading goes on behind that line feed in the text. A first position before the
start of the text, or a blank search that runs past its end, is a fault.
-/
namespace EvalDesk.Form

/-- The reach of a comment in an input that may hold the end of a text of the given size before
the text itself. -/
def reachFromEnd (size : Nat) (rest : List Char) : Option Nat :=
  if size ≤ rest.length then
    (commentLength? (rest.take (rest.length - size))).map (· + size)
  else commentLength? rest

/-- The input from a position on. -/
def inputFrom (text : List Char) (position : Int) : List Char :=
  if 0 ≤ position then text.drop position.toNat
  else text.drop (text.length - (-position).toNat) ++ text

/-- The position at which so many characters are left. -/
def positionAt (text : List Char) (left : Nat) : Int := (text.length : Int) - left

/-- Where the form that starts at a position ends. -/
def signedFormEnd (text : List Char) (start : Int) : Except Fault (Option Int) :=
  if text.length ≤ start then .ok none
  else if start < -text.length then .error (.ofPosition start .outsideText)
  else
    .ok ((formRestBy (reachFromEnd text.length) (inputFrom text start)).map fun rest =>
      positionAt text rest.length)

/-- Where blanks and comments from a position on end, at the latest at the limit. The text is walked
from position to position. The end of a comment is looked for in the text itself, also beyond the
limit, and a comment without an end leads to the limit. -/
def signedSkipBlank (text : List Char) (start limit : Int) : Except Fault Int :=
  if limit ≤ start then .ok limit
  else
    match _ : Text.place? text.length start with
    | none => .error (.ofPosition start .outsideText)
    | some place =>
      let c := text.get ⟨place, Text.place?_lt ‹_›⟩
      if isBlank c then signedSkipBlank text (start + 1) limit
      else if c = ';' then
        match commentLength? (text.drop (place + 1)) with
        | some length => signedSkipBlank text ((place + 1 + length : Nat) : Int) limit
        | none => .ok limit
      else .ok start
termination_by (limit - start).toNat
decreasing_by
  · omega
  · have beyond := Text.le_place? ‹Text.place? _ _ = some _›
    omega

/-- The forms between two positions, each as its first position and the one behind its last. -/
def signedForms (text : List Char) (low high : Int) : Except Fault (List (Int × Int)) :=
  if high ≤ low then .ok []
  else if low < -text.length ∨ text.length ≤ low then .error (.ofPosition low .outsideText)
  else
    let reach := reachFromEnd text.length
    let input := inputFrom text low
    let spans := (extentsBy reach (text.length - high).toNat input).map fun (start, stop) =>
      (positionAt text start, positionAt text stop)
    let behind := behindFormsBy reach input
    if text.length < high ∧ skipBlankBy reach behind = [] ∧ !endsInComment reach behind then
      .error .outsideText
    else .ok spans

/-- The symbol an offset touches; one that counts from the end touches none. -/
def signedSymbolAt (text : List Char) (offset : Int) : Except Fault (Option String) :=
  if 0 ≤ offset then .ok (symbolAt text offset.toNat)
  else if offset < -text.length then .error (.ofPosition offset .outsideText)
  else .ok none

end EvalDesk.Form
