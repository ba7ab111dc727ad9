import EvalDesk.Form.Query
import Mathlib.Data.List.Pairwise
import Mathlib.Data.List.TakeWhile

/-!
# Forms in order

The forms between two positions of a text stand one behind the other, so two of them never overlap.
-/
namespace EvalDesk.Form

/-- The stretch starts at or before the offset. -/
def Span.startsBy (offset : Int) (span : Span) : Bool := span.start ≤ offset

/-- The stretch ends at or before the offset. -/
def Span.endsBy (offset : Int) (span : Span) : Bool := span.stop ≤ offset

/-- The offset lies in the stretch. -/
def Span.holds (offset : Int) (span : Span) : Bool := span.startsBy offset && !span.endsBy offset

/-- One of two stretches ends before the other starts. -/
def Span.Apart (first second : Span) : Prop :=
  first.stop ≤ second.start ∨ second.stop ≤ first.start

instance : Std.Symm Span.Apart := ⟨fun _ _ => Or.symm⟩

/-- The forms of an input stand one behind the other. -/
theorem extentsBy_pairwise (reach : List Char → Option Nat) (left : Nat) (input : List Char) :
    (extentsBy reach left input).Pairwise fun first second => second.1 ≤ first.2 := by
  fun_induction extentsBy reach left input with
  | case1 | case2 | case3 => exact .nil
  | case4 input _ rest _ _ ih =>
    exact .cons (fun later member => (extentsBy_bounds member).2.2) ih

/-- The forms between two positions stand one behind the other. -/
theorem formsIn_pairwise (text : List Char) (low high : Nat) :
    (formsIn text low high).Pairwise fun first second => first.stop ≤ second.start :=
  List.pairwise_map.mpr
    ((extentsBy_pairwise _ _ _).imp fun behind => Nat.sub_le_sub_left behind text.length)

/-- Different forms between the same positions do not overlap. -/
theorem formsIn_apart {text : List Char} {low high : Nat} {first second : Span}
    (one : first ∈ formsIn text low high) (other : second ∈ formsIn text low high)
    (different : first ≠ second) : first.Apart second := by
  have apart : (formsIn text low high).Pairwise Span.Apart :=
    (formsIn_pairwise text low high).imp fun before => .inl before
  exact apart.forall one other different

/-- In a list in which whatever stands before an element with a property has it too, the elements
with the property are those in front. -/
theorem takeWhile_eq_filter {α : Type} {property : α → Bool} {elements : List α}
    (closed : elements.Pairwise fun first second =>
      property second = true → property first = true) :
    elements.takeWhile property = elements.filter property := by
  induction closed with
  | nil => rfl
  | @cons first rest before _ ih =>
    by_cases own : property first = true
    · rw [List.takeWhile_cons_of_pos own, List.filter_cons_of_pos own, ih]
    · have others : rest.filter property = [] :=
        List.filter_eq_nil_iff.mpr fun later member has => own (before later member has)
      rw [List.takeWhile_cons_of_neg own, List.filter_cons_of_neg own, others]

/-- The forms around an offset are the last one that ends at or before it and the first one that
ends behind it. -/
theorem around_formsIn (text : List Char) (offset : Int) (low high : Nat) :
    around offset (formsIn text low high) =
      (((formsIn text low high).filter (Span.endsBy offset)).getLast?,
        (formsIn text low high).find? (!Span.endsBy offset ·)) := by
  have closed : (formsIn text low high).Pairwise fun first second =>
      second.endsBy offset = true → first.endsBy offset = true := by
    refine (formsIn_pairwise text low high).imp_of_mem fun {first second} _ other before => ?_
    have filled := (formsIn_bounds other).2.1
    simp only [Span.endsBy, decide_eq_true_eq]
    omega
  rw [← takeWhile_eq_filter closed, List.find?_eq_head?_dropWhile_not]
  simp only [Bool.not_not]
  rfl

end EvalDesk.Form
