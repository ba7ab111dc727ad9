import EvalDesk.Proofs.Diagnostic.Extraction
import EvalDesk.Proofs.Placement.Regions

/-!
# Lines counted from a form

A diagnostic without a file counts its lines from the form it belongs to. The number of its line is
read from digits, so it is never negative, but it can be zero. So a diagnostic is drawn above its
form in one case only: its digits are all zeros, and then it is drawn on the line right above the
form, if there is one.
-/
namespace EvalDesk

open Diagnostic (Tells extract)
open Text (isSpace decimalValue? number)

/-- What a shape tells is read with the number that the digits of its line write. -/
theorem Diagnostic.line_of_tells {text : String} {diagnostic : Diagnostic} {severity : Severity}
    {shown : Diagnostic.Place} (tells : Tells (text.toList.dropWhile isSpace) severity shown)
    (read : extract text = .ok (some diagnostic)) : diagnostic.line = number shown.line := by
  rw [extract_eq, shape?_eq_some_iff.mpr tells] at read
  simp only [told] at read
  split at read
  · contradiction
  · split at read
    · contradiction
    · cases read
      rfl

/-- For every line of error output that tells a place without a file, and every buffer in which the
form it belongs to starts on a line: it is drawn above this line exactly when all digits of its line
are zeros and the form does not start on the first line; and it is never drawn more than one line
above it. -/
theorem drawn_above_form_iff {text : String} {diagnostic : Diagnostic} {severity : Severity}
    {shown : Diagnostic.Place} (tells : Tells (text.toList.dropWhile isSpace) severity shown)
    (read : extract text = .ok (some diagnostic)) (unnamed : diagnostic.file = none) {σ : Type}
    {origin : Origin} {opener : Opener σ} {buffer : Buffer} {left : σ}
    (opens : opener origin.path = .ok (buffer, left))
    (starts : buffer.hasLine origin.formLine = true) :
    ∃ placement, place diagnostic origin opener = .ok (placement, some left) ∧
      ((∃ drawn, placement = some drawn ∧ drawn.line < origin.formLine) ↔
        (∀ c ∈ shown.line, decimalValue? c = some 0) ∧ 1 < origin.formLine) ∧
      ∀ drawn, placement = some drawn → origin.formLine ≤ drawn.line + 1 := by
  have target : diagnostic.place origin =
      (origin.path, origin.formLine + diagnostic.line - 1) := by
    rw [Diagnostic.place, unnamed]
  have line := Diagnostic.line_of_tells tells read
  obtain ⟨placement, placed, missing, onLine⟩ :=
    @exists_place _ diagnostic origin opener buffer left (by rw [target]; exact opens)
  rw [target] at missing onLine
  refine ⟨placement, placed, ?_, fun drawn shows => ?_⟩
  · rw [← Text.number_eq_zero_iff tells.proper.line]
    constructor
    · rintro ⟨drawn, shows, above⟩
      obtain ⟨own, extent, found, _⟩ := onLine drawn shows
      obtain ⟨_, _, _, _, number, _⟩ := Buffer.exists_of_lineSpan found
      omega
    · rintro ⟨nought, later⟩
      have inside : buffer.hasLine (origin.formLine + diagnostic.line - 1) = true := by
        rw [Buffer.hasLine_iff] at starts ⊢
        omega
      cases placement with
      | none =>
        rw [missing.mp rfl] at inside
        contradiction
      | some drawn =>
        have own := (onLine drawn rfl).1
        exact ⟨drawn, rfl, by omega⟩
  · have own := (onLine drawn shows).1
    omega

/-- A line of zeros is drawn on the line above a form that starts on the second line. -/
theorem drawn_above_form_iff_zeros :
    ∃ placement, place ⟨0, .compileError, "Syntax error compiling at (REPL:00:7).", none, some 7⟩
        ⟨"a.clj", 2⟩ (fun _ => .ok (⟨"a.clj", "x\n(y)"⟩, ())) = .ok (placement, some ()) ∧
      ∃ drawn, placement = some drawn ∧ drawn.line < 2 := by
  have shape : Diagnostic.shape? ("Syntax error compiling at (REPL:00:7).".toList.dropWhile
      isSpace) = some (.compileError, ⟨"REPL".toList, "00".toList, some "7".toList⟩) := by
    decide +kernel
  have tells := Diagnostic.shape?_eq_some_iff.mp shape
  have read : extract "Syntax error compiling at (REPL:00:7)." = .ok (some
      ⟨0, .compileError, "Syntax error compiling at (REPL:00:7).", none, some 7⟩) := by
    rw [Diagnostic.extract_eq, shape]
    rfl
  obtain ⟨placement, placed, above, _⟩ := @drawn_above_form_iff _ _ _ _ tells read rfl Unit
    ⟨"a.clj", 2⟩ (fun _ => .ok (⟨"a.clj", "x\n(y)"⟩, ())) ⟨"a.clj", "x\n(y)"⟩ () rfl
    (by decide +kernel)
  have zeros : ∀ c ∈ "00".toList, decimalValue? c = some 0 :=
    (Text.number_eq_zero_iff tells.proper.line).mp rfl
  exact ⟨placement, placed, above.mpr ⟨zeros, by decide⟩⟩

/-- A diagnostic on line zero is drawn above the form it belongs to. -/
theorem zero_line_drawn_above :
    extract "Syntax error compiling at (REPL:0:0)." = .ok (some
        ⟨0, .compileError, "Syntax error compiling at (REPL:0:0).", none, some 0⟩) ∧
      place ⟨0, .compileError, "Syntax error compiling at (REPL:0:0).", none, some 0⟩ ⟨"a.clj", 2⟩
          (fun _ => .ok (⟨"a.clj", "x\n(y)"⟩, ())) =
        .ok (some
          ⟨"a.clj", 0, 1, .compileError, "Syntax error compiling at (REPL:0:0).", 1, some 0⟩,
          some ()) := by
  have shape : Diagnostic.shape? ("Syntax error compiling at (REPL:0:0).".toList.dropWhile
      isSpace) = some (.compileError, ⟨"REPL".toList, "0".toList, some "0".toList⟩) := by
    decide +kernel
  refine ⟨?_, by with_unfolding_all rfl⟩
  rw [Diagnostic.extract_eq, shape]
  rfl

end EvalDesk
