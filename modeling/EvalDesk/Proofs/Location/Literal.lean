import EvalDesk.Location
import Mathlib.Data.List.Basic

/-!
# Paths as string literals

How the server writes a path: a backslash in front of each quote and of each backslash. Reading such
a literal up to its closing quote and replacing what was written gives the path again. The
replacements are made one after the other over the whole text, quotes first. That is in order since
a backslash of the first replacement is always the one that was put in front: what stands behind a
pair of backslashes is never a bare quote.
-/
namespace EvalDesk

/-! ## Replacing -/

namespace Text

variable {part replacement : List Char}

/-- Passing over characters of an occurrence is going on behind them. -/
theorem replaceFrom_drop (left : Nat) (text : List Char) :
    replaceFrom part replacement left text = replace part replacement (text.drop left) := by
  induction text generalizing left with
  | nil => simp [replaceFrom, replace]
  | cons c rest ih =>
    cases left with
    | zero => rfl
    | succ left => exact ih left

/-- An occurrence at the front is replaced, and the search goes on behind it. -/
theorem replace_append (filled : part ≠ []) (rest : List Char) :
    replace part replacement (part ++ rest) = replacement ++ replace part replacement rest := by
  obtain ⟨c, more, rfl⟩ := List.exists_cons_of_ne_nil filled
  have front : (c :: more).isPrefixOf (c :: (more ++ rest)) = true :=
    List.isPrefixOf_iff_prefix.mpr (List.prefix_append (c :: more) rest)
  rw [List.cons_append, replace, replaceFrom, if_pos front, replaceFrom_drop, List.length_cons,
    Nat.add_sub_cancel, List.drop_left]

/-- A character that starts no occurrence is kept. -/
theorem replace_cons {c : Char} {rest : List Char} (apart : ¬ part <+: c :: rest) :
    replace part replacement (c :: rest) = c :: replace part replacement rest := by
  rw [replace, replaceFrom, if_neg (mt List.isPrefixOf_iff_prefix.mp apart)]
  rfl

end Text

/-! ## Literals -/

namespace Location

/-- A character as it is written in a string literal. -/
def escapeChar (c : Char) : List Char := if c = '\\' ∨ c = '"' then ['\\', c] else [c]

/-- A text as the inside of a string literal. -/
def escape (text : List Char) : List Char := text.flatMap escapeChar

/-- The text with each backslash written twice: what the first replacement leaves. -/
def double (text : List Char) : List Char :=
  text.flatMap fun c => if c = '\\' then ['\\', '\\'] else [c]

/-- The inside of a literal does not start with a bare quote. -/
theorem head?_escape_ne (text : List Char) : (escape text).head? ≠ some '"' := by
  cases text with
  | nil => nofun
  | cons c rest =>
    rw [escape, List.flatMap_cons, escapeChar]
    split_ifs with marked
    · nofun
    · intro same
      exact marked (.inr (Option.some.inj same))

/-- The first replacement takes away the backslashes in front of quotes, and no others. -/
theorem replace_escape (text : List Char) :
    Text.replace ['\\', '"'] ['"'] (escape text) = double text := by
  induction text with
  | nil => rfl
  | cons c rest ih =>
    rw [escape, double, List.flatMap_cons, List.flatMap_cons, ← escape, ← double, escapeChar]
    by_cases quote : c = '"'
    · subst quote
      exact (Text.replace_append (List.cons_ne_nil _ _) _).trans (congrArg _ ih)
    by_cases slash : c = '\\'
    · subst slash
      have second : ¬ ['\\', '"'] <+: '\\' :: escape rest := by
        intro front
        obtain ⟨behind, written⟩ := (List.cons_prefix_cons.mp front).2
        exact head?_escape_ne rest (by rw [← written]; rfl)
      have first : ¬ ['\\', '"'] <+: '\\' :: '\\' :: escape rest := by
        intro front
        have same := (List.cons_prefix_cons.mp (List.cons_prefix_cons.mp front).2).1
        exact absurd same (by decide)
      have behind : Text.replace ['\\', '"'] ['"'] ('\\' :: escape rest) = '\\' :: double rest :=
        (Text.replace_cons second).trans (congrArg _ ih)
      exact (Text.replace_cons first).trans (congrArg _ behind)
    · have kept : ¬ ['\\', '"'] <+: c :: escape rest :=
        fun front => slash (List.cons_prefix_cons.mp front).1.symm
      rw [if_neg (by simp [quote, slash]), if_neg slash]
      exact (Text.replace_cons kept).trans (congrArg _ ih)

/-- The second replacement gives the text. -/
theorem replace_double (text : List Char) :
    Text.replace ['\\', '\\'] ['\\'] (double text) = text := by
  induction text with
  | nil => rfl
  | cons c rest ih =>
    rw [double, List.flatMap_cons, ← double]
    by_cases slash : c = '\\'
    · subst slash
      exact (Text.replace_append (List.cons_ne_nil _ _) _).trans (congrArg _ ih)
    · have kept : ¬ ['\\', '\\'] <+: c :: double rest :=
        fun front => slash (List.cons_prefix_cons.mp front).1.symm
      rw [if_neg slash]
      exact (Text.replace_cons kept).trans (congrArg _ ih)

/-- The inside of a literal stands for the text it was written for. -/
theorem unescape_escape (text : List Char) : unescape (escape text) = text := by
  rw [unescape, replace_escape, replace_double]

/-- A literal is read up to its closing quote, whatever stands behind it. -/
theorem literalRest?_escape (text rest : List Char) :
    literalRest? (escape text ++ '"' :: rest) = some (escape text, rest) := by
  induction text with
  | nil => rfl
  | cons c more ih =>
    rw [escape, List.flatMap_cons, ← escape, escapeChar]
    by_cases quote : c = '"'
    · subst quote
      simp [literalRest?, ih]
    by_cases slash : c = '\\'
    · subst slash
      simp [literalRest?, ih]
    · simp [literalRest?, ih, quote, slash]

end Location
end EvalDesk
