import EvalDesk.Form.Query
import EvalDesk.Proofs.Form.Reader

/-!
# Symbols as tokens

The symbol at a place is cut out of the text by a class of characters of its own, of which the
readers of forms know nothing. Still no character of a symbol is one that a reader looks for. So a
symbol is read as one token wherever a character that ends tokens stands behind it, and the scan of
a group passes over it.
-/
namespace EvalDesk.Form

/-- A character that one of the readers looks for: a blank, a quote, a semicolon, a bracket, a
backslash, or a mark that stands before a form. -/
def isSyntax (c : Char) : Bool := endsToken c || c = '\\' || isMark c

/-- A text that is cut out as a symbol: characters of a symbol, of which the first is no number
sign. -/
structure IsSymbol (symbol : List Char) : Prop where
  /-- It is not empty. -/
  nonempty : symbol ≠ []
  /-- It has characters of a symbol only. -/
  symbolic : ∀ c ∈ symbol, isSymbolChar c = true
  /-- It does not start with a number sign. -/
  undispatched : symbol.head? ≠ some '#'

/-- No reader looks for a character of a symbol. -/
theorem isSyntax_of_isSymbolChar {c : Char} (symbolic : isSymbolChar c = true) :
    isSyntax c = false := by
  apply Bool.eq_false_iff.mpr
  intro special
  let syntactic := [' ', '\t', '\r', '\n', ',', '"', ';', '(', ')', '[', ']', '\x7b', '\x7d',
    '\\', '\'', '\x60', '~', '@', '^']
  have listed : c ∈ syntactic := by
    simpa [syntactic, isSyntax, endsToken, isMark, or_assoc] using special
  have apart : syntactic.all (fun other => !isSymbolChar other) = true := by decide +kernel
  have excluded := List.all_eq_true.mp apart c listed
  rw [symbolic] at excluded
  contradiction

/-- A character no reader looks for belongs to a token, and is plain and no mark. -/
theorem isSyntax_eq_false_iff {c : Char} :
    isSyntax c = false ↔ endsToken c = false ∧ c ≠ '\\' ∧ isMark c = false := by
  simp [isSyntax, and_assoc]

/-- The symbol around a place is one. -/
theorem isSymbol_of_symbolAround {text : List Char} {offset : Nat} {symbol : String}
    (found : symbolAround text offset = some symbol) : IsSymbol symbol.toList := by
  unfold symbolAround at found
  dsimp only at found
  generalize before : ((text.take offset).reverse.takeWhile isSymbolChar).reverse = left at found
  generalize behind : (text.drop offset).takeWhile isSymbolChar = right at found
  split at found
  · contradiction
  · rename_i some_left
    cases found
    rw [String.toList_ofList]
    refine ⟨by simpa using some_left, fun c member => ?_, fun front => ?_⟩
    · have run : c ∈ left ++ right := (List.dropWhile_sublist _).subset member
      rcases List.mem_append.mp run with first | second
      · rw [← before] at first
        exact List.all_eq_true.mp List.all_takeWhile c (List.mem_reverse.mp first)
      · rw [← behind] at second
        exact List.all_eq_true.mp List.all_takeWhile c second
    · have stops := List.head?_dropWhile_not (fun c => c = '#' || c = ':') (left ++ right)
      rw [front] at stops
      simp at stops

/-- The symbol at an offset is one. -/
theorem isSymbol_of_symbolAt {text : List Char} {offset : Nat} {symbol : String}
    (found : symbolAt text offset = some symbol) : IsSymbol symbol.toList := by
  unfold symbolAt at found
  split at found
  · exact isSymbol_of_symbolAround found
  · split at found
    · exact isSymbol_of_symbolAround found
    · contradiction

/-- A symbol is read as one token in front of a character that ends tokens. -/
theorem formRest_symbol {symbol rest : List Char} (isSymbol : IsSymbol symbol)
    (ends : ∀ c ∈ rest.head?, endsToken c = true) : formRest (symbol ++ rest) = some rest := by
  obtain ⟨nonempty, symbolic, undispatched⟩ := isSymbol
  have inside : ∀ c ∈ symbol, (!endsToken c) = true := by
    intro c member
    have apart := isSyntax_eq_false_iff.mp (isSyntax_of_isSymbolChar (symbolic c member))
    rw [apart.1]
    rfl
  have token : tokenRest (symbol ++ rest) = rest := by
    rw [tokenRest, List.dropWhile_append_of_pos inside]
    cases rest with
    | nil => rfl
    | cons next more => exact List.dropWhile_cons_of_neg (by simp [ends next rfl])
  cases symbol with
  | nil => contradiction
  | cons c more =>
    obtain ⟨own, backslash, mark⟩ :=
      isSyntax_eq_false_iff.mp (isSyntax_of_isSymbolChar (symbolic c (.head _)))
    obtain ⟨quote, _, _, unopened, _⟩ := isPlain_iff.mp (isPlain_of_inside own backslash)
    have sign : c ≠ '#' := fun same => undispatched (congrArg some same)
    rw [List.cons_append] at token ⊢
    rw [formRest_cons, mark, if_neg Bool.false_ne_true, if_neg sign, if_neg quote,
      if_neg backslash, unopened]
    simp only [own, Bool.false_eq_true, ↓reduceIte, token]

/-- A symbol in a text ends where it is written to its end. -/
theorem formEnd?_symbol {symbol rest : List Char} (isSymbol : IsSymbol symbol)
    (ends : ∀ c ∈ rest.head?, endsToken c = true) (before : List Char) :
    formEnd? (before ++ (symbol ++ rest)) before.length =
      some (before.length + symbol.length) := by
  rw [formEnd?, List.drop_left, formRest_symbol isSymbol ends, Option.map_some]
  simp only [List.length_append, Option.some.injEq]
  omega

/-- The scan of a group passes over a symbol. -/
theorem groupRest_symbol {symbol : List Char} (isSymbol : IsSymbol symbol) (closer : Char)
    (outer rest : List Char) :
    groupRest closer outer (symbol ++ rest) = groupRest closer outer rest := by
  apply groupRest_plains
  intro c member
  obtain ⟨own, backslash, _⟩ :=
    isSyntax_eq_false_iff.mp (isSyntax_of_isSymbolChar (isSymbol.symbolic c member))
  exact isPlain_of_inside own backslash

/-- The closing brackets that are still expected behind plain characters and brackets, when some are
expected in front of them, innermost first; none when there is anything else among the characters,
or when the last group closes. -/
def expectedBehind : List Char → List Char → Option (List Char)
  | expected, [] => some expected
  | expected, c :: rest =>
    match closerOf? c with
    | some inner => expectedBehind (inner :: expected) rest
    | none =>
      if isCloser c then
        match expected with
        | closer :: next :: outer =>
          if c = closer then expectedBehind (next :: outer) rest else none
        | _ => none
      else if isPlain c then expectedBehind expected rest
      else none

/-- The scan of a group goes on behind plain characters and brackets with the brackets that are
expected there. -/
theorem groupRest_expected {expected text : List Char} {closer last : Char} {outer more : List Char}
    (first : expected = closer :: outer)
    (passes : expectedBehind expected text = some (last :: more))
    (rest : List Char) :
    groupRest closer outer (text ++ rest) = groupRest last more rest := by
  fun_induction expectedBehind expected text generalizing closer outer with
  | case1 expected =>
    cases first
    cases passes
    rfl
  | case2 expected c tail inner pair ih =>
    cases first
    rw [List.cons_append, groupRest_open closer outer pair]
    exact ih rfl passes
  | case3 tail c next further unopened closes ih =>
    cases first
    rw [List.cons_append, groupRest_close_inner next further closes]
    exact ih rfl passes
  | case4 | case5 | case7 => contradiction
  | case6 expected c tail unopened unclosed plain ih =>
    cases first
    rw [List.cons_append, groupRest_plain closer outer plain]
    exact ih rfl passes

end EvalDesk.Form
