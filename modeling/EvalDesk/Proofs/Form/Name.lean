import EvalDesk.Proofs.Form.Context
import EvalDesk.Proofs.Form.Symbol
import EvalDesk.Proofs.Text.Digits

/-!
# The symbol at a name

A name is a token that the reader of forms takes up to a character that ends tokens. The symbol at
an offset is cut out of the text by its own class of characters instead, in both directions from the
offset. The class has all characters of a name but one: a quote, which is a mark in front of a form
and a part of a token inside one. So the symbol at a name is the name, at any offset from its start
to its end, exactly when the name has no quote.
-/
namespace EvalDesk.Form

/-- The signs in a name. -/
def nameSigns : List Char :=
  ['*', '+', '!', '-', '_', '\'', '?', '<', '>', '=', '.', '/', ':', '#', '&', '%', '$', '|']

/-- A character of a name: alphanumeric, or one of the signs. -/
def isWordOrSign (c : Char) : Bool := Text.isAlphanumeric c || nameSigns.contains c

/-- A token that is a name: it has characters of names only, and starts with none that stands in
front of something else. -/
structure IsName (token : List Char) : Prop where
  /-- It has characters of names only. -/
  named : ∀ c ∈ token, isWordOrSign c = true
  /-- It starts with neither a quote nor a number sign nor a colon. -/
  plain : ∀ c ∈ token.head?, c ≠ '\'' ∧ c ≠ '#' ∧ c ≠ ':'

/-- A character that ends tokens belongs to no symbol. -/
theorem isSymbolChar_of_endsToken {c : Char} (ends : endsToken c = true) :
    isSymbolChar c = false := by
  by_contra symbolic
  rw [Bool.not_eq_false] at symbolic
  have apart := isSyntax_eq_false_iff.mp (isSyntax_of_isSymbolChar symbolic)
  exact absurd (ends.symm.trans apart.1) (by decide)

/-- The characters of names belong to symbols, but for the quote. -/
theorem isSymbolChar_of_isWordOrSign {c : Char} (named : isWordOrSign c = true) (quote : c ≠ '\'') :
    isSymbolChar c = true := by
  rcases Bool.or_eq_true_iff.mp named with word | sign
  · have space : Text.isSpace c = false := by
      by_contra space
      rw [Text.isAlphanumeric_of_isSpace (by simpa using space)] at word
      contradiction
    let excluded := [',', '(', ')', '[', ']', '\x7b', '\x7d', '"', '\'', ';', '@', '^', '\x60', '~',
      '\\']
    have apart : c ∉ excluded := by
      intro listed
      have others : excluded.all (fun other => !Text.isAlphanumeric other) = true := by decide
      have wordless := List.all_eq_true.mp others c listed
      rw [word] at wordless
      contradiction
    simpa [isSymbolChar, space, excluded, and_assoc] using apart
  · have signs : nameSigns.all (fun other => other = '\'' || isSymbolChar other) = true := by decide
    have symbolic := List.all_eq_true.mp signs c (List.contains_iff_mem.mp sign)
    simpa [quote] using symbolic

/-! ## Cutting a symbol out -/

/-- A run of characters of a class goes up to a character outside of it. -/
theorem takeWhile_run {property : Char → Bool} {run rest : List Char}
    (inside : ∀ c ∈ run, property c = true) (outside : ∀ c ∈ rest.head?, property c = false) :
    (run ++ rest).takeWhile property = run := by
  rw [List.takeWhile_append_of_pos inside]
  cases rest with
  | nil => rw [List.takeWhile_nil, List.append_nil]
  | cons c more => rw [List.takeWhile_cons_of_neg (by simp [outside c rfl]), List.append_nil]

section Cutting

variable {before symbol behind : List Char}
  (symbolic : ∀ c ∈ symbol, isSymbolChar c = true)
  (first : ∀ c ∈ symbol.head?, c ≠ '#' ∧ c ≠ ':')
  (left : ∀ c ∈ before.getLast?, isSymbolChar c = false)
  (right : ∀ c ∈ behind.head?, isSymbolChar c = false)

include symbolic first left right

/-- The symbol around a place in a run of characters of symbols is the run, when it starts with
neither a number sign nor a colon. -/
theorem symbolAround_run (place : Nat) (inside : place < symbol.length) :
    symbolAround (before ++ (symbol ++ behind)) (before.length + place) =
      some (String.ofList symbol) := by
  have front : ((before ++ (symbol ++ behind)).take (before.length + place)).reverse.takeWhile
      isSymbolChar = (symbol.take place).reverse := by
    rw [List.take_length_add_append, List.take_append_of_le_length (Nat.le_of_lt inside),
      List.reverse_append]
    apply takeWhile_run
    · exact fun c member => symbolic c (List.mem_of_mem_take (List.mem_reverse.mp member))
    · simpa using left
  have back : ((before ++ (symbol ++ behind)).drop (before.length + place)).takeWhile isSymbolChar =
      symbol.drop place := by
    rw [List.drop_length_add_append, List.drop_append_of_le_length (Nat.le_of_lt inside)]
    exact takeWhile_run (fun c member => symbolic c (List.mem_of_mem_drop member)) right
  have whole : (symbol.take place ++ symbol.drop place).dropWhile (fun c => c = '#' || c = ':') =
      symbol := by
    rw [List.take_append_drop]
    cases symbol with
    | nil => rfl
    | cons c more => exact List.dropWhile_cons_of_neg (by simpa using first c rfl)
  have filled : symbol.isEmpty = false :=
    List.isEmpty_eq_false_iff.mpr (List.ne_nil_of_length_pos (Nat.zero_lt_of_lt inside))
  simp only [symbolAround, front, back, List.reverse_reverse, whole, filled, Bool.false_eq_true,
    ↓reduceIte]

/-- The symbol at an offset from the start of the run to its end is the run. -/
theorem symbolAt_run (filled : symbol ≠ []) (place : Nat) (inside : place ≤ symbol.length) :
    symbolAt (before ++ (symbol ++ behind)) (before.length + place) =
      some (String.ofList symbol) := by
  have within : ∀ place < symbol.length,
      symbolCharAt (before ++ (symbol ++ behind)) (before.length + place) = true := by
    intro place inside
    rw [symbolCharAt, List.getElem?_append_right (Nat.le_add_right _ _), Nat.add_sub_cancel_left,
      List.getElem?_append_left inside, List.getElem?_eq_getElem inside]
    exact symbolic _ (List.getElem_mem inside)
  have around := symbolAround_run symbolic first left right
  rcases Nat.lt_or_eq_of_le inside with inner | atEnd
  · rw [symbolAt, if_pos (within place inner)]
    exact around place inner
  · have size := List.length_pos_of_ne_nil filled
    have ended : symbolCharAt (before ++ (symbol ++ behind)) (before.length + place) = false := by
      rw [symbolCharAt, List.getElem?_append_right (Nat.le_add_right _ _), Nat.add_sub_cancel_left,
        atEnd, List.getElem?_append_right (Nat.le_refl _), Nat.sub_self]
      cases behind with
      | nil => rfl
      | cons c more => exact right c rfl
    have previous : before.length + place - 1 = before.length + (place - 1) := by omega
    rw [symbolAt, ended, if_neg Bool.false_ne_true, previous,
      if_pos ⟨by omega, within (place - 1) (by omega)⟩]
    exact around (place - 1) (by omega)

end Cutting

/-! ## Names of a text -/

variable {text : List Char} {span : Span}

/-- A name is read as one token, so what stands behind it ends tokens. -/
theorem endsToken_behind_name (read : formEnd? text span.start = some span.stop)
    (isName : IsName (span.of text)) :
    ∀ c ∈ (text.drop span.stop).head?, endsToken c = true := by
  obtain ⟨found, order, bound⟩ := formEnd?_iff.mp read
  rw [drop_eq_span_append (Nat.le_of_lt order)] at found
  have token : Span.of ⟨span.start, span.stop⟩ text = span.of text := rfl
  rw [token] at found
  cases parts : span.of text with
  | nil =>
    have size : (span.of text).length = span.stop - span.start := length_span bound
    rw [parts, List.length_nil] at size
    omega
  | cons first more =>
    obtain ⟨quote, sign, _⟩ := isName.plain first (by rw [parts]; rfl)
    have named := isName.named first (by rw [parts]; exact .head _)
    have symbolic := isSymbolChar_of_isWordOrSign named quote
    obtain ⟨inside, backslash, mark⟩ :=
      isSyntax_eq_false_iff.mp (isSyntax_of_isSymbolChar symbolic)
    obtain ⟨unquoted, _, _, unopened, _⟩ := isPlain_iff.mp (isPlain_of_inside inside backslash)
    rw [parts, List.cons_append, formRest_cons, mark, if_neg Bool.false_ne_true, if_neg sign,
      if_neg unquoted, if_neg backslash, unopened] at found
    simp only [inside, Bool.false_eq_true, ↓reduceIte, Option.some.injEq] at found
    intro c ahead
    rw [← found, tokenRest] at ahead
    have stops := List.head?_dropWhile_not (!endsToken ·) (first :: (more ++ text.drop span.stop))
    rw [ahead] at stops
    simpa using stops

/-- The symbol at a name of a text, at any offset from its start to its end, is the name exactly
when no quote is in it. The name has to stand at the front of the text or behind a blank, a bracket
or another character that ends tokens. -/
theorem symbolAt_name_iff {low high offset : Nat} (member : span ∈ formsIn text low high)
    (isName : IsName (span.of text))
    (apart : ∀ c ∈ (text.take span.start).getLast?, endsToken c = true ∨ Text.isSpace c = true)
    (starts : span.start ≤ offset) (stops : offset ≤ span.stop) :
    symbolAt text offset = some (String.ofList (span.of text)) ↔ '\'' ∉ span.of text := by
  have read := formEnd?_of_mem_formsIn member
  obtain ⟨_, order, bound⟩ := formEnd?_iff.mp read
  have size : (span.of text).length = span.stop - span.start := length_span bound
  constructor
  · intro found quoted
    have symbolic := (isSymbol_of_symbolAt found).symbolic '\'' (by simpa using quoted)
    exact absurd symbolic (by decide)
  · intro unquoted
    have symbolic : ∀ c ∈ span.of text, isSymbolChar c = true := fun c inside =>
      isSymbolChar_of_isWordOrSign (isName.named c inside) fun same => unquoted (same ▸ inside)
    have left : ∀ c ∈ (text.take span.start).getLast?, isSymbolChar c = false := by
      intro c last
      rcases apart c last with ends | space
      · exact isSymbolChar_of_endsToken ends
      · simp [isSymbolChar, space]
    have right : ∀ c ∈ (text.drop span.stop).head?, isSymbolChar c = false := fun c ahead =>
      isSymbolChar_of_endsToken (endsToken_behind_name read isName c ahead)
    have filled : span.of text ≠ [] := List.ne_nil_of_length_pos (by omega)
    have cut := symbolAt_run symbolic (fun c front => (isName.plain c front).2) left right filled
      (offset - span.start) (by omega)
    have whole : text.take span.start ++ (span.of text ++ text.drop span.stop) = text := by
      rw [← drop_eq_span_append (Nat.le_of_lt order), List.take_append_drop]
    rw [whole, List.length_take_of_le (by omega), Nat.add_sub_cancel' starts] at cut
    exact cut

/-- A name inside a list, right behind a bracket and right in front of a string. -/
theorem symbolAt_name_iff_behind_bracket :
    symbolAt "(a/b.c#\"d\")".toList 7 = some "a/b.c#" := by
  have member : (⟨1, 7⟩ : Span) ∈ formsIn "(a/b.c#\"d\")".toList 1 10 := by
    with_unfolding_all decide
  have isName : IsName (Span.of ⟨1, 7⟩ "(a/b.c#\"d\")".toList) := by
    refine ⟨List.all_eq_true.mp (by decide), fun c front => ?_⟩
    cases (show some 'a' = some c from front)
    decide
  have apart : ∀ c ∈ ("(a/b.c#\"d\")".toList.take 1).getLast?,
      endsToken c = true ∨ Text.isSpace c = true := by
    intro c last
    cases (show some '(' = some c from last)
    decide
  have unquoted : '\'' ∉ Span.of ⟨1, 7⟩ "(a/b.c#\"d\")".toList := by decide
  exact (symbolAt_name_iff member isName apart (by decide) (by decide)).mpr unquoted

/-- At a name that ends in a quote, the symbol lacks the quote. -/
theorem symbolAt_quoted_name :
    (⟨0, 2⟩ : Span) ∈ forms "x'".toList ∧ symbolAt "x'".toList 0 = some "x" := by
  with_unfolding_all decide

end EvalDesk.Form
