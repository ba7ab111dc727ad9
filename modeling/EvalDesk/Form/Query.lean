import EvalDesk.Form.Span

/-!
# What stands at a place

The questions an evaluation asks of a text: which outermost form stands at an offset, which
expression ends right before it, and which symbol it touches. An offset may lie outside the text.
-/
namespace EvalDesk.Form

/-- The outermost form at an offset among the forms of the input, of which the text has `size`
characters; `previous` is the form before the input. -/
def topLevelFrom (size : Nat) (offset : Int) (previous : Option Span) (input : List Char) :
    Option Span :=
  if skipBlank input = [] then previous
  else
    let start := size - (skipBlank input).length
    match _ : formRest (skipBlank input) with
    | none => if start ≤ offset then some ⟨start, size⟩ else previous
    | some rest =>
      let span : Span := ⟨start, size - rest.length⟩
      if offset < span.start then previous <|> some span
      else if offset < span.stop then some span
      else topLevelFrom size offset (some span) rest
termination_by input.length
decreasing_by
  have shorter := length_formRestBy_lt ‹formRest _ = some _›
  have blanks := length_skipBlankBy_le commentLength? input
  simp only [skipBlank] at shorter
  omega

/-- The outermost form at an offset. Between two forms it is the one before, and before the first
form it is the first. A form without an end reaches up to the end of the text. -/
def topLevelAt (text : List Char) (offset : Int) : Option Span :=
  topLevelFrom text.length offset none text

/-- A bracket that opens a group, or the start of a literal. -/
def opensOrQuotes (c : Char) : Bool := (closerOf? c).isSome || c = '"' || c = '\\'

/-- The position behind the first opening bracket of a form, unless a literal comes before it. -/
def bodyStart? (text : List Char) (span : Span) : Option Nat :=
  match (span.of text).dropWhile (!opensOrQuotes ·) with
  | [] => none
  | c :: rest => if (closerOf? c).isSome then some (span.stop - rest.length) else none

/-- The last form that ends at or before the offset among forms in order, and the first one that
ends behind it. -/
def around (offset : Int) (spans : List Span) : Option Span × Option Span :=
  let isBefore (span : Span) : Bool := span.stop ≤ offset
  ((spans.takeWhile isBefore).getLast?, (spans.dropWhile isBefore).head?)

/-- The form behind the offset is one of the forms. -/
theorem mem_of_around_next {offset : Int} {spans : List Span} {span : Span}
    (found : (around offset spans).2 = some span) : span ∈ spans :=
  (List.dropWhile_sublist _).subset (List.mem_of_head? found)

/-- The innermost expression that ends at or before an offset between two positions. The form
around the offset is entered when its opening bracket lies before the offset. -/
def lastBeforeIn (text : List Char) (offset : Int) (low high : Nat) : Option Span :=
  let best := (around offset (formsIn text low high)).1
  match _ : (around offset (formsIn text low high)).2 with
  | none => best
  | some span =>
    match bodyStart? text span with
    | none => best
    | some body =>
      if span.start < offset ∧ body ≤ offset then lastBeforeIn text offset body (span.stop - 1)
      else best
termination_by high
decreasing_by
  have bounds := formsIn_bounds (mem_of_around_next ‹(around _ _).2 = some _›)
  omega

/-- The innermost complete expression that ends at or before an offset. -/
def lastBefore (text : List Char) (offset : Int) : Option Span :=
  lastBeforeIn text offset 0 text.length

/-- A character of a symbol. -/
def isSymbolChar (c : Char) : Bool :=
  !(Text.isSpace c || c = ',' || c = '(' || c = ')' || c = '[' || c = ']' || c = '\x7b' ||
    c = '\x7d' || c = '"' || c = '\'' || c = ';' || c = '@' || c = '^' || c = '\x60' || c = '~' ||
    c = '\\')

/-- Whether the character at a position belongs to a symbol. -/
def symbolCharAt (text : List Char) (offset : Nat) : Bool := (text[offset]?).any isSymbolChar

/-- The run of symbol characters around a position, without number signs and colons at its
front. -/
def symbolAround (text : List Char) (offset : Nat) : Option String :=
  let before := ((text.take offset).reverse.takeWhile isSymbolChar).reverse
  let after := (text.drop offset).takeWhile isSymbolChar
  let symbol := (before ++ after).dropWhile fun c => c = '#' || c = ':'
  if symbol.isEmpty then none else some (String.ofList symbol)

/-- The symbol an offset touches: the one it stands in, else the one it stands right behind. -/
def symbolAt (text : List Char) (offset : Nat) : Option String :=
  if symbolCharAt text offset then symbolAround text offset
  else if 0 < offset ∧ symbolCharAt text (offset - 1) then symbolAround text (offset - 1)
  else none

end EvalDesk.Form
