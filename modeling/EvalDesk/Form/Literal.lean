import EvalDesk.Text.Character

/-!
# Strings, characters and tokens

Three readers for the parts of a form that hold no other forms. A string ends at its first quote
that no backslash precedes. A character literal is the backslash with the character behind it, and
when that one is alphanumeric, with all alphanumeric characters that follow. A token reaches up to
a blank, a quote, a semicolon or a bracket.
-/
namespace EvalDesk.Form

/-- What is left behind the string whose opening quote has been read, none when it has no end. -/
def stringRest : List Char → Option (List Char)
  | [] => none
  | '"' :: rest => some rest
  | '\\' :: _ :: rest => stringRest rest
  | '\\' :: [] => none
  | _ :: rest => stringRest rest

/-- What is left behind the character literal whose backslash has been read. -/
def charRest : List Char → List Char
  | [] => []
  | c :: rest => if Text.isAlphanumeric c then rest.dropWhile Text.isAlphanumeric else rest

/-- A character that ends a token. -/
def endsToken (c : Char) : Bool :=
  c = ' ' || c = '\t' || c = '\r' || c = '\n' || c = ',' || c = '"' || c = ';' || c = '(' ||
    c = ')' || c = '[' || c = ']' || c = '\x7b' || c = '\x7d'

/-- What is left behind a token. -/
def tokenRest (input : List Char) : List Char := input.dropWhile (!endsToken ·)

/-- The rest behind a string is shorter than the string with it. -/
theorem length_stringRest_lt {input rest : List Char} (read : stringRest input = some rest) :
    rest.length < input.length := by
  fun_induction stringRest input with
  | case1 => contradiction
  | case2 tail =>
    cases read
    simp
  | case3 c tail ih =>
    have := ih read
    simp only [List.length_cons]
    omega
  | case4 => contradiction
  | case5 c tail _ _ _ ih =>
    have := ih read
    simp only [List.length_cons]
    omega

/-- The rest behind a string is a suffix. -/
theorem stringRest_suffix {input rest : List Char} (read : stringRest input = some rest) :
    rest <:+ input := by
  fun_induction stringRest input with
  | case1 => contradiction
  | case2 tail =>
    cases read
    exact List.suffix_cons _ _
  | case3 c tail ih =>
    exact (ih read).trans ((List.suffix_cons c tail).trans (List.suffix_cons _ _))
  | case4 => contradiction
  | case5 c tail _ _ _ ih => exact (ih read).trans (List.suffix_cons c tail)

/-- Dropping characters from the front never lengthens the input. -/
theorem length_dropWhile_le {α : Type} (removed : α → Bool) (input : List α) :
    (input.dropWhile removed).length ≤ input.length :=
  (List.dropWhile_suffix removed).length_le

/-- The rest behind a character literal is a suffix. -/
theorem charRest_suffix (input : List Char) : charRest input <:+ input := by
  cases input with
  | nil => exact List.suffix_refl _
  | cons c rest =>
    simp only [charRest]
    split
    · exact (List.dropWhile_suffix _).trans (List.suffix_cons c rest)
    · exact List.suffix_cons c rest

/-- A token that starts with a character of its own takes it. -/
theorem length_tokenRest_lt {c : Char} {rest : List Char} (inside : endsToken c = false) :
    (tokenRest (c :: rest)).length < (c :: rest).length := by
  have shorter := length_dropWhile_le (!endsToken ·) rest
  simp only [tokenRest, List.dropWhile_cons, inside, Bool.not_false, ↓reduceIte, List.length_cons]
  omega

end EvalDesk.Form
