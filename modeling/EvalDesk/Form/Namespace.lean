import EvalDesk.Form.Span

/-!
# The namespace of a source

A source declares its namespace by a list that starts with `ns`. Between that word and the name may
stand marks of metadata: a caret with a map that holds no other map, or with a keyword. When no
name follows the last of them, that mark itself is taken for the name.
-/
namespace EvalDesk.Form

/-- What is left behind white space, of which there is at least one character. -/
def spaceRest? (input : List Char) : Option (List Char) :=
  match input with
  | [] => none
  | c :: rest => if Text.isSpace c then some (rest.dropWhile Text.isSpace) else none

/-- What is left behind one mark of metadata and the white space after it. -/
def metadataRest? (input : List Char) : Option (List Char) :=
  match input with
  | '^' :: '\x7b' :: rest =>
    match rest.dropWhile (· ≠ '\x7d') with
    | _ :: behind => spaceRest? behind
    | [] => none
  | '^' :: ':' :: rest =>
    if (rest.takeWhile (!Text.isSpace ·)).isEmpty then none
    else spaceRest? (rest.dropWhile (!Text.isSpace ·))
  | _ => none

/-- White space takes at least one character. -/
theorem length_spaceRest?_lt {input rest : List Char} (read : spaceRest? input = some rest) :
    rest.length < input.length := by
  unfold spaceRest? at read
  split at read
  · contradiction
  · split at read
    · cases read
      have shorter := length_dropWhile_le Text.isSpace ‹List Char›
      simp only [List.length_cons]
      omega
    · contradiction

/-- A mark of metadata takes at least one character. -/
theorem length_metadataRest?_lt {input rest : List Char}
    (read : metadataRest? input = some rest) : rest.length < input.length := by
  unfold metadataRest? at read
  split at read
  · rename_i tail
    have shorter := length_dropWhile_le (fun c => decide (c ≠ '\x7d')) tail
    split at read
    · rename_i found
      have behind := length_spaceRest?_lt read
      rw [found] at shorter
      simp only [List.length_cons] at *
      omega
    · contradiction
  · rename_i tail
    split at read
    · contradiction
    · have shorter := length_dropWhile_le (fun c => !Text.isSpace c) tail
      have behind := length_spaceRest?_lt read
      simp only [List.length_cons]
      omega
  · contradiction

/-- A character of the name of a namespace. -/
def isNameChar (c : Char) : Bool :=
  !(Text.isSpace c || c = '(' || c = ')' || c = '[' || c = ']' || c = '\x7b' || c = '\x7d' ||
    c = '"')

/-- The name behind marks of metadata; `mark` is the input from the last mark on. -/
def nameBehind (mark : List Char) (input : List Char) : List Char :=
  match _ : metadataRest? input with
  | some rest => nameBehind input rest
  | none =>
    let name := input.takeWhile isNameChar
    if name.isEmpty then mark.takeWhile isNameChar else name
termination_by input.length
decreasing_by exact length_metadataRest?_lt ‹metadataRest? _ = some _›

/-- The name a form declares, if it is a declaration of a namespace. -/
def declaredName? (form : List Char) : Option String :=
  match form with
  | '(' :: rest =>
    match rest.dropWhile Text.isSpace with
    | 'n' :: 's' :: behind =>
      match spaceRest? behind with
      | some input =>
        let name := nameBehind [] input
        if name.isEmpty then none else some (String.ofList name)
      | none => none
    | _ => none
  | _ => none

/-- The first form of a text that declares a namespace, with the name. -/
def namespaceForm? (text : List Char) : Option (Span × String) :=
  (forms text).findSome? fun span => (declaredName? (span.of text)).map (span, ·)

end EvalDesk.Form
