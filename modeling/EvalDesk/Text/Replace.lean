/-!
# Replacing parts of a text
-/
namespace EvalDesk.Text

/-- The text with every occurrence of a part replaced, from the front on; occurrences do not
overlap. While characters of an occurrence are left they are passed over. -/
def replaceFrom (part replacement : List Char) (left : Nat) : List Char → List Char
  | [] => []
  | c :: rest =>
    match left with
    | left + 1 => replaceFrom part replacement left rest
    | 0 =>
      if part.isPrefixOf (c :: rest) then
        replacement ++ replaceFrom part replacement (part.length - 1) rest
      else c :: replaceFrom part replacement 0 rest

/-- The text with every occurrence of a part that is not empty replaced. -/
def replace (part replacement text : List Char) : List Char := replaceFrom part replacement 0 text

end EvalDesk.Text
