import EvalDesk.Engine.Requests
import EvalDesk.Proofs.Form.Symbol

/-!
# Code around a symbol

The documentation and the definition of a symbol are asked for by code that is fixed but for the
symbol, which comes from the text of the source, whatever stands there. The code is one form, and
the symbol is one token of it: nothing in the text can close a bracket of the code, open a string or
a comment in it, or put a mark in front of another form.
-/
namespace EvalDesk.Engine

open Form

/-- The code for the documentation of a symbol, up to the symbol. -/
def documentationHead : List Char := "(do (require 'clojure.repl) (clojure.repl/doc ".toList

/-- The code for the documentation of a symbol, behind the symbol. -/
def documentationTail : List Char := "))".toList

/-- The code for the definition of a symbol, up to the symbol. -/
def definitionHead : List Char :=
  "(do (require 'clojure.java.io) (when-let [m (meta (resolve '".toList

/-- The code for the definition of a symbol, behind the symbol. -/
def definitionTail : List Char :=
  ("))] (when-let [f (:file m)] [(str (or (clojure.java.io/resource f) f)) (:line m) " ++
    "(:column m)])))").toList

/-- The code is one form around a symbol, which is one token of it and has none of the characters
the readers look for. -/
structure Encloses (head tail : List Char) (symbol : String) (code : List Char) : Prop where
  /-- The symbol stands between two fixed parts. -/
  parts : code = head ++ (symbol.toList ++ tail)
  /-- The code is one form that ends where the code does. -/
  whole : formEnd? code 0 = some code.length
  /-- The symbol is a form that ends where the symbol does. -/
  token : formEnd? code head.length = some (head.length + symbol.length)
  /-- What the readers look for stands in the fixed parts. -/
  fixed : ∀ place c, code[place]? = some c → isSyntax c = true →
    place < head.length ∨ head.length + symbol.length ≤ place

/-- A list around a symbol encloses it, when the scan of the list comes to the symbol and ends with
the part behind it, which starts with a character that ends tokens. -/
theorem encloses_of_scan {head tail outer : List Char} {closer : Char} {symbol : String}
    (isSymbol : IsSymbol symbol.toList) (opens : head.head? = some '(')
    (passes : expectedBehind [')'] head.tail = some (closer :: outer))
    (closes : groupRest closer outer tail = some [])
    (starts : tail.head? = some ')') :
    Encloses head tail symbol (head ++ (symbol.toList ++ tail)) := by
  have width : symbol.toList.length = symbol.length := String.length_toList
  obtain ⟨inside, rfl⟩ := List.head?_eq_some_iff.mp opens
  rw [List.tail_cons] at passes
  refine ⟨rfl, ?_, ?_, ?_⟩
  · have read : groupRest ')' [] (inside ++ (symbol.toList ++ tail)) = some [] := by
      rw [groupRest_expected rfl passes, groupRest_symbol isSymbol, closes]
    rw [formEnd?, List.drop_zero, List.cons_append, formRest_group rfl, read]
    rfl
  · have ends : ∀ c ∈ tail.head?, endsToken c = true := by
      intro c member
      rw [starts] at member
      cases member
      rfl
    rw [← width]
    exact formEnd?_symbol isSymbol ends _
  · intro place c found special
    apply Decidable.byContradiction
    intro within
    have behind : ('(' :: inside).length ≤ place := by omega
    have before : place - ('(' :: inside).length < symbol.toList.length := by omega
    rw [List.getElem?_append_right behind, List.getElem?_append_left before] at found
    have plain := isSyntax_of_isSymbolChar (isSymbol.symbolic c (List.mem_of_getElem? found))
    rw [special] at plain
    contradiction

/-- For every text and place: the code that asks for the documentation of the symbol there and the
code that asks for its definition are one form each, in which the symbol is one token, and every
blank, bracket, quote, mark, backslash and semicolon of the code stands in one of the fixed parts
of it. -/
theorem symbol_enclosed {text : List Char} {offset : Nat} {symbol : String}
    (found : symbolAt text offset = some symbol) :
    Encloses documentationHead documentationTail symbol (documentationCode symbol).toList ∧
      Encloses definitionHead definitionTail symbol (definitionCode symbol).toList := by
  have isSymbol := isSymbol_of_symbolAt found
  constructor
  · have code : (documentationCode symbol).toList =
        documentationHead ++ (symbol.toList ++ documentationTail) := by
      unfold documentationCode documentationHead documentationTail
      rw [String.toList_append, String.toList_append, List.append_assoc]
    have passes : expectedBehind [')'] documentationHead.tail = some [')', ')'] := by
      decide +kernel
    rw [code]
    exact encloses_of_scan isSymbol (by decide +kernel) passes (by decide +kernel)
      (by decide +kernel)
  · have code : (definitionCode symbol).toList =
        definitionHead ++ (symbol.toList ++ definitionTail) := by
      unfold definitionCode definitionHead definitionTail
      simp only [String.toList_append, List.append_assoc]
    have passes : expectedBehind [')'] definitionHead.tail = some [')', ')', ']', ')', ')'] := by
      decide +kernel
    rw [code]
    exact encloses_of_scan isSymbol (by decide +kernel) passes (by decide +kernel)
      (by decide +kernel)

/-- A symbol with a number sign at its end, behind a number sign and a colon and in front of a
quote, is enclosed. -/
theorem symbol_enclosed_signs :
    symbolAt "[#:a/b#' x]".toList 3 = some "a/b#" ∧
      Encloses documentationHead documentationTail "a/b#" (documentationCode "a/b#").toList ∧
      Encloses definitionHead definitionTail "a/b#" (definitionCode "a/b#").toList := by
  have found : symbolAt "[#:a/b#' x]".toList 3 = some "a/b#" := by decide +kernel
  exact ⟨found, symbol_enclosed found⟩

end EvalDesk.Engine
