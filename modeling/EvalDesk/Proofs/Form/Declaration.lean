import EvalDesk.Form.Namespace
import EvalDesk.Proofs.Form.Context
import EvalDesk.Proofs.Form.Name
import EvalDesk.Proofs.Text.Digits
import Mathlib.Data.List.TakeWhile

/-!
# Declarations with metadata

A declaration of a namespace may have any forms as metadata in front of the name, while the search
for the name knows two kinds of marks only: a caret with a brace, up to the next closing brace
wherever that one stands, and a caret with a keyword, each with white space behind. The search goes
over the items of metadata one after another, and none of them reaches into the next one: an item
either consists of such marks, or the search ends in it, with a name that is found there. So the
list is always taken for the declaration, and its name is found when every item consists of marks.
-/
namespace EvalDesk.Form

/-- An item of metadata as it is written: the form behind the caret, and what stands between that
form and the next item or the name. -/
structure Metadata where
  /-- The form behind the caret. -/
  form : List Char
  /-- The white space behind the form. -/
  gap : List Char

/-- The text of an item. -/
def Metadata.written (item : Metadata) : List Char := '^' :: (item.form ++ item.gap)

/-- An item is well-formed: one whole form, and white space. -/
structure Metadata.IsProper (item : Metadata) : Prop where
  /-- Behind the caret stands one form. -/
  whole : formRest item.form = some []
  /-- Behind the form stands white space. -/
  apart : Text.IsRun Text.isSpace item.gap

/-- A declaration of a namespace as it is written: a list of the word `ns`, items of metadata, a
name, and anything else. -/
structure Declaration where
  /-- The white space in front of the word. -/
  indent : List Char
  /-- The white space behind the word. -/
  gap : List Char
  /-- The items of metadata. -/
  metadata : List Metadata
  /-- The name. -/
  name : List Char
  /-- What stands behind the name, with the bracket that closes the list. -/
  rest : List Char

/-- What stands behind the word and the white space after it. -/
def Declaration.marked (decl : Declaration) : List Char :=
  decl.metadata.flatMap Metadata.written ++ (decl.name ++ decl.rest)

/-- The text of a declaration. -/
def Declaration.written (decl : Declaration) : List Char :=
  '(' :: (decl.indent ++ 'n' :: 's' :: (decl.gap ++ decl.marked))

/-- A declaration is well-formed. -/
structure Declaration.IsProper (decl : Declaration) : Prop where
  /-- In front of the word stands white space or nothing. -/
  indented : ∀ c ∈ decl.indent, Text.isSpace c = true
  /-- Behind the word stands white space. -/
  apart : Text.IsRun Text.isSpace decl.gap
  /-- Each item of metadata is well-formed. -/
  items : ∀ item ∈ decl.metadata, item.IsProper
  /-- The name has characters of names, of which there is one at least. -/
  named : Text.IsRun isNameChar decl.name
  /-- The name does not start like an item of metadata. -/
  unmarked : decl.name.head? ≠ some '^'
  /-- The name ends where what stands behind it starts. -/
  ended : ∀ c ∈ decl.rest.head?, isNameChar c = false

/-- The first form of the text is the declaration. -/
structure Declares (text : List Char) (span : Span) (decl : Declaration) : Prop where
  /-- The form is the first one. -/
  first : (forms text).head? = some span
  /-- The form is written as the declaration is. -/
  spelled : span.of text = decl.written
  /-- The declaration is well-formed. -/
  proper : decl.IsProper

/-- Whether a part of a text consists of marks of metadata, each with the white space behind it. -/
def onlyMarks (part : List Char) : Bool :=
  match _ : metadataRest? part with
  | some rest => rest.isEmpty || onlyMarks rest
  | none => false
termination_by part.length
decreasing_by exact length_metadataRest?_lt ‹metadataRest? _ = some _›

/-- The first item that does not consist of marks. -/
def Declaration.astray? (decl : Declaration) : Option Metadata :=
  decl.metadata.find? (!onlyMarks ·.written)

/-- What the search for the name finds: what it finds in the first item that does not consist of
marks, or the name when there is none. -/
def Declaration.found (decl : Declaration) : List Char :=
  (decl.astray?.map (nameBehind [] ·.written)).getD decl.name

/-! ## Marks with more input behind -/

/-- White space is no character of a name. -/
theorem isNameChar_of_isSpace {c : Char} (space : Text.isSpace c = true) :
    isNameChar c = false := by
  simp [isNameChar, space]

/-- A character of a name at the front is no white space. -/
theorem isSpace_of_named {input : List Char} (named : ∃ c ∈ input.head?, isNameChar c = true) :
    ∀ c ∈ input.head?, Text.isSpace c = false := by
  obtain ⟨c, front, inside⟩ := named
  intro other ahead
  cases (show some c = some other from front.symm.trans ahead)
  by_contra space
  rw [isNameChar_of_isSpace (by simpa using space)] at inside
  contradiction

/-- A run that ends inside the input is the same with more input behind. -/
theorem takeWhile_append_of_mem {kept : Char → Bool} {input : List Char} {c : Char}
    (member : c ∈ input) (out : kept c = false) (behind : List Char) :
    (input ++ behind).takeWhile kept = input.takeWhile kept := by
  rw [List.takeWhile_append, if_neg]
  intro filled
  have all := List.takeWhile_eq_self_iff.mp ((List.takeWhile_prefix kept).eq_of_length filled)
  rw [all c member] at out
  contradiction

/-- A part of a text that ends with white space, and in which every brace behind a caret is followed
by a closing one. -/
structure Contained (part : List Char) : Prop where
  /-- It ends with white space. -/
  ended : ∃ c ∈ part.getLast?, Text.isSpace c = true
  /-- A brace behind a caret is followed by a closing one. -/
  braced : ∀ rest, '^' :: '\x7b' :: rest <:+ part → '\x7d' ∈ rest

/-- An end of such a part is one. -/
theorem Contained.suffix {part tail : List Char} (contained : Contained part)
    (isEnd : tail <:+ part) (some_left : tail ≠ []) : Contained tail := by
  refine ⟨?_, fun rest within => contained.braced rest (within.trans isEnd)⟩
  obtain ⟨front, rfl⟩ := isEnd
  rw [← List.getLast?_append_of_ne_nil front some_left]
  exact contained.ended

/-- In such a part something stands behind a character that is no white space. -/
theorem Contained.goes_on {part rest : List Char} {c : Char} (contained : Contained part)
    (isEnd : c :: rest <:+ part) (ink : Text.isSpace c = false) : rest ≠ [] := by
  rintro rfl
  obtain ⟨last, isLast, space⟩ := (contained.suffix isEnd (List.cons_ne_nil _ _)).ended
  cases (show some c = some last from isLast)
  rw [ink] at space
  contradiction

/-- Such a part has a character that is white space. -/
theorem Contained.exists_space {part : List Char} (contained : Contained part) :
    ∃ c ∈ part, Text.isSpace c = true := by
  obtain ⟨last, isLast, space⟩ := contained.ended
  exact ⟨last, List.mem_of_getLast? isLast, space⟩

/-- In such a part ends each run that has no white space. -/
theorem Contained.takeWhile_append {part : List Char} (contained : Contained part)
    {kept : Char → Bool} (out : ∀ {c}, Text.isSpace c = true → kept c = false)
    (behind : List Char) : (part ++ behind).takeWhile kept = part.takeWhile kept := by
  obtain ⟨c, member, space⟩ := contained.exists_space
  exact takeWhile_append_of_mem member (out space) behind

/-- Such a part goes on behind a caret and a colon. -/
theorem Contained.keyed {part tail : List Char} (contained : Contained part)
    (starts : part = '^' :: ':' :: tail) : Contained tail := by
  subst starts
  exact contained.suffix (List.suffix_append ['^', ':'] tail)
    (contained.goes_on (List.suffix_cons '^' (':' :: tail)) (by decide))

/-- What is left behind white space is an end of the input. -/
theorem spaceRest?_suffix {input rest : List Char} (read : spaceRest? input = some rest) :
    rest <:+ input := by
  unfold spaceRest? at read
  split at read
  · contradiction
  · split at read
    · cases read
      exact (List.dropWhile_suffix _).trans (List.suffix_cons _ _)
    · contradiction

/-- What is left behind a mark of metadata is an end of the input. -/
theorem metadataRest?_suffix {input rest : List Char} (read : metadataRest? input = some rest) :
    rest <:+ input := by
  unfold metadataRest? at read
  split at read
  · rename_i tail
    split at read
    · rename_i brace behind found
      have isEnd : rest <:+ brace :: behind :=
        (spaceRest?_suffix read).trans (List.suffix_cons brace behind)
      rw [← found] at isEnd
      exact (isEnd.trans (List.dropWhile_suffix _)).trans (List.suffix_append ['^', '\x7b'] tail)
    · contradiction
  · rename_i tail
    split at read
    · contradiction
    · exact ((spaceRest?_suffix read).trans (List.dropWhile_suffix _)).trans
        (List.suffix_append ['^', ':'] tail)
  · contradiction

section Behind

variable {part behind : List Char} (stops : ∀ c ∈ behind.head?, Text.isSpace c = false)

include stops

/-- White space at the front of a part ends in the part, or with it. -/
theorem spaceRest?_append (filled : part ≠ []) :
    spaceRest? (part ++ behind) = (spaceRest? part).map (· ++ behind) := by
  cases part with
  | nil => contradiction
  | cons c tail =>
    rw [List.cons_append, spaceRest?, spaceRest?]
    by_cases space : Text.isSpace c = true
    · rw [if_pos space, if_pos space, Option.map_some]
      by_cases through : tail.dropWhile Text.isSpace = []
      · rw [dropWhile_append_of_eq_nil through stops, through, List.nil_append]
      · rw [dropWhile_append_of_ne_nil through]
    · rw [if_neg space, if_neg space, Option.map_none]

/-- A mark at the front of a part ends in the part, or with it. -/
theorem metadataRest?_append (contained : Contained part) :
    metadataRest? (part ++ behind) = (metadataRest? part).map (· ++ behind) := by
  fun_cases metadataRest? part with
  | case1 tail brace after found =>
    have split : brace :: after <:+ '^' :: '\x7b' :: tail := by
      rw [← found]
      exact (List.dropWhile_suffix _).trans (List.suffix_append ['^', '\x7b'] tail)
    have closing : brace = '\x7d' := by
      have stop := List.head?_dropWhile_not (fun c => decide (c ≠ '\x7d')) tail
      rw [found] at stop
      simpa using stop
    have filled : after ≠ [] := contained.goes_on split (closing ▸ by decide)
    rw [List.cons_append, List.cons_append, metadataRest?,
      dropWhile_append_of_ne_nil (by rw [found]; exact List.cons_ne_nil _ _), found]
    exact spaceRest?_append stops filled
  | case2 tail found =>
    have closing := contained.braced tail (List.suffix_refl _)
    have outside := List.dropWhile_eq_nil_iff.mp found _ closing
    simp at outside
  | case3 tail empty =>
    rw [List.cons_append, List.cons_append, metadataRest?,
      (contained.keyed rfl).takeWhile_append (by simp), if_pos empty, Option.map_none]
  | case4 tail filled =>
    have some_left : tail.dropWhile (!Text.isSpace ·) ≠ [] := by
      obtain ⟨c, member, space⟩ := (contained.keyed rfl).exists_space
      intro nothing
      have ink := List.dropWhile_eq_nil_iff.mp nothing c member
      simp [space] at ink
    rw [List.cons_append, List.cons_append, metadataRest?,
      (contained.keyed rfl).takeWhile_append (by simp), if_neg filled,
      dropWhile_append_of_ne_nil some_left]
    exact spaceRest?_append stops some_left
  | case5 part unbraced unkeyed =>
    have within : ∀ sign rest, part ++ behind = '^' :: sign :: rest →
        ∃ more, part = '^' :: sign :: more := by
      intro sign rest same
      obtain ⟨c, member, _⟩ := contained.exists_space
      cases part with
      | nil => contradiction
      | cons first tail =>
        obtain ⟨rfl, others⟩ := List.cons.inj same
        cases tail with
        | nil => exact absurd rfl (contained.goes_on (List.suffix_refl _) (by decide))
        | cons second more =>
          obtain ⟨rfl, _⟩ := List.cons.inj others
          exact ⟨more, rfl⟩
    rw [Option.map_none]
    unfold metadataRest?
    split
    · rename_i rest same
      obtain ⟨more, starts⟩ := within _ rest same
      exact (unbraced more starts).elim
    · rename_i rest same
      obtain ⟨more, starts⟩ := within _ rest same
      exact (unkeyed more starts).elim
    · rfl

end Behind

/-! ## The name behind items -/

/-- The search goes on behind a mark. -/
theorem nameBehind_mark {input rest : List Char} (read : metadataRest? input = some rest)
    (mark : List Char) : nameBehind mark input = nameBehind input rest := by
  rw [nameBehind]
  split
  · rename_i behind found
    cases read.symm.trans found
    rfl
  · rename_i found
    cases read.symm.trans found

/-- Where no mark stands, the name is there, or is the last mark. -/
theorem nameBehind_unmarked {input : List Char} (unread : metadataRest? input = none)
    (mark : List Char) : nameBehind mark input =
      if (input.takeWhile isNameChar).isEmpty then mark.takeWhile isNameChar
      else input.takeWhile isNameChar := by
  rw [nameBehind]
  split
  · rename_i behind found
    cases unread.symm.trans found
  · rfl

/-- The last mark does not matter in front of a character of a name. -/
theorem nameBehind_of_isNameChar {input : List Char}
    (named : ∃ c ∈ input.head?, isNameChar c = true) (mark : List Char) :
    nameBehind mark input = nameBehind [] input := by
  cases read : metadataRest? input with
  | some rest => rw [nameBehind_mark read, nameBehind_mark read]
  | none =>
    obtain ⟨c, front, inside⟩ := named
    have filled : (input.takeWhile isNameChar).isEmpty = false := by
      cases input with
      | nil => contradiction
      | cons first more =>
        cases (show some first = some c from front)
        rw [List.takeWhile_cons_of_pos inside]
        rfl
    rw [nameBehind_unmarked read, nameBehind_unmarked read, filled]
    rfl

/-- Behind a part that consists of marks the search starts anew. -/
theorem nameBehind_onlyMarks {part behind : List Char} (contained : Contained part)
    (named : ∃ c ∈ behind.head?, isNameChar c = true) (marks : onlyMarks part = true)
    (mark : List Char) : nameBehind mark (part ++ behind) = nameBehind [] behind := by
  have stops := isSpace_of_named named
  fun_induction onlyMarks part generalizing mark with
  | case1 part rest read ih =>
    have behindMark := metadataRest?_append stops contained
    rw [read, Option.map_some] at behindMark
    rw [nameBehind_mark behindMark]
    cases rest with
    | nil => exact nameBehind_of_isNameChar named _
    | cons c more =>
      exact ih (contained.suffix (metadataRest?_suffix read) (List.cons_ne_nil _ _))
        (by simpa using marks) _
  | case2 => contradiction

/-- In a part that does not consist of marks the search ends. -/
theorem nameBehind_astray {part behind : List Char} (contained : Contained part)
    (stops : ∀ c ∈ behind.head?, Text.isSpace c = false) (astray : onlyMarks part = false)
    {mark own : List Char} (same : mark.takeWhile isNameChar = own.takeWhile isNameChar) :
    nameBehind mark (part ++ behind) = nameBehind own part := by
  fun_induction onlyMarks part generalizing mark own with
  | case1 part rest read ih =>
    have behindMark := metadataRest?_append stops contained
    rw [read, Option.map_some] at behindMark
    rw [nameBehind_mark behindMark, nameBehind_mark read]
    obtain ⟨filled, later⟩ : rest ≠ [] ∧ onlyMarks rest = false := by simpa using astray
    exact ih (contained.suffix (metadataRest?_suffix read) filled) later
      (contained.takeWhile_append isNameChar_of_isSpace behind)
  | case2 part unread =>
    have unmarked := metadataRest?_append stops contained
    rw [unread, Option.map_none] at unmarked
    rw [nameBehind_unmarked unmarked, nameBehind_unmarked unread,
      contained.takeWhile_append isNameChar_of_isSpace, same]

/-- A mark starts with a caret. -/
theorem metadataRest?_caret {input rest : List Char} (read : metadataRest? input = some rest) :
    input.head? = some '^' := by
  unfold metadataRest? at read
  split at read
  · rfl
  · rfl
  · contradiction

/-- Behind a mark, or in front of a character of a name, some name is found. -/
theorem nameBehind_ne_nil {mark : List Char} (named : ∃ c ∈ mark.head?, isNameChar c = true)
    (input : List Char) : nameBehind mark input ≠ [] := by
  fun_induction nameBehind mark input with
  | case1 mark input rest read ih => exact ih ⟨'^', metadataRest?_caret read, by decide⟩
  | case2 mark input _ name empty =>
    obtain ⟨c, front, inside⟩ := named
    cases mark with
    | nil => contradiction
    | cons first more =>
      cases (show some first = some c from front)
      rw [List.takeWhile_cons_of_pos inside]
      exact List.cons_ne_nil _ _
  | case3 mark input _ name filled => exact List.isEmpty_eq_false_iff.mp (by simpa using filled)

/-! ## Items of metadata -/

/-- An item that consists of one mark: a map without another closing brace in it, or a keyword of
some letters without white space in it. -/
def Metadata.IsFlat (item : Metadata) : Prop :=
  (∃ inside, item.form = '\x7b' :: (inside ++ ['\x7d']) ∧ '\x7d' ∉ inside) ∨
    ∃ letters, item.form = ':' :: letters ∧ Text.IsRun (!Text.isSpace ·) letters

/-- An item that is not taken for a mark: neither a map nor a keyword, or a map of which the first
closing brace has something other than white space behind it. -/
def Metadata.IsForeign (item : Metadata) : Prop :=
  (item.form.head? ≠ some '\x7b' ∧ item.form.head? ≠ some ':') ∨
    ∃ inside c more, item.form = '\x7b' :: (inside ++ '\x7d' :: c :: more) ∧ '\x7d' ∉ inside ∧
      Text.isSpace c = false

/-- White space that is all there is leaves nothing. -/
theorem spaceRest?_run {gap : List Char} (run : Text.IsRun Text.isSpace gap) :
    spaceRest? gap = some [] := by
  cases gap with
  | nil => exact absurd rfl run.filled
  | cons c more =>
    rw [spaceRest?, if_pos (run.inside c (.head _)),
      List.dropWhile_eq_nil_iff.mpr fun other later => run.inside other (.tail _ later)]

/-- Up to its first closing brace, a map is passed. -/
theorem metadataRest?_braced {inside : List Char} (clear : '\x7d' ∉ inside) (behind : List Char) :
    metadataRest? ('^' :: '\x7b' :: (inside ++ '\x7d' :: behind)) = spaceRest? behind := by
  have kept : ∀ c ∈ inside, decide (c ≠ '\x7d') = true := by
    intro c member
    exact decide_eq_true fun same => clear (same ▸ member)
  have brace : ('\x7d' :: behind).dropWhile (fun c => decide (c ≠ '\x7d')) = '\x7d' :: behind :=
    List.dropWhile_cons_of_neg (by decide)
  rw [metadataRest?, List.dropWhile_append_of_pos kept, brace]

/-- A keyword is passed with the white space behind it. -/
theorem metadataRest?_keyed {letters gap : List Char} (run : Text.IsRun (!Text.isSpace ·) letters)
    (apart : Text.IsRun Text.isSpace gap) :
    metadataRest? ('^' :: ':' :: (letters ++ gap)) = some [] := by
  have stops : ∀ c ∈ gap.head?, (!Text.isSpace c) = false := by
    intro c front
    rw [apart.inside c (List.mem_of_mem_head? front)]
    rfl
  have passed : letters.dropWhile (!Text.isSpace ·) = [] := List.dropWhile_eq_nil_iff.mpr run.inside
  rw [metadataRest?, takeWhile_run run.inside stops,
    if_neg (by simpa using run.filled), dropWhile_append_of_eq_nil passed stops,
    spaceRest?_run apart]

namespace Metadata

variable {item : Metadata}

/-- An item that is flat consists of marks. -/
theorem IsFlat.onlyMarks (flat : item.IsFlat) (proper : item.IsProper) :
    onlyMarks item.written = true := by
  have read : metadataRest? item.written = some [] := by
    rcases flat with ⟨inside, form, clear⟩ | ⟨letters, form, run⟩
    · have spelled : item.written = '^' :: '\x7b' :: (inside ++ '\x7d' :: item.gap) := by
        rw [written, form, List.cons_append, List.append_assoc]
        rfl
      rw [spelled, metadataRest?_braced clear, spaceRest?_run proper.apart]
    · have spelled : item.written = '^' :: ':' :: (letters ++ item.gap) := by
        rw [written, form, List.cons_append]
      rw [spelled, metadataRest?_keyed run proper.apart]
  rw [Form.onlyMarks]
  split
  · rename_i found
    cases read.symm.trans found
    rfl
  · rename_i found
    cases read.symm.trans found

/-- The form of an item is not empty. -/
theorem IsProper.form_ne_nil (proper : item.IsProper) : item.form ≠ [] := by
  intro empty
  have whole := proper.whole
  rw [empty] at whole
  exact absurd (length_formRestBy_lt whole) (Nat.lt_irrefl 0)

/-- An item that starts like a mark is contained: the brace of a map closes behind it, and a keyword
has no brace. -/
theorem IsProper.contained (proper : item.IsProper)
    (starts : item.form.head? = some '\x7b' ∨ item.form.head? = some ':') :
    Contained item.written := by
  obtain ⟨whole, filled, spaces⟩ := proper
  refine ⟨?_, fun rest within => ?_⟩
  · refine ⟨item.gap.getLast filled, ?_, spaces _ (List.getLast_mem filled)⟩
    rw [written, ← List.cons_append, List.getLast?_append_of_ne_nil _ filled]
    exact List.getLast?_eq_some_getLast filled
  cases parts : item.form with
  | nil => simp [parts] at starts
  | cons c tail =>
    rw [parts] at whole starts
    rw [written, parts] at within
    rcases starts with brace | colon
    · cases (show some c = some '\x7b' from brace)
      rw [formRest_group (by decide : closerOf? '\x7b' = some '\x7d'),
        groupRest_iff (by decide : closerOf? '\x7b' = some '\x7d')] at whole
      obtain ⟨inside, _, rfl⟩ := whole
      have closing : '\x7d' :: item.gap <:+
          '^' :: ('\x7b' :: (inside ++ ['\x7d']) ++ item.gap) :=
        ⟨'^' :: '\x7b' :: inside, by simp⟩
      rcases List.suffix_or_suffix_of_suffix closing within with longer | shorter
      · have further : '\x7d' :: item.gap <:+ rest := by simpa [List.suffix_cons_iff] using longer
        exact further.subset (.head _)
      · have caret : '^' ∈ '\x7d' :: item.gap := shorter.subset (.head _)
        have space := spaces '^' (by simpa using caret)
        exact absurd space (by decide)
    · cases (show some c = some ':' from colon)
      have token : some (tokenRest (':' :: tail)) = some [] := by
        rw [formRest_cons] at whole
        exact whole
      have brace : '\x7b' ∈ '^' :: (':' :: tail ++ item.gap) := within.subset (.tail _ (.head _))
      rw [List.mem_cons, List.mem_append] at brace
      rcases brace with same | own | space
      · exact absurd same (by decide)
      · have inside := List.dropWhile_eq_nil_iff.mp (Option.some.inj token) _ own
        exact absurd inside (by decide)
      · exact absurd (spaces _ space) (by decide)

/-- An item that starts otherwise is not taken for a mark. -/
theorem unread_of_head (filled : item.form ≠ []) (brace : item.form.head? ≠ some '\x7b')
    (colon : item.form.head? ≠ some ':') (behind : List Char) :
    metadataRest? (item.written ++ behind) = none := by
  cases parts : item.form with
  | nil => exact absurd parts filled
  | cons c tail =>
    rw [parts] at brace colon
    rw [written, parts, List.cons_append, List.cons_append, List.cons_append]
    unfold metadataRest?
    split
    · rename_i same
      cases (List.cons.inj (List.cons.inj same).2).1
      contradiction
    · rename_i same
      cases (List.cons.inj (List.cons.inj same).2).1
      contradiction
    · rfl

/-- An item that is foreign is not taken for a mark. -/
theorem IsForeign.unread (foreign : item.IsForeign) (proper : item.IsProper) :
    metadataRest? item.written = none := by
  rcases foreign with ⟨brace, colon⟩ | ⟨inside, c, more, form, clear, ink⟩
  · have unread := unread_of_head proper.form_ne_nil brace colon []
    rw [List.append_nil] at unread
    exact unread
  · have spelled : item.written =
        '^' :: '\x7b' :: (inside ++ '\x7d' :: c :: (more ++ item.gap)) := by
      simp [written, form]
    rw [spelled, metadataRest?_braced clear, spaceRest?, if_neg (by simp [ink])]

/-- An item in which no mark is found does not consist of marks. -/
theorem onlyMarks_of_unread {part : List Char} (unread : metadataRest? part = none) :
    Form.onlyMarks part = false := by
  rw [Form.onlyMarks]
  split
  · rename_i found
    cases unread.symm.trans found
  · rfl

/-- What the search for a name finds from an item on: the name behind the item when that one
consists of marks, and otherwise what is found in the item alone. -/
theorem nameBehind_item (proper : item.IsProper) {behind : List Char}
    (named : ∃ c ∈ behind.head?, isNameChar c = true) :
    nameBehind [] (item.written ++ behind) =
      if Form.onlyMarks item.written then nameBehind [] behind else nameBehind [] item.written := by
  by_cases starts : item.form.head? = some '\x7b' ∨ item.form.head? = some ':'
  · have contained := proper.contained starts
    split
    · rename_i marks
      exact nameBehind_onlyMarks contained named marks []
    · rename_i astray
      exact nameBehind_astray contained (isSpace_of_named named) (by simpa using astray) rfl
  · rw [not_or] at starts
    have unread := unread_of_head proper.form_ne_nil starts.1 starts.2
    have alone := unread []
    rw [List.append_nil] at alone
    obtain ⟨c, member⟩ := List.exists_mem_of_ne_nil _ proper.apart.filled
    have cut : (item.written ++ behind).takeWhile isNameChar = item.written.takeWhile isNameChar :=
      takeWhile_append_of_mem (List.mem_append_right ('^' :: item.form) member)
        (isNameChar_of_isSpace (proper.apart.inside c member)) behind
    rw [onlyMarks_of_unread alone, if_neg Bool.false_ne_true, nameBehind_unmarked (unread behind),
      nameBehind_unmarked alone, cut]

end Metadata

/-! ## The name of a declaration -/

/-- Items and what stands behind them start with a character of a name if the latter does. -/
theorem named_items (items : List Metadata) {behind : List Char}
    (named : ∃ c ∈ behind.head?, isNameChar c = true) :
    ∃ c ∈ (items.flatMap Metadata.written ++ behind).head?, isNameChar c = true := by
  cases items with
  | nil => exact named
  | cons item others => exact ⟨'^', rfl, by decide⟩

/-- What the search for a name finds from some items on: what is found in the first of them that
does not consist of marks, or the name behind all of them. -/
theorem nameBehind_items {items : List Metadata} (proper : ∀ item ∈ items, item.IsProper)
    {behind : List Char} (named : ∃ c ∈ behind.head?, isNameChar c = true) :
    nameBehind [] (items.flatMap Metadata.written ++ behind) =
      ((items.find? (!onlyMarks ·.written)).map (nameBehind [] ·.written)).getD
        (nameBehind [] behind) := by
  induction items with
  | nil => rfl
  | cons item items ih =>
    rw [List.flatMap_cons, List.append_assoc,
      Metadata.nameBehind_item (proper item (.head _)) (named_items items named)]
    split
    · rename_i marks
      rw [List.find?_cons_of_neg (by simp [marks])]
      exact ih fun other later => proper other (.tail _ later)
    · rename_i astray
      rw [List.find?_cons_of_pos (by simpa using astray)]
      rfl

namespace Declaration

variable {decl : Declaration}

/-- The name of a declaration starts with a character of a name. -/
theorem IsProper.head_name (proper : decl.IsProper) :
    ∃ c ∈ (decl.name ++ decl.rest).head?, isNameChar c = true := by
  obtain ⟨filled, inside⟩ := proper.named
  cases parts : decl.name with
  | nil => exact absurd parts filled
  | cons c more => exact ⟨c, rfl, inside c (by rw [parts]; exact .head _)⟩

/-- The search for the name of a declaration finds the name when all items consist of marks, and
otherwise what is found in the first item that does not. -/
theorem IsProper.nameBehind_marked (proper : decl.IsProper) :
    nameBehind [] decl.marked = decl.found := by
  have unread : metadataRest? (decl.name ++ decl.rest) = none := by
    rw [Option.eq_none_iff_forall_ne_some]
    intro rest read
    have caret := metadataRest?_caret read
    rw [List.head?_append_of_ne_nil _ proper.named.filled] at caret
    exact proper.unmarked caret
  have name : nameBehind [] (decl.name ++ decl.rest) = decl.name := by
    rw [nameBehind_unmarked unread, takeWhile_run proper.named.inside proper.ended,
      if_neg (by simpa using proper.named.filled)]
  rw [marked, nameBehind_items proper.items proper.head_name, name]
  rfl

/-- A declaration declares what the search for its name finds. -/
theorem IsProper.declaredName?_written (proper : decl.IsProper) :
    declaredName? decl.written = some (String.ofList decl.found) := by
  have named : ∃ c ∈ decl.marked.head?, isNameChar c = true :=
    named_items decl.metadata proper.head_name
  have word : (decl.indent ++ 'n' :: 's' :: (decl.gap ++ decl.marked)).dropWhile Text.isSpace =
      'n' :: 's' :: (decl.gap ++ decl.marked) := by
    rw [List.dropWhile_append_of_pos proper.indented]
    exact List.dropWhile_cons_of_neg (by decide)
  have apart : spaceRest? (decl.gap ++ decl.marked) = some decl.marked := by
    rw [spaceRest?_append (isSpace_of_named named) proper.apart.filled, spaceRest?_run proper.apart]
    rfl
  have filled : nameBehind [] decl.marked ≠ [] := by
    rw [← nameBehind_of_isNameChar named decl.marked]
    exact nameBehind_ne_nil named _
  rw [written, declaredName?]
  simp only [word, apart]
  rw [if_neg (by simpa using filled), proper.nameBehind_marked]

/-- When all items are flat, none goes astray. -/
theorem IsProper.astray?_of_flat (proper : decl.IsProper)
    (flat : ∀ item ∈ decl.metadata, item.IsFlat) : decl.astray? = none := by
  apply List.find?_eq_none.mpr
  intro item member
  simp [(flat item member).onlyMarks (proper.items item member)]

/-- A foreign item behind flat ones goes astray, and a name is found that starts with a caret. -/
theorem IsProper.found_of_foreign (proper : decl.IsProper) {before behind : List Metadata}
    {item : Metadata} (split : decl.metadata = before ++ item :: behind)
    (flat : ∀ earlier ∈ before, earlier.IsFlat) (foreign : item.IsForeign) :
    decl.astray? = some item ∧ decl.found.head? = some '^' := by
  have member : ∀ other ∈ before ++ item :: behind, other.IsProper := split ▸ proper.items
  have unread := foreign.unread (member item (by simp))
  have passed : before.find? (!onlyMarks ·.written) = none := by
    apply List.find?_eq_none.mpr
    intro earlier inside
    simp [(flat earlier inside).onlyMarks (member earlier (by simp [inside]))]
  have first : decl.astray? = some item := by
    rw [astray?, split, List.find?_append, passed, Option.none_or,
      List.find?_cons_of_pos (by simp [Metadata.onlyMarks_of_unread unread])]
  have caret : item.written.takeWhile isNameChar =
      '^' :: (item.form ++ item.gap).takeWhile isNameChar := List.takeWhile_cons_of_pos (by decide)
  refine ⟨first, ?_⟩
  rw [found, first, Option.map_some, Option.getD_some, nameBehind_unmarked unread, caret]
  rfl

end Declaration

/-- Whatever the metadata of the first form, that form is taken for the declaration of the
namespace. Its name is found exactly when the first item that does not consist of marks, if there is
one, happens to have that name in it where the search ends. So it is found when all items are flat,
and it is not when a foreign item follows on flat ones: then the caret of a mark is taken for the
start of the name. -/
theorem namespace_named_iff {text : List Char} {span : Span} {decl : Declaration}
    (declares : Declares text span decl) :
    namespaceForm? text = some (span, String.ofList decl.found) ∧
      (decl.found = decl.name ↔
        ∀ item ∈ decl.astray?, nameBehind [] item.written = decl.name) ∧
      ((∀ item ∈ decl.metadata, item.IsFlat) → decl.found = decl.name) ∧
      ∀ before item behind, decl.metadata = before ++ item :: behind →
        (∀ earlier ∈ before, earlier.IsFlat) → item.IsForeign → decl.found ≠ decl.name := by
  obtain ⟨first, spelled, proper⟩ := declares
  have read : namespaceForm? text = some (span, String.ofList decl.found) := by
    cases list : forms text with
    | nil => simp [list] at first
    | cons form others =>
      cases (show some form = some span by rw [← first, list]; rfl)
      rw [namespaceForm?, list, List.findSome?_cons, spelled, proper.declaredName?_written]
      rfl
  refine ⟨read, ?_, fun flat => ?_, fun before item behind split flat foreign same => ?_⟩
  · rw [Declaration.found]
    cases decl.astray? <;> simp
  · rw [Declaration.found, proper.astray?_of_flat flat]
    rfl
  · have caret := (proper.found_of_foreign split flat foreign).2
    rw [same] at caret
    exact proper.unmarked caret

/-- A declaration with a keyword and a flat map. -/
theorem namespace_named_iff_flat :
    namespaceForm? "(ns ^:a ^\x7b:b 1\x7d\n c (d))".toList = some (⟨0, 23⟩, "c") := by
  let decl : Declaration :=
    ⟨[], [' '], [⟨":a".toList, [' ']⟩, ⟨"\x7b:b 1\x7d".toList, ['\n', ' ']⟩], ['c'], " (d))".toList⟩
  have proper : decl.IsProper := by
    refine ⟨by simp [decl], by decide, ?_, by decide, by decide, ?_⟩
    · intro item member
      rcases List.mem_pair.mp member with rfl | rfl
      · exact ⟨by with_unfolding_all decide, by decide⟩
      · exact ⟨by with_unfolding_all decide, by decide⟩
    · rintro c ⟨rfl⟩
      decide
  have declares : Declares "(ns ^:a ^\x7b:b 1\x7d\n c (d))".toList ⟨0, 23⟩ decl :=
    ⟨by with_unfolding_all decide, by decide, proper⟩
  have flat : ∀ item ∈ decl.metadata, item.IsFlat := by
    intro item member
    rcases List.mem_pair.mp member with rfl | rfl
    · exact .inr ⟨['a'], rfl, by decide⟩
    · exact .inl ⟨":b 1".toList, rfl, by decide⟩
  obtain ⟨read, _, named, _⟩ := namespace_named_iff declares
  rw [read, named flat]

/-- Behind a map with another map at its end, the caret of the metadata is taken for the name. -/
theorem nested_map_hides_name :
    ∃ decl : Declaration, Declares "(ns ^\x7b:a \x7b:b 1\x7d\x7d foo)".toList ⟨0, 21⟩ decl ∧
      String.ofList decl.name = "foo" ∧
      namespaceForm? "(ns ^\x7b:a \x7b:b 1\x7d\x7d foo)".toList = some (⟨0, 21⟩, "^") := by
  let item : Metadata := ⟨"\x7b:a \x7b:b 1\x7d\x7d".toList, [' ']⟩
  have proper : Declaration.IsProper ⟨[], [' '], [item], "foo".toList, [')']⟩ := by
    refine ⟨by simp, by decide, ?_, by decide, by decide, ?_⟩
    · intro other member
      rw [List.mem_singleton.mp member]
      exact ⟨by with_unfolding_all decide, by decide⟩
    · rintro c ⟨rfl⟩
      decide
  exact ⟨_, ⟨by with_unfolding_all decide, by decide, proper⟩, rfl, by with_unfolding_all decide⟩

end EvalDesk.Form
