import EvalDesk.Form.Query
import EvalDesk.Proofs.Form.Reading
import Mathlib.Data.List.Basic

/-!
# Forms apart from what stands around them

A reader of a form looks at the form itself and at no more than one character behind it. So a form
that is cut out of a text is one whole form by itself, and it is read as the same form wherever
something that ends a token stands behind it. One character is an exception: a backslash at the end
of a form takes along what follows it.

Blanks, runs and what a number sign dispatches to are left by their readers as the end of the input,
so each reader has a law about more input behind: as long as it leaves something of the input, it
leaves that and all that was put behind.
-/
namespace EvalDesk.Form

/-- What stands behind a form ends it: it is nothing, or starts with a character that ends tokens
and is no part of the form, which must not take it along by a backslash at its end. -/
structure Delimits (behind form : List Char) : Prop where
  /-- It starts with a character that ends tokens, if there is one. -/
  ends : ∀ c ∈ behind.head?, endsToken c = true
  /-- Behind a backslash there is nothing. -/
  free : form.getLast? = some '\\' → behind = []

/-- Nothing delimits every form. -/
theorem delimits_nil (form : List Char) : Delimits [] form := ⟨by simp, fun _ => rfl⟩

/-- What delimits a form delimits each end of it. -/
theorem Delimits.suffix {behind form tail : List Char} (delimits : Delimits behind form)
    (isEnd : tail <:+ form) (some_left : tail ≠ []) : Delimits behind tail := by
  obtain ⟨front, rfl⟩ := isEnd
  refine ⟨delimits.ends, fun last => delimits.free ?_⟩
  rw [List.getLast?_append_of_ne_nil front some_left, last]

/-- The characters that end tokens. -/
def delimiters : List Char :=
  [' ', '\t', '\r', '\n', ',', '"', ';', '(', ')', '[', ']', '\x7b', '\x7d']

/-- A character ends a token when it is one of them. -/
theorem endsToken_iff {c : Char} : endsToken c = true ↔ c ∈ delimiters := by
  simp [endsToken, delimiters, or_assoc]

/-- A character that ends tokens is not alphanumeric. -/
theorem isAlphanumeric_of_endsToken {c : Char} (ends : endsToken c = true) :
    Text.isAlphanumeric c = false := by
  have apart : delimiters.all (fun c => !Text.isAlphanumeric c) = true := by decide
  simpa using List.all_eq_true.mp apart c (endsToken_iff.mp ends)

/-! ## Readers with more input behind -/

/-- A run that ends inside the input ends there with more input behind as well. -/
theorem dropWhile_append_of_ne_nil {removed : Char → Bool} {input : List Char}
    (some_left : input.dropWhile removed ≠ []) (behind : List Char) :
    (input ++ behind).dropWhile removed = input.dropWhile removed ++ behind := by
  rw [List.dropWhile_append, if_neg (by simpa using some_left)]

/-- A run that fills the input goes on up to a character that is not part of it. -/
theorem dropWhile_append_of_eq_nil {removed : Char → Bool} {input behind : List Char}
    (filled : input.dropWhile removed = []) (stops : ∀ c ∈ behind.head?, removed c = false) :
    (input ++ behind).dropWhile removed = behind := by
  rw [List.dropWhile_append, if_pos (by simp [filled])]
  cases behind with
  | nil => rfl
  | cons c rest => exact List.dropWhile_cons_of_neg (by simp [stops c rfl])

/-- A comment that ends inside the input ends there with more input behind as well. -/
theorem commentLength?_append {rest : List Char} {length : Nat}
    (reach : commentLength? rest = some length) (behind : List Char) :
    commentLength? (rest ++ behind) = some length ∧ length ≤ rest.length := by
  obtain ⟨line, more, clear, rfl, rfl⟩ := (commentLength?_iff rest length).mp reach
  refine ⟨(commentLength?_iff _ _).mpr ⟨line, more ++ behind, clear, by simp, rfl⟩, ?_⟩
  simp only [List.length_append, List.length_cons]
  omega

/-- A comment that does not end inside the input ends behind it, if at all. -/
theorem length_lt_commentLength? {rest behind : List Char} {length : Nat}
    (unended : commentLength? rest = none)
    (reach : commentLength? (rest ++ behind) = some length) : rest.length < length := by
  obtain ⟨line, more, _, split, rfl⟩ := (commentLength?_iff _ _).mp reach
  have clear : '\n' ∉ rest := by
    intro feed
    rw [commentLength?, Option.map_eq_none_iff, List.findIdx?_eq_none_iff] at unended
    simpa using unended _ feed
  rcases List.append_eq_append_iff.mp split with ⟨inner, rfl, _⟩ | ⟨inner, rfl, ahead⟩
  · simp only [List.length_append]
    omega
  · cases inner with
    | nil => simp
    | cons c others =>
      obtain ⟨rfl, _⟩ := List.cons.inj ahead
      simp at clear

/-- Blanks that end inside the input end there with more input behind as well. -/
theorem skipBlank_append {input : List Char} (some_left : skipBlank input ≠ [])
    (behind : List Char) : skipBlank (input ++ behind) = skipBlank input ++ behind := by
  unfold skipBlank at some_left ⊢
  fun_induction skipBlankBy commentLength? input with
  | case1 => contradiction
  | case2 c rest blank ih =>
    rw [List.cons_append, skipBlankBy, if_pos blank]
    exact ih some_left
  | case3 rest length reach _ ih =>
    obtain ⟨same, within⟩ := commentLength?_append reach behind
    rw [List.cons_append, skipBlankBy, if_neg (by decide), if_pos rfl, same]
    simp only
    rw [List.drop_append_of_le_length within]
    exact ih some_left
  | case4 => contradiction
  | case5 c rest blank semicolon =>
    rw [List.cons_append, skipBlankBy, if_neg blank, if_neg semicolon]

/-- Blanks that fill the input leave no more than what stands behind it. -/
theorem length_skipBlank_append_le {input : List Char} (filled : skipBlank input = [])
    (behind : List Char) : (skipBlank (input ++ behind)).length ≤ behind.length := by
  unfold skipBlank at filled ⊢
  fun_induction skipBlankBy commentLength? input with
  | case1 => exact length_skipBlankBy_le commentLength? behind
  | case2 c rest blank ih =>
    rw [List.cons_append, skipBlankBy, if_pos blank]
    exact ih filled
  | case3 rest length reach _ ih =>
    obtain ⟨same, within⟩ := commentLength?_append reach behind
    rw [List.cons_append, skipBlankBy, if_neg (by decide), if_pos rfl, same]
    simp only
    rw [List.drop_append_of_le_length within]
    exact ih filled
  | case4 rest unended =>
    rw [List.cons_append, skipBlankBy, if_neg (by decide), if_pos rfl]
    split
    · rename_i length reach
      have beyond := length_lt_commentLength? unended reach
      refine Nat.le_trans (length_skipBlankBy_le commentLength? _) ?_
      simp only [List.length_drop, List.length_append]
      omega
    · simp
  | case5 => contradiction

/-- Blanks in front of something that is read up to the end of the input end inside it. -/
theorem skipBlank_ne_nil {input rest : List Char}
    (read : formRest (skipBlank (input ++ rest)) = some rest) : skipBlank input ≠ [] := by
  intro filled
  have shorter := length_formRestBy_lt read
  have bound := length_skipBlank_append_le filled rest
  omega

/-- A string that ends inside the input ends there with other input behind as well. -/
theorem stringRest_append {inside rest : List Char} (read : stringRest (inside ++ rest) = some rest)
    (behind : List Char) : stringRest (inside ++ behind) = some behind := by
  obtain ⟨content, body, split⟩ := (stringRest_iff _ _).mp read
  have same : inside = content ++ ['"'] := by
    rw [← List.append_left_inj rest, split]
    simp
  exact (stringRest_iff _ _).mpr ⟨content, body, by simp [same]⟩

/-- A group that ends inside the input ends there with other input behind as well. -/
theorem groupRest_append {opener closer : Char} (pair : closerOf? opener = some closer)
    {inside rest : List Char} (read : groupRest closer [] (inside ++ rest) = some rest)
    (behind : List Char) : groupRest closer [] (inside ++ behind) = some behind := by
  obtain ⟨content, items, split⟩ := (groupRest_iff pair _ _).mp read
  have same : inside = content ++ [closer] := by
    rw [← List.append_left_inj rest, split]
    simp
  exact (groupRest_iff pair _ _).mpr ⟨content, items, by simp [same]⟩

/-- An at sign in front of the input is the same with other input behind. -/
theorem dropAt_append (c : Char) (input behind : List Char) :
    dropAt (c :: (input ++ behind)) = dropAt (c :: input) ++ behind := by
  by_cases sign : c = '@'
  · subst sign
    rfl
  · have kept : ∀ tail : List Char, dropAt (c :: tail) = c :: tail := by
      intro tail
      rw [dropAt]
      intro more same
      exact sign (List.cons.inj same).1
    rw [kept, kept, List.cons_append]

/-- A mark that something stands behind is the same with other input behind that. -/
theorem markRest_append (c : Char) {input : List Char} (some_left : input ≠ [])
    (behind : List Char) : markRest c (input ++ behind) = markRest c input ++ behind := by
  cases input with
  | nil => contradiction
  | cons first more =>
    simp only [markRest, List.cons_append]
    split
    · exact dropAt_append first more behind
    · rfl

/-- Behind a number sign the next character decides what the reader of forms does. -/
theorem formRest_numberSign (c : Char) (rest : List Char) :
    formRest ('#' :: c :: rest) =
      if c = '(' then groupRest ')' [] rest
      else if c = '\x7b' then groupRest '\x7d' [] rest
      else if c = '"' then stringRest rest
      else if c = '\'' || c = '_' then formRest (skipBlank rest)
      else if c = '?' then formRest (dropAt rest)
      else if endsToken c then none
      else formRest (skipBlank (tokenRest (c :: rest))) := by
  rw [formRest_cons, if_neg (by decide), if_pos rfl]
  simp only [dispatch]
  split_ifs <;> rfl

/-- A form behind a number sign takes at least one character more than the sign. -/
theorem length_formRest_numberSign_lt {input rest : List Char}
    (read : formRest ('#' :: input) = some rest) : rest.length < input.length := by
  rw [formRest_cons, if_neg (by decide), if_pos rfl] at read
  split at read
  · rename_i closer inner found
    exact Nat.lt_trans (length_groupRestBy_lt read) (length_dispatch_group found)
  · rename_i inner found
    exact Nat.lt_trans (length_stringRest_lt read) (length_dispatch_string found)
  · rename_i inner found
    have shorter := length_formRestBy_lt read
    have blanks := length_skipBlankBy_le commentLength? inner
    have behind := length_dispatch_form found
    simp only [skipBlank] at shorter
    omega
  · rename_i inner found
    exact Nat.lt_trans (length_formRestBy_lt read) (length_dispatch_conditional found)
  · contradiction

/-- The law of a character literal: it ends in front of what delimits it. -/
theorem charRest_append {inside rest behind : List Char}
    (read : charRest (inside ++ rest) = rest) (delimits : Delimits behind ('\\' :: inside)) :
    charRest (inside ++ behind) = behind := by
  cases inside with
  | nil =>
    rw [delimits.free rfl]
    rfl
  | cons c run =>
    simp only [List.cons_append, charRest] at read ⊢
    by_cases word : Text.isAlphanumeric c = true
    · rw [if_pos word] at read ⊢
      have filled : run.dropWhile Text.isAlphanumeric = [] := by
        by_contra left
        rw [dropWhile_append_of_ne_nil left] at read
        exact left (List.append_left_eq_self.mp read)
      exact dropWhile_append_of_eq_nil filled fun other front =>
        isAlphanumeric_of_endsToken (delimits.ends other front)
    · rw [if_neg word] at read ⊢
      rw [List.append_left_eq_self.mp read, List.nil_append]

/-- The law of a token: it ends in front of what delimits it. -/
theorem tokenRest_append {token rest behind : List Char} (read : tokenRest (token ++ rest) = rest)
    (ends : ∀ c ∈ behind.head?, endsToken c = true) : tokenRest (token ++ behind) = behind := by
  have filled : token.dropWhile (!endsToken ·) = [] := by
    by_contra left
    rw [tokenRest, dropWhile_append_of_ne_nil left] at read
    exact left (List.append_left_eq_self.mp read)
  exact dropWhile_append_of_eq_nil filled fun c front => by simp [ends c front]

/-- A form that is read in front of one input is read in front of another one, when this holds of
its ends that are shorter than it. -/
def GoesOn (form rest behind : List Char) : Prop :=
  ∀ inner : List Char, inner <:+ form → inner.length < form.length →
    formRest (inner ++ rest) = some rest → formRest (inner ++ behind) = some behind

section Ends

variable {form rest behind : List Char} (goesOn : GoesOn form rest behind)

include goesOn

/-- The law of an end of a form with blanks in front. -/
theorem formRest_skipBlank_append {inner : List Char} (isEnd : inner <:+ form)
    (shorter : inner.length < form.length)
    (read : formRest (skipBlank (inner ++ rest)) = some rest) :
    formRest (skipBlank (inner ++ behind)) = some behind := by
  have some_left := skipBlank_ne_nil read
  have blanks := skipBlankBy_suffix commentLength? inner
  rw [skipBlank_append some_left] at read ⊢
  exact goesOn _ (blanks.trans isEnd) (Nat.lt_of_le_of_lt blanks.length_le shorter) read

/-- The law of a form that starts with a mark. -/
theorem formRest_mark_append {c : Char} {more : List Char} (starts : form = c :: more)
    (read : formRest (skipBlank (markRest c (more ++ rest))) = some rest) :
    formRest (skipBlank (markRest c (more ++ behind))) = some behind := by
  have some_left : more ≠ [] := by
    rintro rfl
    have bound := (skipBlankBy_suffix commentLength? _).trans (markRest_suffix c rest)
    exact absurd (length_formRestBy_lt read) (Nat.not_lt.mpr bound.length_le)
  have marked := markRest_suffix c more
  rw [markRest_append c some_left] at read ⊢
  refine formRest_skipBlank_append goesOn (marked.trans ?_) ?_ read
  · exact starts ▸ List.suffix_cons c more
  · exact starts ▸ Nat.lt_succ_of_le marked.length_le

/-- The law of a form that starts with a number sign. -/
theorem formRest_numberSign_append {more : List Char} (starts : form = '#' :: more)
    (read : formRest ('#' :: (more ++ rest)) = some rest) :
    formRest ('#' :: (more ++ behind)) = some behind := by
  cases more with
  | nil => exact absurd (length_formRest_numberSign_lt read) (Nat.lt_irrefl _)
  | cons c input =>
    have isEnd : c :: input <:+ form := starts ▸ List.suffix_cons '#' _
    have shorter : (c :: input).length < form.length := starts ▸ Nat.lt_succ_self _
    have isTail : input <:+ form := (List.suffix_cons c input).trans isEnd
    have tailShorter : input.length < form.length := Nat.lt_trans (Nat.lt_succ_self _) shorter
    rw [List.cons_append, formRest_numberSign] at read ⊢
    split_ifs at read ⊢
    · exact groupRest_append (show closerOf? '(' = some ')' from rfl) read behind
    · exact groupRest_append (show closerOf? '\x7b' = some '\x7d' from rfl) read behind
    · exact stringRest_append read behind
    · exact formRest_skipBlank_append goesOn isTail tailShorter read
    · cases input with
      | nil =>
        have bound := (dropAt_suffix rest).length_le
        exact absurd (length_formRestBy_lt read) (Nat.not_lt.mpr bound)
      | cons first others =>
        have kept := dropAt_suffix (first :: others)
        rw [List.cons_append, dropAt_append] at read ⊢
        exact goesOn _ (kept.trans isTail) (Nat.lt_of_le_of_lt kept.length_le tailShorter) read
    · have kept : tokenRest (c :: input) <:+ c :: input := List.dropWhile_suffix _
      have some_left : tokenRest (c :: input) ≠ [] := by
        intro filled
        have gone : tokenRest (c :: (input ++ rest)) = tokenRest rest := by
          rw [← List.cons_append, tokenRest, List.dropWhile_append,
            if_pos (by simpa [tokenRest] using filled)]
          rfl
        rw [gone] at read
        have behindToken : tokenRest rest <:+ rest := List.dropWhile_suffix _
        have bound := (skipBlankBy_suffix commentLength? (tokenRest rest)).trans behindToken
        exact absurd (length_formRestBy_lt read) (Nat.not_lt.mpr bound.length_le)
      rw [← List.cons_append, tokenRest, dropWhile_append_of_ne_nil some_left] at read ⊢
      exact formRest_skipBlank_append goesOn (kept.trans isEnd)
        (Nat.lt_of_le_of_lt kept.length_le shorter) read

end Ends

/-- A form that is read in front of one input is read in front of any other that delimits it. -/
theorem formRest_append {form rest behind : List Char}
    (read : formRest (form ++ rest) = some rest) (delimits : Delimits behind form) :
    formRest (form ++ behind) = some behind := by
  have goesOn : GoesOn form rest behind := by
    intro inner isEnd shorter again
    have some_left : inner ≠ [] := by
      rintro rfl
      exact absurd (length_formRestBy_lt again) (Nat.lt_irrefl _)
    exact formRest_append again (delimits.suffix isEnd some_left)
  cases form with
  | nil => exact absurd (length_formRestBy_lt read) (Nat.lt_irrefl _)
  | cons c more =>
    by_cases number : c = '#'
    · subst number
      exact formRest_numberSign_append goesOn rfl read
    rw [List.cons_append, formRest_cons, if_neg number] at read ⊢
    by_cases mark : isMark c = true
    · rw [if_pos mark] at read ⊢
      exact formRest_mark_append goesOn rfl read
    rw [if_neg mark] at read ⊢
    by_cases quote : c = '"'
    · rw [if_pos quote] at read ⊢
      exact stringRest_append read behind
    rw [if_neg quote] at read ⊢
    by_cases backslash : c = '\\'
    · subst backslash
      rw [if_pos rfl] at read ⊢
      exact congrArg some (charRest_append (Option.some.inj read) delimits)
    rw [if_neg backslash] at read ⊢
    cases pair : closerOf? c with
    | some closer =>
      simp only [pair] at read ⊢
      exact groupRest_append pair read behind
    | none =>
      simp only [pair] at read ⊢
      split at read
      · contradiction
      · rename_i inside
        rw [if_neg inside]
        rw [← List.cons_append] at read ⊢
        exact congrArg some (tokenRest_append (Option.some.inj read) delimits.ends)
termination_by form.length

/-! ## Forms cut out of a text -/

/-- A form that is cut out of a text stands in front of what is left behind it. -/
theorem drop_eq_span_append {text : List Char} {start stop : Nat} (order : start ≤ stop) :
    text.drop start = Span.of ⟨start, stop⟩ text ++ text.drop stop := by
  have parts := (List.take_append_drop (stop - start) (text.drop start)).symm
  rwa [List.drop_drop, Nat.add_sub_cancel' order] at parts

/-- The length of a stretch inside a text. -/
theorem length_span {text : List Char} {start stop : Nat} (bound : stop ≤ text.length) :
    (Span.of ⟨start, stop⟩ text).length = stop - start := by
  simp only [Span.of, List.length_take, List.length_drop]
  omega

/-- The last character of a stretch inside a text. -/
theorem getLast?_span {text : List Char} {start stop : Nat} (order : start < stop)
    (bound : stop ≤ text.length) :
    (Span.of ⟨start, stop⟩ text).getLast? = text[stop - 1]? := by
  have last : start + (stop - start - 1) = stop - 1 := by omega
  rw [List.getLast?_eq_getElem?, length_span bound]
  simp only [Span.of]
  rw [List.getElem?_take_of_lt (by omega), List.getElem?_drop, last]

/-- A form that is written behind any text, and in front of what delimits it, is read to its end. -/
theorem formEnd?_of_formRest {form behind : List Char}
    (read : formRest (form ++ behind) = some behind) (before : List Char) :
    formEnd? (before ++ (form ++ behind)) before.length = some (before.length + form.length) := by
  rw [formEnd?, List.drop_left, read, Option.map_some]
  simp only [List.length_append, Option.some.injEq]
  omega

section Cut

variable {text : List Char} {start stop : Nat}

/-- A form that is cut out of a text is one whole form by itself. -/
theorem formEnd?_span (read : formEnd? text start = some stop) :
    formEnd? (Span.of ⟨start, stop⟩ text) 0 = some (stop - start) := by
  obtain ⟨found, order, bound⟩ := formEnd?_iff.mp read
  rw [drop_eq_span_append (Nat.le_of_lt order)] at found
  have alone := formEnd?_of_formRest (formRest_append found (delimits_nil _)) []
  rwa [List.nil_append, List.append_nil, List.length_nil, Nat.zero_add, length_span bound] at alone

/-- A form that is cut out of a text ends between any text in front and what delimits it where it
ends by itself. -/
theorem formEnd?_span_between (read : formEnd? text start = some stop) {behind : List Char}
    (delimits : Delimits behind (Span.of ⟨start, stop⟩ text)) (before : List Char) :
    formEnd? (before ++ (Span.of ⟨start, stop⟩ text ++ behind)) before.length =
      some (before.length + (stop - start)) := by
  obtain ⟨found, order, bound⟩ := formEnd?_iff.mp read
  rw [drop_eq_span_append (Nat.le_of_lt order)] at found
  rw [formEnd?_of_formRest (formRest_append found delimits), length_span bound]

/-- A form of a text is the same form wherever it stands: cut out of the text it is one whole form,
and between any text in front and anything behind that ends tokens it is read to its own end. Only a
form that ends in a backslash may take along what stands behind it. -/
theorem form_ends_anywhere (read : formEnd? text start = some stop) :
    formEnd? (Span.of ⟨start, stop⟩ text) 0 = some (stop - start) ∧
      (text[stop - 1]? ≠ some '\\' → ∀ before behind : List Char,
        (behind = [] ∨ ∃ c rest, c ∈ delimiters ∧ behind = c :: rest) →
          formEnd? (before ++ (Span.of ⟨start, stop⟩ text ++ behind)) before.length =
            some (before.length + (stop - start))) := by
  refine ⟨formEnd?_span read, fun closed before behind delimited => ?_⟩
  obtain ⟨-, order, bound⟩ := formEnd?_iff.mp read
  have last := getLast?_span order bound
  apply formEnd?_span_between read
  refine ⟨fun c front => ?_, fun escape => absurd (last.symm.trans escape) closed⟩
  rcases delimited with rfl | ⟨first, rest, member, rfl⟩
  · contradiction
  · rw [← Option.some.inj front]
    exact endsToken_iff.mpr member

end Cut

/-- A form with a mark, a comment in front of what it marks, a conditional group, and brackets in a
literal, a string and a comment. -/
theorem form_ends_anywhere_marked :
    formEnd? "a ~;(\n#?@[\\] \"]\" ;]\n] b".toList 2 = some 21 ∧
      formEnd? "~;(\n#?@[\\] \"]\" ;]\n]".toList 0 = some 19 ∧
      formEnd? "(f ~;(\n#?@[\\] \"]\" ;]\n])".toList 3 = some 22 := by
  have read : formEnd? "a ~;(\n#?@[\\] \"]\" ;]\n] b".toList 2 = some 21 := by decide +kernel
  have law := form_ends_anywhere read
  have closed : "a ~;(\n#?@[\\] \"]\" ;]\n] b".toList[21 - 1]? ≠ some '\\' := by decide
  exact ⟨read, law.1, law.2 closed "(f ".toList [')'] (.inr ⟨')', [], by decide, rfl⟩)⟩

/-! ## Forms that are sent -/

/-- What is told of a form of the input is where it starts in the input and what it leaves. -/
theorem exists_of_mem_extentsBy {left : Nat} {input : List Char} {extent : Nat × Nat}
    (member : extent ∈ extentsBy commentLength? left input) :
    ∃ form rest, form <:+ input ∧ formRest form = some rest ∧
      extent = (form.length, rest.length) := by
  fun_induction extentsBy commentLength? left input with
  | case1 | case2 | case3 => contradiction
  | case4 input _ rest read _ ih =>
    have ink := skipBlankBy_suffix commentLength? input
    rcases List.mem_cons.mp member with rfl | later
    · exact ⟨_, rest, ink, read, rfl⟩
    · obtain ⟨form, behind, inside, found, same⟩ := ih later
      exact ⟨form, behind, (inside.trans (formRest_suffix read)).trans ink, found, same⟩

/-- The forms between two positions of a text end where they are read to their ends. -/
theorem formEnd?_of_mem_formsIn {text : List Char} {low high : Nat} {span : Span}
    (member : span ∈ formsIn text low high) : formEnd? text span.start = some span.stop := by
  obtain ⟨extent, listed, rfl⟩ := List.mem_map.mp member
  obtain ⟨form, rest, inside, read, rfl⟩ := exists_of_mem_extentsBy listed
  have isEnd := List.suffix_iff_eq_drop.mp (inside.trans (List.drop_suffix low text))
  rw [formEnd?, ← isEnd, read]
  rfl

/-- The expression in front of an offset is a form of the text. -/
theorem formEnd?_of_lastBeforeIn {text : List Char} {offset : Int} {low high : Nat} {span : Span}
    (found : lastBeforeIn text offset low high = some span) :
    formEnd? text span.start = some span.stop := by
  have best : ∀ {low high : Nat}, (around offset (formsIn text low high)).1 = some span →
      formEnd? text span.start = some span.stop := fun last =>
    formEnd?_of_mem_formsIn ((List.takeWhile_sublist _).subset (List.mem_of_getLast? last))
  fun_induction lastBeforeIn text offset low high with
  | case1 | case2 | case4 => exact best found
  | case3 _ _ _ _ _ _ _ ih => exact ih found

end EvalDesk.Form
