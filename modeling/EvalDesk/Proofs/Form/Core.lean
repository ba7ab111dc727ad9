import EvalDesk.Form.Query
import EvalDesk.Proofs.Form.Context

/-!
# What a form is about

Marks, dispatches and tags stand in front of what a form is about: its core, which is a string, a
character, a token or a bracketed group. A reader of forms comes to the core through blanks and
comments between them. The search for the body of a form looks for the first bracket instead,
wherever it stands, and gives up at a quote or a backslash. So it comes to the bracket of the core
as long as no character in front of the core opens a group or a literal. Such a character, which
stands in a comment or is a backslash of a tag, misleads the search.
-/
namespace EvalDesk.Form

/-- What is left of the input from the core of its form on. -/
def core : List Char → List Char
  | [] => []
  | c :: rest =>
    if isMark c then core (skipBlank (markRest c rest))
    else if c = '#' then
      match _ : dispatch rest with
      | .group _ _ | .string _ => rest
      | .form behind => core (skipBlank behind)
      | .conditional behind => core behind
      | .nothing => c :: rest
    else c :: rest
termination_by input => input.length
decreasing_by
  · have blanks := length_skipBlankBy_le commentLength? (markRest c rest)
    have mark := (markRest_suffix c rest).length_le
    simp only [skipBlank, List.length_cons]
    omega
  · have blanks := length_skipBlankBy_le commentLength? behind
    have shorter := length_dispatch_form ‹dispatch _ = .form _›
    simp only [skipBlank, List.length_cons]
    omega
  · have shorter := length_dispatch_conditional ‹dispatch _ = .conditional _›
    simp only [List.length_cons]
    omega

/-- The characters of the input in front of the core of its form. -/
def front (input : List Char) : List Char := input.take (input.length - (core input).length)

/-- The position of the opening bracket of a form that is about a group. -/
def bracket? (text : List Char) (form : Span) : Option Nat :=
  match core (text.drop form.start) with
  | [] => none
  | c :: rest => if (closerOf? c).isSome then some (text.length - (rest.length + 1)) else none

/-- The first character of the input that opens a group or a literal, and its position. -/
def opening? (input : List Char) (position : Nat) : Option (Char × Nat) :=
  (input.zipIdx position).find? fun entry => opensOrQuotes entry.1

/-- The first character in front of the core of a form that opens a group or a literal. -/
def misleader? (text : List Char) (form : Span) : Option (Char × Nat) :=
  opening? (front (text.drop form.start)) form.start

/-- The position behind a character that opens a group. -/
def groupAt? (entry : Char × Nat) : Option Nat :=
  if (closerOf? entry.1).isSome then some (entry.2 + 1) else none

/-- The core of a form is an end of it. -/
theorem core_suffix (input : List Char) : core input <:+ input := by
  fun_induction core input with
  | case1 => exact List.suffix_refl _
  | case2 c rest _ ih =>
    have blanks := skipBlankBy_suffix commentLength? (markRest c rest)
    exact ((ih.trans blanks).trans (markRest_suffix c rest)).trans (List.suffix_cons c rest)
  | case3 | case4 => exact List.suffix_cons _ _
  | case5 rest behind found _ ih =>
    have blanks := skipBlankBy_suffix commentLength? behind
    have inside := dispatch_suffix rest
    rw [found] at inside
    exact ((ih.trans blanks).trans inside).trans (List.suffix_cons _ rest)
  | case6 rest behind found _ ih =>
    have inside := dispatch_suffix rest
    rw [found] at inside
    exact (ih.trans inside).trans (List.suffix_cons _ rest)
  | case7 | case8 => exact List.suffix_refl _

/-- What stands in front of the core and the core make up the input. -/
theorem front_append_core (input : List Char) : front input ++ core input = input := by
  have cut := List.suffix_iff_eq_drop.mp (core_suffix input)
  conv_lhs => rw [cut]
  exact List.take_append_drop _ input

/-- A form that can be read is about what is read last: neither a mark nor a dispatch, and it ends
where the form ends. -/
theorem formRest_core {input rest : List Char} (read : formRest input = some rest) :
    formRest (core input) = some rest ∧
      ∃ c tail, core input = c :: tail ∧ isMark c = false ∧ c ≠ '#' := by
  fun_induction core input with
  | case1 =>
    rw [formRest, formRestBy] at read
    contradiction
  | case2 c tail mark ih =>
    rw [formRest_cons, if_pos mark] at read
    exact ih read
  | case3 tail closer behind found mark =>
    have parts := dispatch_cases tail
    rw [formRest_cons, if_neg mark, if_pos rfl, found] at read
    rw [found] at parts
    obtain ⟨opener, pair, rfl⟩ := parts
    exact ⟨(formRest_group pair behind).trans read, opener, behind, rfl, closerOf?_unmarked pair⟩
  | case4 tail behind found mark =>
    have parts := dispatch_cases tail
    rw [formRest_cons, if_neg mark, if_pos rfl, found] at read
    rw [found] at parts
    subst parts
    refine ⟨?_, '"', behind, rfl, by decide, by decide⟩
    rw [formRest_cons, if_neg (by decide), if_neg (by decide), if_pos rfl]
    exact read
  | case5 tail behind found mark ih =>
    rw [formRest_cons, if_neg mark, if_pos rfl, found] at read
    exact ih read
  | case6 tail behind found mark ih =>
    rw [formRest_cons, if_neg mark, if_pos rfl, found] at read
    exact ih read
  | case7 tail found mark =>
    rw [formRest_cons, if_neg mark, if_pos rfl, found] at read
    contradiction
  | case8 c tail mark sign =>
    exact ⟨read, c, tail, rfl, by simpa using mark, sign⟩

/-! ## The first bracket and the bracket of the core -/

/-- The first character that opens something is the first one of the input or is found behind it. -/
theorem opening?_cons (c : Char) (rest : List Char) (position : Nat) :
    opening? (c :: rest) position =
      if opensOrQuotes c then some (c, position) else opening? rest (position + 1) := by
  rw [opening?, List.zipIdx_cons, List.find?_cons]
  cases opensOrQuotes c <;> rfl

/-- The first character that opens something is found in one part of the input or in the other. -/
theorem opening?_append (left right : List Char) (position : Nat) :
    opening? (left ++ right) position =
      (opening? left position).or (opening? right (position + left.length)) := by
  rw [opening?, List.zipIdx_append, List.find?_append]
  rfl

/-- The first character that opens something is one of the input. -/
theorem opening?_mem {input : List Char} {position : Nat} {entry : Char × Nat}
    (found : opening? input position = some entry) :
    entry.1 ∈ input ∧ opensOrQuotes entry.1 = true ∧ position ≤ entry.2 ∧
      entry.2 < position + input.length := by
  have member := List.mem_of_find?_eq_some found
  have opens := List.find?_some (p := fun entry : Char × Nat => opensOrQuotes entry.1) found
  refine ⟨List.fst_mem_of_mem_zipIdx member, opens, ?_, ?_⟩
  · exact List.le_snd_of_mem_zipIdx member
  · exact List.snd_lt_add_of_mem_zipIdx member

/-- The first character that opens something stands where the characters end that do not. -/
theorem opening?_eq_dropWhile (input : List Char) (position : Nat) :
    opening? input position =
      match input.dropWhile (!opensOrQuotes ·) with
      | [] => none
      | c :: rest => some (c, position + (input.length - (rest.length + 1))) := by
  induction input generalizing position with
  | nil => rfl
  | cons c rest ih =>
    rw [opening?_cons]
    by_cases opens : opensOrQuotes c = true
    · rw [if_pos opens, List.dropWhile_cons_of_neg (by simp [opens])]
      simp
    · have shorter := length_dropWhile_le (!opensOrQuotes ·) rest
      rw [if_neg opens, List.dropWhile_cons_of_pos (by simp [opens]), ih]
      split
      · rfl
      · rename_i first more behind
        rw [behind, List.length_cons] at shorter
        rw [List.length_cons]
        congr 2
        omega

variable {text : List Char} {form : Span}

/-- The group of a form is looked for behind its first character that opens something. -/
theorem bodyStart?_eq_opening? (order : form.start ≤ form.stop) (bound : form.stop ≤ text.length) :
    bodyStart? text form = (opening? (form.of text) form.start).bind groupAt? := by
  have size : (form.of text).length = form.stop - form.start := length_span bound
  have shorter := length_dropWhile_le (!opensOrQuotes ·) (form.of text)
  rw [opening?_eq_dropWhile, bodyStart?]
  cases found : (form.of text).dropWhile (!opensOrQuotes ·) with
  | nil => rfl
  | cons c rest =>
    rw [found, size, List.length_cons] at shorter
    simp only [Option.bind_some, groupAt?, size]
    congr 2
    omega

/-- A core opens a group with its first character or not at all. -/
theorem opening?_core {own rest tail : List Char} {c : Char}
    (read : formRest (own ++ rest) = some rest) (first : own ++ rest = c :: tail)
    (mark : isMark c = false) (sign : c ≠ '#') (position : Nat) :
    (opening? own position).bind groupAt? = groupAt? (c, position) := by
  cases own with
  | nil => exact absurd (length_formRestBy_lt read) (Nat.lt_irrefl _)
  | cons d more =>
    cases first
    rw [opening?_cons]
    by_cases opens : opensOrQuotes c = true
    · rw [if_pos opens, Option.bind_some]
    · rw [if_neg opens]
      simp only [opensOrQuotes, Bool.or_eq_true, decide_eq_true_eq, not_or, Bool.not_eq_true,
        Option.isSome_eq_false_iff, Option.isNone_iff_eq_none] at opens
      obtain ⟨⟨unopened, quote⟩, backslash⟩ := opens
      -- What is left is a token, and of the characters looked for it may have backslashes only.
      rw [List.cons_append, formRest_cons, mark, if_neg Bool.false_ne_true, if_neg sign,
        if_neg quote, if_neg backslash, unopened] at read
      dsimp only at read
      simp only [groupAt?, unopened, Option.isSome_none, Bool.false_eq_true, ↓reduceIte,
        Option.bind_eq_none_iff]
      split at read
      · contradiction
      · intro entry found
        have token := takeWhile_append_tokenRest (c :: (more ++ rest))
        rw [Option.some.inj read, ← List.cons_append, List.append_left_inj] at token
        obtain ⟨member, opening, _⟩ := opening?_mem found
        have inside : endsToken entry.1 = false :=
          inside_of_mem_takeWhile entry.1 (token.symm ▸ List.mem_cons_of_mem c member)
        cases pair : closerOf? entry.1 with
        | none => rfl
        | some closer =>
          rw [endsToken_of_closerOf? pair] at inside
          contradiction

/-- The group of a form is found behind the first character in front of its core that opens a group
or a literal, and in the core when there is no such character. -/
theorem bodyStart?_eq (read : formEnd? text form.start = some form.stop) :
    bodyStart? text form =
      match misleader? text form with
      | none => (bracket? text form).map (· + 1)
      | some entry => groupAt? entry := by
  obtain ⟨found, order, bound⟩ := formEnd?_iff.mp read
  obtain ⟨atCore, c, tail, first, mark, sign⟩ := formRest_core found
  obtain ⟨own, parts⟩ := formRest_suffix atCore
  have cut := front_append_core (text.drop form.start)
  have whole : form.of text = front (text.drop form.start) ++ own := by
    have behind : text.drop form.start = form.of text ++ text.drop form.stop :=
      drop_eq_span_append (Nat.le_of_lt order)
    rw [← cut, ← parts, ← List.append_assoc, List.append_left_inj] at behind
    exact behind.symm
  have position : text.length - (tail.length + 1) =
      form.start + (front (text.drop form.start)).length := by
    have size := congrArg List.length cut
    rw [List.length_append, List.length_drop, first, List.length_cons] at size
    omega
  have atBracket : (bracket? text form).map (· + 1) =
      groupAt? (c, form.start + (front (text.drop form.start)).length) := by
    rw [bracket?, first, ← position]
    simp only [groupAt?]
    split <;> rfl
  rw [bodyStart?_eq_opening? (Nat.le_of_lt order) bound, whole, opening?_append, atBracket,
    misleader?]
  cases opening? (front (text.drop form.start)) form.start with
  | some entry => rfl
  | none =>
    rw [← parts] at atCore first
    exact opening?_core atCore first mark sign _

/-- The bracket of the core stands in the form, and the group that is read from it ends where the
form ends. -/
theorem groupRest_bracket? {position : Nat} (read : formEnd? text form.start = some form.stop)
    (found : bracket? text form = some position) :
    form.start ≤ position ∧ position < form.stop ∧
      ∃ opener closer, closerOf? opener = some closer ∧ text[position]? = some opener ∧
        groupRest closer [] (text.drop (position + 1)) = some (text.drop form.stop) := by
  obtain ⟨whole, order, bound⟩ := formEnd?_iff.mp read
  obtain ⟨atCore, c, tail, first, -⟩ := formRest_core whole
  have isEnd := core_suffix (text.drop form.start)
  have size := isEnd.length_le
  have shorter := length_formRestBy_lt atCore
  rw [first, List.length_cons, List.length_drop] at size shorter
  rw [bracket?, first] at found
  simp only at found
  split at found
  · rename_i opens
    cases found
    obtain ⟨closer, pair⟩ := Option.isSome_iff_exists.mp opens
    have cut := List.suffix_iff_eq_drop.mp (isEnd.trans (List.drop_suffix _ text))
    rw [first, List.length_cons] at cut
    rw [first, formRest_group pair] at atCore
    refine ⟨by omega, by omega, c, closer, pair, ?_, ?_⟩
    · have ahead := congrArg (·[0]?) cut
      simpa using ahead.symm
    · have behind := congrArg (List.drop 1) cut
      rw [List.drop_drop, List.drop_succ_cons, List.drop_zero] at behind
      rw [← behind]
      exact atCore
  · contradiction

/-- A character that misleads the search stands in the form, in front of the bracket of the core. -/
theorem misleader?_bounds {c : Char} {position : Nat} (order : form.start ≤ text.length)
    (found : misleader? text form = some (c, position)) :
    form.start ≤ position ∧ ∀ bracket, bracket? text form = some bracket → position < bracket := by
  obtain ⟨_, _, starts, stops⟩ := opening?_mem found
  refine ⟨starts, fun bracket opened => ?_⟩
  have size := congrArg List.length (front_append_core (text.drop form.start))
  rw [List.length_append, List.length_drop] at size
  rw [bracket?] at opened
  split at opened
  · contradiction
  · rename_i first tail parts
    split at opened
    · cases opened
      rw [parts, List.length_cons] at size
      simp only at stops
      omega
    · contradiction

end EvalDesk.Form
