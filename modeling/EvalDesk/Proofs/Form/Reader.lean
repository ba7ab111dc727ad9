import EvalDesk.Form.Span

/-!
# Steps of the readers

What the readers of blanks, groups and forms do with the first character of their input, one
equation for each of them. The reader of groups has an equation for each kind of character as well:
plain characters, literals and comments are passed over whatever groups are around, and brackets
move the stack of the brackets that are still expected.
-/
namespace EvalDesk.Form

/-- A character that is an item of its own. -/
def isPlain (c : Char) : Bool :=
  !(c = '"' || c = '\\' || c = ';' || (closerOf? c).isSome || isCloser c)

/-- A closing bracket is the partner of an opening one. -/
theorem isCloser_of_closerOf? {opener closer : Char} (pair : closerOf? opener = some closer) :
    isCloser closer = true := by
  unfold closerOf? at pair
  repeat' split at pair
  all_goals first | contradiction | (cases pair; rfl)

/-- A closing bracket is none of the other characters the reader looks for. -/
theorem isCloser_apart {c : Char} (closes : isCloser c = true) :
    c ≠ '"' ∧ c ≠ '\\' ∧ c ≠ ';' ∧ closerOf? c = none ∧ Text.isAlphanumeric c = false := by
  simp only [isCloser, Bool.or_eq_true, decide_eq_true_eq] at closes
  rcases closes with (rfl | rfl) | rfl <;> decide

/-- An opening bracket is none of the other characters the reader looks for. -/
theorem closerOf?_apart {opener closer : Char} (pair : closerOf? opener = some closer) :
    opener ≠ '"' ∧ opener ≠ '\\' ∧ opener ≠ ';' := by
  unfold closerOf? at pair
  repeat' split at pair
  all_goals first | contradiction | (subst opener; decide)

/-- An opening bracket is neither a mark nor a number sign. -/
theorem closerOf?_unmarked {opener closer : Char} (pair : closerOf? opener = some closer) :
    isMark opener = false ∧ opener ≠ '#' := by
  unfold closerOf? at pair
  repeat' split at pair
  all_goals first | contradiction | (subst opener; decide)

/-- What a plain character is not. -/
theorem isPlain_iff {c : Char} : isPlain c = true ↔
    c ≠ '"' ∧ c ≠ '\\' ∧ c ≠ ';' ∧ closerOf? c = none ∧ isCloser c = false := by
  simp [isPlain, and_assoc]

section Reader

variable (closer : Char) (outer : List Char)

/-- The first character decides what the reader of groups does. -/
theorem groupRest_cons (c : Char) (rest : List Char) :
    groupRest closer outer (c :: rest) =
      if c = '"' then (stringRest rest).bind (groupRest closer outer)
      else if c = '\\' then groupRest closer outer (charRest rest)
      else if c = ';' then
        (commentLength? rest).bind fun length => groupRest closer outer (rest.drop length)
      else
        match closerOf? c with
        | some inner => groupRest inner (closer :: outer) rest
        | none =>
          if isCloser c then
            if c = closer then
              match outer with
              | [] => some rest
              | next :: further => groupRest next further rest
            else none
          else groupRest closer outer rest := by
  rw [groupRest, groupRestBy.eq_def]
  simp only [groupRest]
  congr 1
  · cases stringRest rest <;> rfl
  · congr 2
    cases commentLength? rest <;> rfl

/-- An opening bracket starts a group inside. -/
theorem groupRest_open {opener inner : Char} (pair : closerOf? opener = some inner)
    (rest : List Char) :
    groupRest closer outer (opener :: rest) = groupRest inner (closer :: outer) rest := by
  obtain ⟨quote, backslash, semicolon⟩ := closerOf?_apart pair
  rw [groupRest_cons, if_neg quote, if_neg backslash, if_neg semicolon, pair]

/-- The closing bracket of the last group ends the reading. -/
theorem groupRest_close {closer : Char} (closes : isCloser closer = true) (rest : List Char) :
    groupRest closer [] (closer :: rest) = some rest := by
  obtain ⟨quote, backslash, semicolon, unopened, _⟩ := isCloser_apart closes
  rw [groupRest_cons, if_neg quote, if_neg backslash, if_neg semicolon, unopened]
  simp only [closes, ↓reduceIte]

/-- The closing bracket of an inner group leads back to the group around it. -/
theorem groupRest_close_inner {inner : Char} (closes : isCloser inner = true)
    (rest : List Char) :
    groupRest inner (closer :: outer) (inner :: rest) = groupRest closer outer rest := by
  obtain ⟨quote, backslash, semicolon, unopened, _⟩ := isCloser_apart closes
  rw [groupRest_cons, if_neg quote, if_neg backslash, if_neg semicolon, unopened]
  simp only [closes, ↓reduceIte]

/-- A plain character is passed over. -/
theorem groupRest_plain {c : Char} (plain : isPlain c = true) (rest : List Char) :
    groupRest closer outer (c :: rest) = groupRest closer outer rest := by
  obtain ⟨quote, backslash, semicolon, unopened, unclosed⟩ := isPlain_iff.mp plain
  rw [groupRest_cons, if_neg quote, if_neg backslash, if_neg semicolon, unopened]
  simp only [unclosed, Bool.false_eq_true, ↓reduceIte]

end Reader

/-- How far a comment reaches: up to its first line feed, which belongs to it. -/
theorem commentLength?_iff (rest : List Char) (length : Nat) :
    commentLength? rest = some length ↔
      ∃ line behind, '\n' ∉ line ∧ rest = line ++ '\n' :: behind ∧ length = line.length + 1 := by
  induction rest generalizing length with
  | nil => simp [commentLength?]
  | cons c tail ih =>
    by_cases feed : c = '\n'
    · subst feed
      simp only [commentLength?, List.findIdx?_cons, decide_true, ↓reduceIte, Option.map_some]
      constructor
      · intro found
        cases found
        exact ⟨[], tail, by simp, rfl, rfl⟩
      · rintro ⟨line, behind, clear, split, rfl⟩
        cases line with
        | nil => rfl
        | cons first more =>
          cases split
          simp at clear
    · have shifted : commentLength? (c :: tail) = (commentLength? tail).map (· + 1) := by
        simp only [commentLength?, List.findIdx?_cons, feed, decide_false, Bool.false_eq_true,
          ↓reduceIte, Option.map_map]
      rw [shifted, Option.map_eq_some_iff]
      constructor
      · rintro ⟨shorter, found, rfl⟩
        obtain ⟨line, behind, clear, rfl, rfl⟩ := (ih shorter).mp found
        refine ⟨c :: line, behind, ?_, rfl, rfl⟩
        simp only [List.mem_cons, clear, or_false]
        exact fun same => feed same.symm
      · rintro ⟨line, behind, clear, split, rfl⟩
        cases line with
        | nil =>
          cases split
          exact absurd rfl feed
        | cons first more =>
          cases split
          exact ⟨more.length + 1,
            (ih _).mpr ⟨more, behind, fun inside => clear (.tail _ inside), rfl, rfl⟩, rfl⟩

/-- The characters that are no items of their own. -/
def specials : List Char := ['"', '\\', ';', '(', '[', '\x7b', ')', ']', '\x7d']

/-- A character that is none of the special ones is plain. -/
theorem isPlain_of_not_mem {c : Char} (apart : c ∉ specials) : isPlain c = true := by
  simp only [specials, List.mem_cons, List.not_mem_nil, or_false, not_or] at apart
  obtain ⟨quote, backslash, semicolon, round, square, curly, roundEnd, squareEnd, curlyEnd⟩ := apart
  rw [isPlain_iff]
  refine ⟨quote, backslash, semicolon, ?_, ?_⟩
  · simp only [closerOf?, round, square, curly, ↓reduceIte]
  · simp only [isCloser, roundEnd, squareEnd, curlyEnd, decide_false, Bool.or_false]

/-- A character of a class that holds none of the special ones is plain. -/
theorem isPlain_of_class {c : Char} (inside : Char → Bool)
    (outside : specials.any inside = false) (member : inside c = true) : isPlain c = true := by
  apply isPlain_of_not_mem
  intro special
  exact List.any_eq_false.mp outside c special member

/-- An alphanumeric character is plain. -/
theorem isPlain_of_alphanumeric {c : Char} (inside : Text.isAlphanumeric c = true) :
    isPlain c = true :=
  isPlain_of_class Text.isAlphanumeric (by decide) inside

/-- A blank is plain. -/
theorem isPlain_of_blank {c : Char} (blank : isBlank c = true) : isPlain c = true :=
  isPlain_of_class isBlank (by decide) blank

/-- A mark in front of a form is plain. -/
theorem isPlain_of_mark {c : Char} (mark : isMark c = true) : isPlain c = true :=
  isPlain_of_class isMark (by decide) mark

/-- A character of a token other than a backslash is plain. -/
theorem isPlain_of_inside {c : Char} (inside : endsToken c = false) (backslash : c ≠ '\\') :
    isPlain c = true :=
  isPlain_of_class (fun c => !endsToken c && c ≠ '\\') (by decide)
    (by simp [inside, backslash])

/-- A character is no backslash when the cases of a backslash do not hold of it. -/
theorem ne_backslash {c : Char} {rest : List Char} (last : c = '\\' → rest = [] → False)
    (escape : ∀ next more, c = '\\' → rest = next :: more → False) : c ≠ '\\' := by
  intro same
  cases rest with
  | nil => exact last same rfl
  | cons next more => exact escape next more same rfl

section Passing

variable (closer : Char) (outer : List Char)

/-- A run of alphanumeric characters is passed over one by one. -/
theorem groupRest_dropWhile (input : List Char) :
    groupRest closer outer (input.dropWhile Text.isAlphanumeric) =
      groupRest closer outer input := by
  induction input with
  | nil => rfl
  | cons c rest ih =>
    by_cases inside : Text.isAlphanumeric c = true
    · rw [List.dropWhile_cons_of_pos inside, ih,
        groupRest_plain closer outer (isPlain_of_alphanumeric inside)]
    · rw [List.dropWhile_cons_of_neg inside]

/-- A backslash takes the character behind it along. -/
theorem groupRest_escape (c : Char) (rest : List Char) :
    groupRest closer outer ('\\' :: c :: rest) = groupRest closer outer rest := by
  rw [groupRest_cons, if_neg (by decide), if_pos rfl, charRest]
  split
  · exact groupRest_dropWhile closer outer rest
  · rfl

/-- A comment is passed over. -/
theorem groupRest_comment {line : List Char} (clear : '\n' ∉ line) (rest : List Char) :
    groupRest closer outer (';' :: (line ++ '\n' :: rest)) = groupRest closer outer rest := by
  have reach := (commentLength?_iff (line ++ '\n' :: rest) _).mpr ⟨line, rest, clear, rfl, rfl⟩
  rw [groupRest_cons, if_neg (by decide), if_neg (by decide), if_pos rfl, reach]
  simp

/-- Plain characters are passed over. -/
theorem groupRest_plains {run : List Char} (plain : ∀ c ∈ run, isPlain c = true)
    (rest : List Char) : groupRest closer outer (run ++ rest) = groupRest closer outer rest := by
  induction run with
  | nil => rfl
  | cons c more ih =>
    rw [List.cons_append, groupRest_plain closer outer (plain c (.head _)),
      ih fun other member => plain other (.tail _ member)]

end Passing

/-! ## The readers of blanks and of forms -/

/-- The first character decides what the reader of blanks does. -/
theorem skipBlank_cons (c : Char) (rest : List Char) :
    skipBlank (c :: rest) =
      if isBlank c then skipBlank rest
      else if c = ';' then
        match commentLength? rest with
        | some length => skipBlank (rest.drop length)
        | none => []
      else c :: rest := by
  rw [skipBlank, skipBlankBy]
  rfl

/-- The first character decides what the reader of forms does. -/
theorem formRest_cons (c : Char) (rest : List Char) :
    formRest (c :: rest) =
      if isMark c then formRest (skipBlank (markRest c rest))
      else if c = '#' then
        match dispatch rest with
        | .group closer behind => groupRest closer [] behind
        | .string behind => stringRest behind
        | .form behind => formRest (skipBlank behind)
        | .conditional behind => formRest behind
        | .nothing => none
      else if c = '"' then stringRest rest
      else if c = '\\' then some (charRest rest)
      else
        match closerOf? c with
        | some closer => groupRest closer [] rest
        | none => if endsToken c then none else some (tokenRest (c :: rest)) := by
  rw [formRest, formRestBy]
  congr 2
  cases dispatch rest <;> rfl

/-- A form that starts with an opening bracket is a group. -/
theorem formRest_group {opener closer : Char} (pair : closerOf? opener = some closer)
    (rest : List Char) : formRest (opener :: rest) = groupRest closer [] rest := by
  obtain ⟨quote, backslash, _⟩ := closerOf?_apart pair
  have mark := closerOf?_unmarked pair
  rw [formRest_cons, mark.1, if_neg Bool.false_ne_true, if_neg mark.2, if_neg quote,
    if_neg backslash, pair]

/-- What stands behind a number sign, by what it is taken for. -/
theorem dispatch_cases (input : List Char) :
    match dispatch input with
    | .group closer behind =>
      ∃ opener, closerOf? opener = some closer ∧ input = opener :: behind
    | .string behind => input = '"' :: behind
    | .form behind => (∃ c, isPlain c = true ∧ input = c :: behind) ∨ behind = tokenRest input
    | .conditional behind => ∃ rest, input = '?' :: rest ∧ behind = dropAt rest
    | .nothing => True := by
  cases input with
  | nil => trivial
  | cons c rest =>
    by_cases round : c = '('
    · subst round
      exact ⟨'(', rfl, rfl⟩
    by_cases curly : c = '\x7b'
    · subst curly
      exact ⟨'\x7b', rfl, rfl⟩
    by_cases quote : c = '"'
    · subst quote
      rfl
    by_cases mark : c = '\'' ∨ c = '_'
    · have plain : isPlain c = true := by rcases mark with rfl | rfl <;> decide
      have taken : dispatch (c :: rest) = .form rest := by
        simp only [dispatch, round, curly, quote, mark, ↓reduceIte, Bool.or_eq_true,
          decide_eq_true_eq]
      rw [taken]
      exact .inl ⟨c, plain, rfl⟩
    by_cases question : c = '?'
    · subst question
      exact ⟨rest, rfl, rfl⟩
    by_cases ends : endsToken c = true
    · have taken : dispatch (c :: rest) = .nothing := by
        simp only [dispatch, round, curly, quote, mark, question, ends, ↓reduceIte,
          Bool.or_eq_true, decide_eq_true_eq]
      rw [taken]
      trivial
    · have taken : dispatch (c :: rest) = .form (tokenRest (c :: rest)) := by
        simp only [dispatch, round, curly, quote, mark, question, ends, ↓reduceIte,
          Bool.or_eq_true, decide_eq_true_eq, Bool.false_eq_true]
      rw [taken]
      exact .inr rfl

/-- What a number sign takes stands behind it. -/
theorem dispatch_suffix (input : List Char) :
    match dispatch input with
    | .form behind | .conditional behind => behind <:+ input
    | _ => True := by
  have parts := dispatch_cases input
  cases found : dispatch input with
  | group | string | nothing => trivial
  | form behind =>
    rw [found] at parts
    rcases parts with ⟨c, _, rfl⟩ | rfl
    · exact List.suffix_cons c behind
    · exact List.dropWhile_suffix _
  | conditional behind =>
    rw [found] at parts
    obtain ⟨rest, rfl, rfl⟩ := parts
    exact (dropAt_suffix rest).trans (List.suffix_cons _ rest)

/-- The characters of a token and what is left behind it make up the input. -/
theorem takeWhile_append_tokenRest (input : List Char) :
    input.takeWhile (!endsToken ·) ++ tokenRest input = input :=
  List.takeWhile_append_dropWhile

/-- No character of a token ends it. -/
theorem inside_of_mem_takeWhile {input : List Char} :
    ∀ c ∈ input.takeWhile (!endsToken ·), endsToken c = false := by
  intro c member
  simpa using List.all_eq_true.mp List.all_takeWhile c member

end EvalDesk.Form
