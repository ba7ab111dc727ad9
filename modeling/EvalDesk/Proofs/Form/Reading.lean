import EvalDesk.Proofs.Form.Group

/-!
# Reading forms one after another

The inside of a group can be read in two ways: form by form, or with the one scan that reads the
group. Both come to the same closing bracket as long as they take the same characters for literals.
They differ in one place only. The reader of tokens takes a backslash for a character of the token,
while the scan takes it for the start of a literal, which may hide the quote, the semicolon or the
bracket right behind the token. Tokens of this kind are called loose here, and without them the two
readings agree.
-/
namespace EvalDesk.Form

/-- Where blanks and comments from a position on end. -/
def blankEnd (text : List Char) (start : Nat) : Nat :=
  text.length - (skipBlank (text.drop start)).length

/-- Reading forms one after another from a position comes to a position: blanks are passed over,
then a form is read, then blanks are passed over, and so on. -/
inductive ReadsTo (text : List Char) : Nat → Nat → Prop where
  /-- Blanks are passed over, and no form is read any more. -/
  | blanks (start : Nat) : ReadsTo text start (blankEnd text start)
  /-- A form is read behind the blanks. -/
  | form {start next stop : Nat} : formEnd? text (blankEnd text start) = some next →
    ReadsTo text next stop → ReadsTo text start stop

/-- The characters end in a backslash that takes none of them along. -/
def endsLoose : List Char → Bool
  | [] => false
  | ['\\'] => true
  | '\\' :: _ :: rest => endsLoose rest
  | _ :: rest => endsLoose rest

/-- What is read from the input up to what is left behind it ends in a loose backslash, right in
front of a quote, a semicolon or a bracket. -/
def isLoose (input behind : List Char) : Bool :=
  endsLoose (input.take (input.length - behind.length)) && behind.head?.any (!isPlain ·)

/-- What is left behind the first loose token of the form at the front of the input, be it a tag;
none when it has no loose token. -/
def behindLoose? : List Char → Option (List Char)
  | [] => none
  | c :: rest =>
    if isMark c then behindLoose? (skipBlank (markRest c rest))
    else if c = '#' then
      match _ : dispatch rest with
      | .form behind =>
        if isLoose rest behind then some behind else behindLoose? (skipBlank behind)
      | .conditional behind => behindLoose? behind
      | _ => none
    else if c = '\\' then none
    else if isLoose (c :: rest) (tokenRest (c :: rest)) then some (tokenRest (c :: rest))
    else none
termination_by input => input.length
decreasing_by
  · have blanks := length_skipBlankBy_le commentLength? (markRest c rest)
    have mark := (markRest_suffix c rest).length_le
    simp only [skipBlank, List.length_cons]
    omega
  · have blanks := length_skipBlankBy_le commentLength? behind
    have shorter := length_dispatch_form ‹dispatch _ = .form _›
    simp only [skipBlank, List.length_cons]
    omega
  · have shorter := length_dispatch_conditional ‹dispatch _ = .conditional _›
    simp only [List.length_cons]
    omega

/-- What is left behind the first loose token of the forms between two positions. -/
def firstLoose? (text : List Char) (start stop : Nat) : Option (List Char) :=
  (formsIn text start stop).findSome? fun span => behindLoose? (text.drop span.start)

/-- The token at the front of the input is what is taken in front of the rest behind it. -/
theorem take_tokenRest (input : List Char) :
    input.take (input.length - (tokenRest input).length) = input.takeWhile (!endsToken ·) := by
  have parts := takeWhile_append_tokenRest input
  have width : input.length - (tokenRest input).length =
      (input.takeWhile (!endsToken ·)).length := by
    have sizes := congrArg List.length parts
    rw [List.length_append] at sizes
    omega
  rw [width]
  exact (List.prefix_iff_eq_take.mp (List.takeWhile_prefix _)).symm

/-- The first character decides where the first loose token of a form is looked for. -/
theorem behindLoose?_cons (c : Char) (rest : List Char) :
    behindLoose? (c :: rest) =
      if isMark c then behindLoose? (skipBlank (markRest c rest))
      else if c = '#' then
        match dispatch rest with
        | .form behind =>
          if isLoose rest behind then some behind else behindLoose? (skipBlank behind)
        | .conditional behind => behindLoose? behind
        | _ => none
      else if c = '\\' then none
      else if isLoose (c :: rest) (tokenRest (c :: rest)) then some (tokenRest (c :: rest))
      else none := by
  rw [behindLoose?]
  congr 2
  cases dispatch rest <;> rfl

/-- A form that starts with a character that ends a token has no loose token. -/
theorem behindLoose?_of_endsToken {c : Char} (ends : endsToken c = true) (rest : List Char) :
    behindLoose? (c :: rest) = none := by
  have mark : isMark c = false ∧ c ≠ '#' ∧ c ≠ '\\' := by
    simp only [endsToken, Bool.or_eq_true, decide_eq_true_eq] at ends
    rcases ends with (((((((((((rfl | rfl) | rfl) | rfl) | rfl) | rfl) | rfl) | rfl) | rfl) | rfl) |
      rfl) | rfl) | rfl <;> decide
  have tight : isLoose (c :: rest) (tokenRest (c :: rest)) = false := by
    rw [isLoose, take_tokenRest, List.takeWhile_cons_of_neg (by simp [ends])]
    rfl
  rw [behindLoose?_cons, mark.1, if_neg Bool.false_ne_true, if_neg mark.2.1, if_neg mark.2.2, tight,
    if_neg Bool.false_ne_true]

/-- An opening bracket ends a token. -/
theorem endsToken_of_closerOf? {opener closer : Char} (pair : closerOf? opener = some closer) :
    endsToken opener = true := by
  unfold closerOf? at pair
  repeat' split at pair
  all_goals first | contradiction | (subst opener; decide)

/-! ## What both readings pass over -/

section Passing

variable (closer : Char) (outer : List Char)

/-- The scan of a group passes over blanks and comments. -/
theorem groupRest_skipBlank (input : List Char) :
    groupRest closer outer (skipBlank input) = groupRest closer outer input := by
  unfold skipBlank
  fun_induction skipBlankBy commentLength? input with
  | case1 => rfl
  | case2 c rest blank ih => rw [ih, groupRest_plain closer outer (isPlain_of_blank blank)]
  | case3 rest length reach _ ih =>
    obtain ⟨line, behind, clear, rfl, rfl⟩ := (commentLength?_iff rest length).mp reach
    have left : (line ++ '\n' :: behind).drop (line.length + 1) = behind := by simp
    rw [ih, left, groupRest_comment closer outer clear]
  | case4 rest reach =>
    -- A comment without an end leaves nothing for either reading.
    rw [groupRest_cons, if_neg (by decide), if_neg (by decide), if_pos rfl, reach, groupRest,
      groupRestBy]
    rfl
  | case5 => rfl

/-- The scan of a group passes over an at sign. -/
theorem groupRest_dropAt (input : List Char) :
    groupRest closer outer (dropAt input) = groupRest closer outer input := by
  unfold dropAt
  split
  · rw [groupRest_plain closer outer (show isPlain '@' = true by decide)]
  · rfl

/-- The scan of a group passes over a mark in front of a form. -/
theorem groupRest_markRest {c : Char} (mark : isMark c = true) (rest : List Char) :
    groupRest closer outer (markRest c rest) = groupRest closer outer (c :: rest) := by
  rw [groupRest_plain closer outer (isPlain_of_mark mark), markRest]
  split
  · exact groupRest_dropAt closer outer rest
  · rfl

/-- The scan of a group passes over a token without a loose backslash. -/
theorem groupRest_tight {token : List Char} (inside : ∀ c ∈ token, endsToken c = false)
    (tight : endsLoose token = false) (behind : List Char) :
    groupRest closer outer (token ++ behind) = groupRest closer outer behind := by
  fun_induction endsLoose token with
  | case1 => rfl
  | case2 => exact Bool.noConfusion tight
  | case3 c rest ih =>
    have ends : ∀ other ∈ rest, endsToken other = false := fun other member =>
      inside other (.tail _ (.tail _ member))
    rw [List.cons_append, List.cons_append, groupRest_escape, ih ends tight]
  | case4 c rest single pair ih =>
    have ends : ∀ other ∈ rest, endsToken other = false := fun other member =>
      inside other (.tail _ member)
    have plain := isPlain_of_inside (inside c (.head _)) (ne_backslash single pair)
    rw [List.cons_append, groupRest_plain closer outer plain, ih ends tight]

/-- The scan of a group passes over a token with a loose backslash, and over the character behind it
as well. -/
theorem groupRest_loose {token : List Char} (inside : ∀ c ∈ token, endsToken c = false)
    (loose : endsLoose token = true) (behind : List Char) :
    groupRest closer outer (token ++ behind) = groupRest closer outer (behind.drop 1) := by
  fun_induction endsLoose token with
  | case1 => exact Bool.noConfusion loose
  | case2 =>
    cases behind with
    | nil => rw [List.append_nil, groupRest_cons, if_neg (by decide), if_pos rfl]; rfl
    | cons c more => exact groupRest_escape closer outer c more
  | case3 c rest ih =>
    have ends : ∀ other ∈ rest, endsToken other = false := fun other member =>
      inside other (.tail _ (.tail _ member))
    rw [List.cons_append, List.cons_append, groupRest_escape, ih ends loose]
  | case4 c rest single pair ih =>
    have ends : ∀ other ∈ rest, endsToken other = false := fun other member =>
      inside other (.tail _ member)
    have plain := isPlain_of_inside (inside c (.head _)) (ne_backslash single pair)
    rw [List.cons_append, groupRest_plain closer outer plain, ih ends loose]

/-- Where the scan of a group comes to when a token has been read from the input: behind it, and
behind the character that follows as well when the token is loose. -/
theorem groupRest_tokenRest (input : List Char) :
    groupRest closer outer input =
      groupRest closer outer
        (if isLoose input (tokenRest input) then (tokenRest input).drop 1
          else tokenRest input) := by
  have parts := takeWhile_append_tokenRest input
  have loose : isLoose input (tokenRest input) =
      (endsLoose (input.takeWhile (!endsToken ·)) && (tokenRest input).head?.any (!isPlain ·)) := by
    rw [isLoose, take_tokenRest]
  rw [loose]
  by_cases ends : endsLoose (input.takeWhile (!endsToken ·)) = true
  · have hidden := groupRest_loose closer outer inside_of_mem_takeWhile ends (tokenRest input)
    rw [parts] at hidden
    rw [hidden, ends, Bool.true_and]
    -- A plain character that the scan hides may as well be passed over later.
    cases tokenRest input with
    | nil => rfl
    | cons c rest =>
      by_cases plain : isPlain c = true
      · simp only [List.head?_cons, Option.any_some, plain, Bool.not_true, Bool.false_eq_true,
          ↓reduceIte]
        rw [groupRest_plain closer outer plain, List.drop_one, List.tail_cons]
      · simp [plain]
  · have tight : endsLoose (input.takeWhile (!endsToken ·)) = false := by simpa using ends
    have passed := groupRest_tight closer outer inside_of_mem_takeWhile tight (tokenRest input)
    rw [parts] at passed
    rw [passed, tight, Bool.false_and, if_neg Bool.false_ne_true]

/-- Where the scan of a group comes to when a number sign has taken a form. -/
theorem groupRest_dispatch_form {input behind : List Char} (found : dispatch input = .form behind) :
    groupRest closer outer input =
      groupRest closer outer (if isLoose input behind then behind.drop 1 else behind) := by
  have parts := dispatch_cases input
  rw [found] at parts
  rcases parts with ⟨c, plain, rfl⟩ | rfl
  · have single : (c :: behind).take ((c :: behind).length - behind.length) = [c] := by
      simp
    have tight : isLoose (c :: behind) behind = false := by
      have backslash := (isPlain_iff.mp plain).2.1
      rw [isLoose, single]
      simp [endsLoose, backslash]
    rw [tight, if_neg Bool.false_ne_true, groupRest_plain closer outer plain]
  · exact groupRest_tokenRest closer outer input

/-- The scan of a group passes over a string. -/
theorem groupRest_stringRest {input rest : List Char} (read : stringRest input = some rest) :
    groupRest closer outer ('"' :: input) = groupRest closer outer rest := by
  obtain ⟨inside, body, rfl⟩ := (stringRest_iff input rest).mp read
  exact groupRest_string closer outer body rest

/-- The scan of a group passes over a character literal. -/
theorem groupRest_literal (input : List Char) :
    groupRest closer outer ('\\' :: input) = groupRest closer outer (charRest input) := by
  rw [groupRest_cons, if_neg (by decide), if_pos rfl]

/-- The scan of a group passes over a group inside it. -/
theorem groupRest_nested {opener inner : Char} (pair : closerOf? opener = some inner)
    {input rest : List Char} (read : groupRest inner [] input = some rest) :
    groupRest closer outer (opener :: input) = groupRest closer outer rest := by
  rw [groupRest_open closer outer pair]
  exact groupRest_around pair read closer outer

/-- The scan of a group comes to the end of a form that it reads as well. With a loose token in the
form it comes to where the scan goes on behind the character that this token hides. -/
theorem groupRest_formRest {input rest : List Char} (read : formRest input = some rest) :
    groupRest closer outer input =
      groupRest closer outer ((behindLoose? input).elim rest (List.drop 1)) := by
  unfold formRest at read
  fun_induction formRestBy commentLength? input with
  | case1 | case7 | case11 => contradiction
  | case2 c tail mark ih =>
    have marked : behindLoose? (c :: tail) = behindLoose? (skipBlank (markRest c tail)) := by
      rw [behindLoose?_cons, if_pos mark]
    have passed := groupRest_skipBlank closer outer (markRest c tail)
    rw [groupRest_markRest closer outer mark] at passed
    rw [marked, ← passed]
    exact ih read
  | case3 tail inner behind found mark =>
    have none_loose : behindLoose? ('#' :: tail) = none := by
      rw [behindLoose?_cons, if_neg mark, if_pos rfl, found]
    have parts := dispatch_cases tail
    rw [found] at parts
    obtain ⟨opener, pair, rfl⟩ := parts
    rw [none_loose, groupRest_plain closer outer (by decide),
      groupRest_nested closer outer pair read]
    rfl
  | case4 tail behind found mark =>
    have none_loose : behindLoose? ('#' :: tail) = none := by
      rw [behindLoose?_cons, if_neg mark, if_pos rfl, found]
    have parts := dispatch_cases tail
    rw [found] at parts
    subst parts
    rw [none_loose, groupRest_plain closer outer (by decide),
      groupRest_stringRest closer outer read]
    rfl
  | case5 tail behind found mark ih =>
    rw [groupRest_plain closer outer (by decide), groupRest_dispatch_form closer outer found,
      behindLoose?_cons, if_neg mark, if_pos rfl, found]
    by_cases loose : isLoose tail behind = true
    · simp only [loose, ↓reduceIte, Option.elim_some]
    · simp only [loose, Bool.false_eq_true, ↓reduceIte]
      rw [← groupRest_skipBlank closer outer behind]
      exact ih read
  | case6 tail behind found mark ih =>
    have parts := dispatch_cases tail
    rw [found] at parts
    obtain ⟨inner, rfl, rfl⟩ := parts
    have same : behindLoose? ('#' :: '?' :: inner) = behindLoose? (dropAt inner) := by
      rw [behindLoose?_cons, if_neg mark, if_pos rfl, found]
    rw [groupRest_plain closer outer (by decide), groupRest_plain closer outer (by decide),
      ← groupRest_dropAt closer outer inner, same]
    exact ih read
  | case8 tail =>
    rw [behindLoose?_of_endsToken (by decide), groupRest_stringRest closer outer read]
    rfl
  | case9 tail mark number _ =>
    cases read
    rw [groupRest_literal, behindLoose?_cons, if_neg mark, if_neg number, if_pos rfl]
    rfl
  | case10 c tail _ _ _ _ inner pair =>
    rw [behindLoose?_of_endsToken (endsToken_of_closerOf? pair),
      groupRest_nested closer outer pair read]
    rfl
  | case12 c tail mark number quote backslash unopened inside =>
    cases read
    rw [groupRest_tokenRest, behindLoose?_cons, if_neg mark, if_neg number, if_neg backslash]
    by_cases loose : isLoose (c :: tail) (tokenRest (c :: tail)) = true
    · simp only [loose, ↓reduceIte, Option.elim_some]
    · simp only [loose, Bool.false_eq_true, ↓reduceIte, Option.elim_none]

end Passing

/-! ## Positions -/

/-- What is left behind a form is a suffix. -/
theorem formRest_suffix {input rest : List Char} (read : formRest input = some rest) :
    rest <:+ input := by
  have group : ∀ {opener closer : Char} {tail : List Char}, closerOf? opener = some closer →
      groupRest closer [] tail = some rest → rest <:+ opener :: tail := by
    intro opener closer tail pair found
    obtain ⟨inside, _, rfl⟩ := (groupRest_iff pair tail rest).mp found
    exact ⟨opener :: (inside ++ [closer]), by simp⟩
  unfold formRest at read
  fun_induction formRestBy commentLength? input with
  | case1 | case7 | case11 => contradiction
  | case2 c tail _ ih =>
    have blanks := skipBlankBy_suffix commentLength? (markRest c tail)
    exact (((ih read).trans blanks).trans (markRest_suffix c tail)).trans (List.suffix_cons c tail)
  | case3 tail closer behind found _ =>
    have parts := dispatch_cases tail
    rw [found] at parts
    obtain ⟨opener, pair, rfl⟩ := parts
    exact (group pair read).trans (List.suffix_cons _ _)
  | case4 tail behind found _ =>
    have parts := dispatch_cases tail
    rw [found] at parts
    subst parts
    exact ((stringRest_suffix read).trans (List.suffix_cons _ _)).trans (List.suffix_cons _ _)
  | case5 tail behind found _ ih =>
    have inside := dispatch_suffix tail
    rw [found] at inside
    have blanks := skipBlankBy_suffix commentLength? behind
    exact (((ih read).trans blanks).trans inside).trans (List.suffix_cons _ _)
  | case6 tail behind found _ ih =>
    have inside := dispatch_suffix tail
    rw [found] at inside
    exact ((ih read).trans inside).trans (List.suffix_cons _ _)
  | case8 tail => exact (stringRest_suffix read).trans (List.suffix_cons _ _)
  | case9 tail =>
    cases read
    exact (charRest_suffix tail).trans (List.suffix_cons _ _)
  | case10 c tail _ _ _ _ closer pair => exact group pair read
  | case12 c tail =>
    cases read
    exact List.dropWhile_suffix _

/-- A form leaves what stands from its end on, and its end lies behind its start. -/
theorem formEnd?_iff {text : List Char} {start stop : Nat} :
    formEnd? text start = some stop ↔
      formRest (text.drop start) = some (text.drop stop) ∧ start < stop ∧ stop ≤ text.length := by
  simp only [formEnd?, Option.map_eq_some_iff]
  constructor
  · rintro ⟨rest, read, rfl⟩
    have suffix := formRest_suffix read
    have shorter := length_formRestBy_lt read
    rw [List.length_drop] at shorter
    refine ⟨?_, by omega, Nat.sub_le _ _⟩
    rw [← List.suffix_iff_eq_drop.mp (suffix.trans (List.drop_suffix start text))]
    exact read
  · rintro ⟨read, _, bound⟩
    refine ⟨_, read, ?_⟩
    rw [List.length_drop]
    omega

/-- The input from the end of blanks on is what is left of it after them. -/
theorem drop_blankEnd (text : List Char) (start : Nat) :
    text.drop (blankEnd text start) = skipBlank (text.drop start) := by
  have suffix := (skipBlankBy_suffix commentLength? (text.drop start)).trans
    (List.drop_suffix start text)
  exact (List.suffix_iff_eq_drop.mp suffix).symm

/-- Blanks end where they start or behind it, in the text. -/
theorem blankEnd_bounds {text : List Char} {start : Nat} (inside : start ≤ text.length) :
    start ≤ blankEnd text start ∧ blankEnd text start ≤ text.length := by
  have shorter := length_skipBlankBy_le commentLength? (text.drop start)
  rw [List.length_drop] at shorter
  simp only [blankEnd, skipBlank]
  omega

/-- A reading goes on in the text. -/
theorem ReadsTo.bounds {text : List Char} {start stop : Nat} (reads : ReadsTo text start stop)
    (inside : start ≤ text.length) : start ≤ stop ∧ stop ≤ text.length := by
  induction reads with
  | blanks start => exact blankEnd_bounds inside
  | form read _ ih =>
    have blanks := blankEnd_bounds inside
    obtain ⟨_, behind, bound⟩ := formEnd?_iff.mp read
    have later := ih bound
    omega

/-- There are no forms in front of a position where blanks end. -/
theorem formsIn_blankEnd {text : List Char} {start : Nat} (inside : start ≤ text.length) :
    formsIn text start (blankEnd text start) = [] := by
  have blanks := blankEnd_bounds inside
  have width : (skipBlankBy commentLength? (text.drop start)).length ≤
      text.length - blankEnd text start := by
    have same := congrArg List.length (drop_blankEnd text start)
    rw [List.length_drop] at same
    exact Nat.le_of_eq same.symm
  rw [formsIn, extentsBy, if_pos width]
  rfl

/-- The first of the forms between two positions stands behind the blanks. -/
theorem formsIn_form {text : List Char} {start next stop : Nat}
    (read : formEnd? text (blankEnd text start) = some next) (within : next ≤ stop)
    (bound : stop ≤ text.length) :
    formsIn text start stop = ⟨blankEnd text start, next⟩ :: formsIn text next stop := by
  obtain ⟨found, behind, inside⟩ := formEnd?_iff.mp read
  rw [drop_blankEnd] at found
  have width : (skipBlankBy commentLength? (text.drop start)).length =
      text.length - blankEnd text start := by
    rw [← List.length_drop, drop_blankEnd]
    rfl
  have step : extentsBy commentLength? (text.length - stop) (text.drop start) =
      ((skipBlankBy commentLength? (text.drop start)).length, (text.drop next).length) ::
        extentsBy commentLength? (text.length - stop) (text.drop next) := by
    rw [extentsBy, if_neg (by omega)]
    split
    · rename_i missing
      have one := missing.symm.trans found
      contradiction
    · rename_i rest present
      have same : rest = text.drop next := by
        have one := present.symm.trans found
        exact Option.some.inj one
      subst same
      rw [if_neg (by rw [List.length_drop]; omega)]
  rw [formsIn, step, List.map_cons, width, List.length_drop]
  simp only [formsIn, List.cons.injEq, Span.mk.injEq, and_true]
  omega

/-! ## Both readings of a group -/

/-- The scan of a group comes to where a reading of forms arrives. With a loose token among the
forms it comes to where the scan goes on behind the character that the first one hides. -/
theorem groupRest_reading (closer : Char) (outer : List Char) {text : List Char} {start stop : Nat}
    (reads : ReadsTo text start stop) (inside : start ≤ text.length) :
    groupRest closer outer (text.drop start) =
      groupRest closer outer
        ((firstLoose? text start stop).elim (text.drop stop) (List.drop 1)) := by
  induction reads with
  | blanks start =>
    rw [firstLoose?, formsIn_blankEnd inside, drop_blankEnd, ← groupRest_skipBlank]
    rfl
  | @form start next stop read reads ih =>
    obtain ⟨found, _, bound⟩ := formEnd?_iff.mp read
    obtain ⟨within, last⟩ := reads.bounds bound
    have passed := groupRest_formRest closer outer found
    rw [drop_blankEnd, groupRest_skipBlank] at passed
    rw [passed, firstLoose?, formsIn_form read within last, List.findSome?_cons, drop_blankEnd]
    cases behindLoose? (skipBlank (text.drop start)) with
    | none => exact ih bound
    | some behind => rfl

/-- Both readings of a group end it at the same bracket exactly as far as no loose token parts them.
Without a loose token among the forms they agree; with one they agree exactly when the scan from
behind the hidden character comes to that bracket too; and with one right in front of the bracket
they never do. -/
theorem readings_agree_iff {text : List Char} {start stop : Nat} {opener closer : Char}
    (found : text[start]? = some opener) (pair : closerOf? opener = some closer)
    (arrives : ReadsTo text (start + 1) stop) (closes : text[stop]? = some closer) :
    (firstLoose? text (start + 1) stop = none → formEnd? text start = some (stop + 1)) ∧
      (∀ behind, firstLoose? text (start + 1) stop = some behind →
        (formEnd? text start = some (stop + 1) ↔
          groupRest closer [] (behind.drop 1) = some (text.drop (stop + 1)))) ∧
      (firstLoose? text (start + 1) stop = some (text.drop stop) →
        formEnd? text start ≠ some (stop + 1)) := by
  have inside : start + 1 ≤ text.length := (List.getElem?_eq_some_iff.mp found).1
  have last : stop + 1 ≤ text.length := (List.getElem?_eq_some_iff.mp closes).1
  have order := (arrives.bounds inside).1
  have reading := groupRest_reading closer [] arrives inside
  have ends : formEnd? text start = some (stop + 1) ↔
      groupRest closer [] (text.drop (start + 1)) = some (text.drop (stop + 1)) := by
    rw [formEnd?_iff, drop_of_getElem? found, formRest_group pair]
    exact and_iff_left ⟨by omega, last⟩
  refine ⟨?_, ?_, ?_⟩
  · intro tight
    rw [ends, reading, tight, Option.elim_none, drop_of_getElem? closes,
      groupRest_close (isCloser_of_closerOf? pair)]
  · intro behind loose
    rw [ends, reading, loose, Option.elim_some]
  · intro loose agrees
    rw [ends, reading, loose, Option.elim_some, List.drop_drop] at agrees
    have shorter := length_groupRestBy_lt agrees
    omega

/-- A list with a character literal, a comment and a tagged vector is read the same in both ways. -/
theorem readings_agree_iff_tight :
    "(\\) ;(\n#a [b])".toList[0]? = some '(' ∧ closerOf? '(' = some ')' ∧
      ReadsTo "(\\) ;(\n#a [b])".toList 1 13 ∧ "(\\) ;(\n#a [b])".toList[13]? = some ')' ∧
      formEnd? "(\\) ;(\n#a [b])".toList 0 = some 14 := by
  have literal : formEnd? "(\\) ;(\n#a [b])".toList
      (blankEnd "(\\) ;(\n#a [b])".toList 1) = some 3 := by decide +kernel
  have tagged : formEnd? "(\\) ;(\n#a [b])".toList
      (blankEnd "(\\) ;(\n#a [b])".toList 3) = some 13 := by decide +kernel
  have blanks : blankEnd "(\\) ;(\n#a [b])".toList 13 = 13 := by decide +kernel
  have last := @ReadsTo.blanks "(\\) ;(\n#a [b])".toList 13
  rw [blanks] at last
  have arrives := ReadsTo.form literal (ReadsTo.form tagged last)
  have opens : "(\\) ;(\n#a [b])".toList[0]? = some '(' := by decide
  have closes : "(\\) ;(\n#a [b])".toList[13]? = some ')' := by decide
  have tight : firstLoose? "(\\) ;(\n#a [b])".toList 1 13 = none := by decide +kernel
  exact ⟨opens, rfl, arrives, closes, (readings_agree_iff opens rfl arrives closes).1 tight⟩

/-- In `(a\) b)` the forms read one after another come to the bracket behind the loose token, while
the scan takes that bracket for a literal and ends at the next one. -/
theorem readings_part_at_loose_token :
    "(a\\) b)".toList[0]? = some '(' ∧ closerOf? '(' = some ')' ∧
      ReadsTo "(a\\) b)".toList 1 3 ∧ "(a\\) b)".toList[3]? = some ')' ∧
      formEnd? "(a\\) b)".toList 0 = some 7 := by
  have token : formEnd? "(a\\) b)".toList (blankEnd "(a\\) b)".toList 1) = some 3 := by
    decide +kernel
  have blanks : blankEnd "(a\\) b)".toList 3 = 3 := by decide +kernel
  have last := @ReadsTo.blanks "(a\\) b)".toList 3
  rw [blanks] at last
  exact ⟨by decide, rfl, .form token last, by decide, by decide +kernel⟩

end EvalDesk.Form
