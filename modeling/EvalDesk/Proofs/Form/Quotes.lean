import EvalDesk.Proofs.Form.Descent

/-!
# Quotes of a line

The strings of a text are those that its forms are about, at every depth, be they regular
expressions; two of them never overlap. On a line that is read completely every quote has its place:
it stands in a string, or right behind the backslash of a character literal, or in a comment. In
front of what a form is about, where marks, dispatches and tags stand, there are none.
-/
namespace EvalDesk.Form

/-- Where what a form is about starts. -/
def corePlace (text : List Char) (form : Span) : Nat :=
  text.length - (core (text.drop form.start)).length

/-- The string that a form is about, from its opening quote to its closing quote. -/
def stringOf? (text : List Char) (form : Span) : Option Span :=
  if text[corePlace text form]? = some '"' then some ⟨corePlace text form, form.stop⟩ else none

/-- The strings of a text, those of regular expressions among them. -/
def literals (text : List Char) : List Span := (tree text).filterMap (stringOf? text)

/-- The inside of the group that a form is about, without its brackets. -/
def body? (text : List Char) (form : Span) : Option (Nat × Nat) :=
  (bracket? text form).map fun bracket => (bracket + 1, form.stop - 1)

/-- The stretches of a text in which forms are read one after another: the text, and the inside of
each group. -/
def levels (text : List Char) : List (Nat × Nat) :=
  (0, text.length) :: (tree text).filterMap (body? text)

/-- Where the last form between two positions ends. -/
def lastStop (text : List Char) (low high : Nat) : Nat :=
  ((formsIn text low high).getLast?.map Span.stop).getD low

/-- Behind the last form between two positions there are only blanks and comments. -/
def Covered (text : List Char) (low high : Nat) : Prop :=
  high ≤ blankEnd text (lastStop text low high)

/-- The text is read completely at every depth. -/
def CompletelyRead (text : List Char) : Prop :=
  ∀ level ∈ levels text, Covered text level.1 level.2

/-- The place stands in the comment behind the last form between two positions. -/
def Commented (text : List Char) (low high place : Nat) : Prop :=
  ∃ blanks rest, text.drop (lastStop text low high) = blanks ++ ';' :: rest ∧
    (∀ c ∈ blanks, isBlank c = true) ∧ lastStop text low high + blanks.length < place ∧
    place < high

/-- The place stands right behind the backslash of a character literal. -/
def isLiteral (text : List Char) (form : Span) (place : Nat) : Bool :=
  text[corePlace text form]? = some '\\' && place = corePlace text form + 1

/-- What a form is about, as it is written. -/
inductive About (text : List Char) (form : Span) : Prop where
  /-- A string. -/
  | string (inside : List Char) (opens : text[corePlace text form]? = some '"')
    (body : StringInside inside)
    (parts : text.drop (corePlace text form + 1) = inside ++ '"' :: text.drop form.stop)
  /-- A character literal: one character at most, or a run of alphanumeric ones. -/
  | literal (run : List Char) (opens : text[corePlace text form]? = some '\\')
    (short : run.length ≤ 1 ∨ ∀ c ∈ run, Text.isAlphanumeric c = true)
    (parts : text.drop (corePlace text form + 1) = run ++ text.drop form.stop)
  /-- A group. -/
  | group (opener closer : Char) (inside : List Char) (pair : closerOf? opener = some closer)
    (opens : text[corePlace text form]? = some opener)
    (parts : text.drop (corePlace text form + 1) = inside ++ closer :: text.drop form.stop)
  /-- A token. -/
  | token (run : List Char) (own : ∀ c ∈ run, endsToken c = false)
    (parts : text.drop (corePlace text form) = run ++ text.drop form.stop)

/-! ## What a form is about -/

variable {text : List Char} {form span : Span} {low high place : Nat}

/-- What a form is about starts in the form with a character that is neither a mark nor a number
sign, and it ends where the form ends. -/
theorem corePlace_spec (read : formEnd? text form.start = some form.stop) :
    form.start ≤ corePlace text form ∧ corePlace text form < form.stop ∧
      text.drop (corePlace text form) = core (text.drop form.start) ∧
      formRest (text.drop (corePlace text form)) = some (text.drop form.stop) ∧
      ∃ c, text[corePlace text form]? = some c ∧ isMark c = false ∧ c ≠ '#' := by
  obtain ⟨whole, order, bound⟩ := formEnd?_iff.mp read
  obtain ⟨atCore, c, tail, first, mark, sign⟩ := formRest_core whole
  have isEnd := core_suffix (text.drop form.start)
  have cut : text.drop (corePlace text form) = core (text.drop form.start) :=
    (List.suffix_iff_eq_drop.mp (isEnd.trans (List.drop_suffix _ text))).symm
  have size := isEnd.length_le
  have shorter := length_formRestBy_lt atCore
  rw [List.length_drop] at size shorter
  have ahead := congrArg (·[0]?) (cut.trans first)
  refine ⟨?_, ?_, cut, by rw [cut]; exact atCore, c, by simpa using ahead, mark, sign⟩
  · simp only [corePlace]
    omega
  · simp only [corePlace]
    omega

/-- A character literal takes one character at most or a run of alphanumeric ones. -/
theorem charRest_cases (input : List Char) :
    ∃ run, (run.length ≤ 1 ∨ ∀ c ∈ run, Text.isAlphanumeric c = true) ∧
      input = run ++ charRest input := by
  cases input with
  | nil => exact ⟨[], .inl (Nat.zero_le _), rfl⟩
  | cons c rest =>
    by_cases word : Text.isAlphanumeric c = true
    · refine ⟨c :: rest.takeWhile Text.isAlphanumeric, .inr ?_, ?_⟩
      · exact List.forall_mem_cons.mpr ⟨word, fun other => List.mem_takeWhile_imp⟩
      · rw [charRest, if_pos word, List.cons_append, List.takeWhile_append_dropWhile]
    · refine ⟨[c], .inl (Nat.le_refl _), ?_⟩
      rw [charRest, if_neg word]
      rfl

/-- A form that can be read is about a string, a character literal, a group or a token. -/
theorem about_of_formEnd? (read : formEnd? text form.start = some form.stop) :
    About text form := by
  obtain ⟨_, _, _, atCore, c, found, mark, sign⟩ := corePlace_spec read
  have split := drop_of_getElem? found
  rw [split, formRest_cons, mark, if_neg Bool.false_ne_true, if_neg sign] at atCore
  by_cases isString : c = '"'
  · subst isString
    rw [if_pos rfl] at atCore
    obtain ⟨inside, body, parts⟩ := (stringRest_iff _ _).mp atCore
    exact .string inside found body parts
  by_cases isEscape : c = '\\'
  · subst isEscape
    rw [if_neg isString, if_pos rfl, Option.some.injEq] at atCore
    obtain ⟨run, short, parts⟩ := charRest_cases (text.drop (corePlace text form + 1))
    rw [atCore] at parts
    exact .literal run found short parts
  rw [if_neg isString, if_neg isEscape] at atCore
  cases pair : closerOf? c with
  | some closer =>
    rw [pair] at atCore
    obtain ⟨inside, -, parts⟩ := (groupRest_iff pair _ _).mp atCore
    exact .group c closer inside pair found parts
  | none =>
    rw [pair] at atCore
    dsimp only at atCore
    split at atCore
    · contradiction
    · refine .token ((text.drop (corePlace text form)).takeWhile (!endsToken ·))
        inside_of_mem_takeWhile ?_
      conv_lhs => rw [← takeWhile_append_tokenRest (text.drop (corePlace text form))]
      rw [split, Option.some.inj atCore]

/-- A form is about a group exactly when it is about something that starts with a bracket. -/
theorem bracket?_eq (read : formEnd? text form.start = some form.stop) :
    bracket? text form =
      if text[corePlace text form]?.any fun c => (closerOf? c).isSome then
        some (corePlace text form) else none := by
  obtain ⟨_, _, cut, _, c, found, _⟩ := corePlace_spec read
  have first := cut.symm.trans (drop_of_getElem? found)
  have place : corePlace text form =
      text.length - ((text.drop (corePlace text form + 1)).length + 1) := by
    have size := congrArg List.length first
    conv_lhs => rw [corePlace, size, List.length_cons]
  rw [bracket?, first, found, Option.any_some]
  dsimp only
  rw [← place]

/-- The string of a form lies in it and ends where it ends, and it is written between quotes. -/
theorem stringOf?_spec (read : formEnd? text form.start = some form.stop)
    (found : stringOf? text form = some span) :
    form.start ≤ span.start ∧ span.start < span.stop ∧ span.stop = form.stop ∧
      bracket? text form = none ∧ text[span.start]? = some '"' ∧ ∃ inside, StringInside inside ∧
        text.drop (span.start + 1) = inside ++ '"' :: text.drop span.stop := by
  obtain ⟨starts, stops, _, atCore, _⟩ := corePlace_spec read
  unfold stringOf? at found
  split at found
  · rename_i quote
    cases found
    rw [drop_of_getElem? quote, formRest_cons, if_neg (by decide), if_neg (by decide),
      if_pos rfl] at atCore
    refine ⟨starts, stops, rfl, ?_, quote, (stringRest_iff _ _).mp atCore⟩
    rw [bracket?_eq read, quote]
    rfl
  · contradiction

/-- A string of the text is the one of a form of its tree. -/
theorem mem_literals : span ∈ literals text ↔ ∃ form ∈ tree text,
    formEnd? text form.start = some form.stop ∧ stringOf? text form = some span := by
  rw [literals, List.mem_filterMap]
  constructor
  · rintro ⟨form, member, found⟩
    exact ⟨form, member, (treeIn_bounds member).2.2, found⟩
  · rintro ⟨form, member, -, found⟩
    exact ⟨form, member, found⟩

/-- A string of the text starts with a quote, and it is written between quotes. -/
theorem literals_spec (member : span ∈ literals text) :
    span.start < span.stop ∧ span.stop ≤ text.length ∧ text[span.start]? = some '"' ∧
      ∃ inside, StringInside inside ∧
        text.drop (span.start + 1) = inside ++ '"' :: text.drop span.stop := by
  obtain ⟨form, _, read, found⟩ := mem_literals.mp member
  obtain ⟨_, order, ends, _, written⟩ := stringOf?_spec read found
  have bound := (formEnd?_iff.mp read).2.2
  exact ⟨order, by omega, written⟩

/-- Two strings of a text are the same one when one of them starts in the other. -/
theorem literals_apart {other : Span} (one : span ∈ literals text) (two : other ∈ literals text)
    (starts : span.start ≤ other.start) (inside : other.start < span.stop) : other = span := by
  obtain ⟨form, member, read, found⟩ := mem_literals.mp one
  obtain ⟨form', member', read', found'⟩ := mem_literals.mp two
  obtain ⟨behind, _, ends, leaf, _⟩ := stringOf?_spec read found
  obtain ⟨behind', filled, ends', leaf', _⟩ := stringOf?_spec read' found'
  -- Neither of the forms has children, so the one that starts in the other is that form.
  have same : form' = form := by
    rcases Nat.le_total form.start form'.start with first | second
    · rcases treeIn_nested member member' first (by omega) with same | ⟨child, below, _⟩
      · exact same
      · simp [children, leaf] at below
    · rcases treeIn_nested member' member second (by omega) with same | ⟨child, below, _⟩
      · exact same.symm
      · simp [children, leaf'] at below
  rw [same, found] at found'
  exact (Option.some.inj found').symm

/-! ## In front of what a form is about -/

/-- The input goes on with the rest, and no quote stands in front of it. -/
def Unquoted (input rest : List Char) : Prop := ∃ ahead, '"' ∉ ahead ∧ input = ahead ++ rest

/-- Nothing in front has no quote. -/
theorem Unquoted.refl (input : List Char) : Unquoted input input := ⟨[], List.not_mem_nil, rfl⟩

/-- What has no quote is put together. -/
theorem Unquoted.trans {input between rest : List Char} (first : Unquoted input between)
    (second : Unquoted between rest) : Unquoted input rest := by
  obtain ⟨ahead, clear, rfl⟩ := first
  obtain ⟨further, unquoted, rfl⟩ := second
  refine ⟨ahead ++ further, ?_, (List.append_assoc _ _ _).symm⟩
  rw [List.mem_append]
  exact not_or.mpr ⟨clear, unquoted⟩

/-- A character other than a quote stands in front. -/
theorem Unquoted.cons {c : Char} {input rest : List Char} (other : c ≠ '"')
    (unquoted : Unquoted input rest) : Unquoted (c :: input) rest :=
  Unquoted.trans ⟨[c], by simpa using other.symm, rfl⟩ unquoted

/-- A blank is no quote. -/
theorem ne_quote_of_isBlank {c : Char} (blank : isBlank c = true) : c ≠ '"' := by
  rintro rfl
  exact absurd blank (by decide)

/-- What is passed over on a line are blanks, and a comment that takes all that is left. -/
theorem skipBlank_cases {input : List Char} (single : '\n' ∉ input) :
    ∃ blanks, (∀ c ∈ blanks, isBlank c = true) ∧
      (input = blanks ++ skipBlank input ∨
        ∃ rest, input = blanks ++ ';' :: rest ∧ skipBlank input = []) := by
  induction input with
  | nil => exact ⟨[], by simp, .inl (by rw [skipBlank, skipBlankBy]; rfl)⟩
  | cons c rest ih =>
    rw [skipBlank_cons]
    by_cases blank : isBlank c = true
    · obtain ⟨blanks, all, parts⟩ := ih fun feed => single (.tail _ feed)
      rw [if_pos blank]
      refine ⟨c :: blanks, List.forall_mem_cons.mpr ⟨blank, all⟩, ?_⟩
      rcases parts with same | ⟨more, same, nothing⟩
      · exact .inl (congrArg (c :: ·) same)
      · exact .inr ⟨more, congrArg (c :: ·) same, nothing⟩
    · rw [if_neg blank]
      by_cases semicolon : c = ';'
      · have endless : commentLength? rest = none := by
          cases reach : commentLength? rest with
          | none => rfl
          | some length =>
            obtain ⟨line, behind, -, rfl, -⟩ := (commentLength?_iff rest length).mp reach
            exact absurd (by simp) single
        rw [if_pos semicolon, endless]
        exact ⟨[], by simp, .inr ⟨rest, by rw [semicolon]; rfl, rfl⟩⟩
      · rw [if_neg semicolon]
        exact ⟨[], by simp, .inl rfl⟩

/-- Blanks in front of a form have no quote. -/
theorem unquoted_skipBlank {input : List Char} (single : '\n' ∉ input)
    (filled : skipBlank input ≠ []) : Unquoted input (skipBlank input) := by
  obtain ⟨blanks, all, same | ⟨_, _, nothing⟩⟩ := skipBlank_cases single
  · exact ⟨blanks, fun quote => ne_quote_of_isBlank (all _ quote) rfl, same⟩
  · exact absurd nothing filled

/-- An at sign is no quote. -/
theorem unquoted_dropAt (input : List Char) : Unquoted input (dropAt input) := by
  unfold dropAt
  split
  · exact Unquoted.cons (by decide) (.refl _)
  · exact .refl _

/-- A mark is no quote. -/
theorem unquoted_markRest {c : Char} (mark : isMark c = true) (rest : List Char) :
    Unquoted (c :: rest) (markRest c rest) := by
  have other : c ≠ '"' := by
    rintro rfl
    exact absurd mark (by decide)
  refine Unquoted.cons other ?_
  unfold markRest
  split
  · exact unquoted_dropAt rest
  · exact .refl _

/-- A token has no quote. -/
theorem unquoted_tokenRest (input : List Char) : Unquoted input (tokenRest input) :=
  ⟨input.takeWhile (!endsToken ·), fun quote =>
    absurd (inside_of_mem_takeWhile _ quote) (by decide),
    (takeWhile_append_tokenRest input).symm⟩

/-- What a number sign takes before a form has no quote. -/
theorem unquoted_dispatch_form {input behind : List Char} (found : dispatch input = .form behind) :
    Unquoted input behind := by
  have parts := dispatch_cases input
  rw [found] at parts
  rcases parts with ⟨c, plain, rfl⟩ | rfl
  · exact Unquoted.cons (isPlain_iff.mp plain).1 (.refl _)
  · exact unquoted_tokenRest input

/-- In front of what a form on a line is about stands no quote. -/
theorem unquoted_core {input rest : List Char} (single : '\n' ∉ input)
    (read : formRest input = some rest) : Unquoted input (core input) := by
  have filled : ∀ {input : List Char}, formRest input = some rest → input ≠ [] := by
    rintro _ found rfl
    rw [formRest, formRestBy] at found
    contradiction
  -- Behind blanks a form goes on with its core.
  have behind_blanks : ∀ {input : List Char}, '\n' ∉ input →
      formRest (skipBlank input) = some rest →
      ('\n' ∉ skipBlank input → formRest (skipBlank input) = some rest →
        Unquoted (skipBlank input) (core (skipBlank input))) →
      Unquoted input (core (skipBlank input)) := by
    intro input clear found ih
    have further := (skipBlankBy_suffix commentLength? input).subset
    exact (unquoted_skipBlank clear (filled found)).trans
      (ih (fun feed => clear (further feed)) found)
  fun_induction core input with
  | case1 => exact .refl _
  | case2 c tail mark ih =>
    rw [formRest_cons, if_pos mark] at read
    have clear : '\n' ∉ markRest c tail := fun feed =>
      single (.tail _ ((markRest_suffix c tail).subset feed))
    exact (unquoted_markRest mark tail).trans (behind_blanks clear read ih)
  | case3 | case4 => exact Unquoted.cons (by decide) (.refl _)
  | case5 tail behind found mark ih =>
    rw [formRest_cons, if_neg mark, if_pos rfl, found] at read
    have inside := dispatch_suffix tail
    rw [found] at inside
    have clear : '\n' ∉ behind := fun feed => single (.tail _ (inside.subset feed))
    exact Unquoted.cons (by decide)
      ((unquoted_dispatch_form found).trans (behind_blanks clear read ih))
  | case6 tail behind found mark ih =>
    rw [formRest_cons, if_neg mark, if_pos rfl, found] at read
    have parts := dispatch_cases tail
    rw [found] at parts
    obtain ⟨inner, rfl, rfl⟩ := parts
    have inside := (dropAt_suffix inner).subset
    have clear : '\n' ∉ dropAt inner := fun feed => single (.tail _ (.tail _ (inside feed)))
    exact Unquoted.cons (by decide)
      (Unquoted.cons (by decide) ((unquoted_dropAt inner).trans (ih clear read)))
  | case7 | case8 => exact .refl _

/-- A character of a text between two places is one of those that stand between them. -/
theorem mem_of_drop_eq {own : List Char} {start stop : Nat} {c : Char}
    (parts : text.drop start = own ++ text.drop stop) (found : text[place]? = some c)
    (starts : start ≤ place) (stops : place < stop) : c ∈ own := by
  have inside : place < text.length := (List.getElem?_eq_some_iff.mp found).1
  have size := congrArg List.length parts
  rw [List.length_append, List.length_drop, List.length_drop] at size
  have here : (text.drop start)[place - start]? = some c := by
    rw [List.getElem?_drop, Nat.add_sub_cancel' starts]
    exact found
  rw [parts, List.getElem?_append_left (by omega)] at here
  exact List.mem_of_getElem? here

/-- A character of a text stands behind what stands in front of it. -/
theorem getElem?_of_drop_eq {own rest : List Char} {start : Nat} {c : Char}
    (parts : text.drop start = own ++ c :: rest) : text[start + own.length]? = some c := by
  have here := congrArg (·[own.length]?) parts
  simpa only [List.getElem?_drop, List.getElem?_append_right (Nat.le_refl _), Nat.sub_self,
    List.getElem?_cons_zero] using here

/-- A quote in a form on a line does not stand in front of what the form is about. -/
theorem corePlace_le_of_quote (single : '\n' ∉ text)
    (read : formEnd? text form.start = some form.stop) (quote : text[place]? = some '"')
    (starts : form.start ≤ place) : corePlace text form ≤ place := by
  obtain ⟨whole, _⟩ := formEnd?_iff.mp read
  obtain ⟨_, _, cut, _⟩ := corePlace_spec read
  have clear : '\n' ∉ text.drop form.start := fun feed => single (List.mem_of_mem_drop feed)
  obtain ⟨ahead, unquoted, parts⟩ := unquoted_core clear whole
  rw [← cut] at parts
  by_contra before
  exact unquoted (mem_of_drop_eq parts quote starts (by omega))

/-! ## Where a quote may stand -/

/-- On a line, what is passed over up to a quote starts a comment in front of it, and the comment
goes to the end. -/
theorem comment_of_quote (single : '\n' ∉ text) (quote : text[place]? = some '"')
    (starts : low ≤ place) (passed : place < blankEnd text low) :
    blankEnd text low = text.length ∧ ∃ blanks rest, text.drop low = blanks ++ ';' :: rest ∧
      (∀ c ∈ blanks, isBlank c = true) ∧ low + blanks.length < place := by
  have clear : '\n' ∉ text.drop low := fun feed => single (List.mem_of_mem_drop feed)
  have inside : place < text.length := (List.getElem?_eq_some_iff.mp quote).1
  have here : (text.drop low)[place - low]? = some '"' := by
    rw [List.getElem?_drop, Nat.add_sub_cancel' starts]
    exact quote
  obtain ⟨blanks, all, parts⟩ := skipBlank_cases clear
  have in_front : ∀ {rest}, text.drop low = blanks ++ rest → blanks.length ≤ place - low := by
    intro rest same
    by_contra before
    rw [same, List.getElem?_append_left (by omega)] at here
    exact ne_quote_of_isBlank (all _ (List.mem_of_getElem? here)) rfl
  rcases parts with same | ⟨rest, same, nothing⟩
  · have behind := in_front same
    have size := congrArg List.length same
    rw [List.length_append, List.length_drop] at size
    rw [blankEnd] at passed
    omega
  · refine ⟨by rw [blankEnd, nothing]; rfl, blanks, rest, same, all, ?_⟩
    have behind := in_front same
    rcases Nat.eq_or_lt_of_le behind with last | before
    · rw [same, ← last, List.getElem?_append_right (Nat.le_refl _), Nat.sub_self] at here
      exact absurd here (by simp)
    · omega

/-- The first of the forms between two positions stands behind the blanks, and the others behind
it. -/
theorem formsIn_cons {first : Span} {others : List Span}
    (parts : formsIn text low high = first :: others) :
    first.start = blankEnd text low ∧ others = formsIn text first.stop high := by
  rw [formsIn, extentsBy] at parts
  split at parts
  · contradiction
  · split at parts
    · contradiction
    · rename_i rest read
      split at parts
      · contradiction
      · obtain ⟨rfl, rfl⟩ := List.cons.inj parts
        have behind := (formRest_suffix read).trans
          ((skipBlankBy_suffix commentLength? _).trans (List.drop_suffix low text))
        refine ⟨rfl, ?_⟩
        rw [formsIn, ← List.suffix_iff_eq_drop.mp behind]

/-- On a line between two positions that is covered by forms, blanks and comments a quote stands in
a form or in the comment behind the last one. -/
theorem quote_on_level (single : '\n' ∉ text) (bound : high ≤ text.length)
    (covered : Covered text low high) (quote : text[place]? = some '"') (starts : low ≤ place)
    (stops : place < high) :
    (∃ form ∈ formsIn text low high, form.start ≤ place ∧ place < form.stop) ∨
      Commented text low high place := by
  induction parts : formsIn text low high generalizing low with
  | nil =>
    have last : lastStop text low high = low := by rw [lastStop, parts]; rfl
    rw [Covered, last] at covered
    obtain ⟨-, blanks, rest, same, all, before⟩ :=
      comment_of_quote single quote starts (by omega)
    exact .inr ⟨blanks, rest, by rw [last]; exact same, all, by rw [last]; exact before, stops⟩
  | cons first others ih =>
    have member : first ∈ formsIn text low high := parts ▸ .head _
    obtain ⟨_, filled, within⟩ := formsIn_bounds member
    obtain ⟨behind, rest⟩ := formsIn_cons parts
    by_cases gap : place < first.start
    · -- A comment would leave no room for the form.
      rw [behind] at gap filled
      obtain ⟨ended, -⟩ := comment_of_quote single quote starts gap
      omega
    · by_cases own : place < first.stop
      · exact .inl ⟨first, .head _, by omega, own⟩
      · have last : lastStop text low high = lastStop text first.stop high := by
          rw [lastStop, lastStop, parts, rest]
          cases formsIn text first.stop high with
          | nil => rfl
          | cons next more => simp [List.getLast?_cons]
        rw [Covered, last] at covered
        rcases ih covered (by omega) rest.symm with ⟨form, listed, around⟩ | comment
        · exact .inl ⟨form, .tail _ listed, around⟩
        · rw [Commented, ← last] at comment
          exact .inr comment

/-- A quote in a form on a line stands in the string that the form is about, right behind the
backslash of the literal that it is about, or inside its group. -/
theorem quote_in_form (single : '\n' ∉ text) (read : formEnd? text form.start = some form.stop)
    (quote : text[place]? = some '"') (starts : form.start ≤ place) (stops : place < form.stop) :
    (∃ span, stringOf? text form = some span ∧ span.start ≤ place ∧ place < span.stop) ∨
      isLiteral text form place = true ∨
      ∃ bracket, bracket? text form = some bracket ∧ bracket < place ∧ place < form.stop - 1 := by
  have behind := corePlace_le_of_quote single read quote starts
  have later : ∀ {c : Char}, text[corePlace text form]? = some c → c ≠ '"' →
      corePlace text form < place := by
    intro c found other
    refine Nat.lt_of_le_of_ne behind ?_
    rintro rfl
    exact other (Option.some.inj (found.symm.trans quote))
  cases about_of_formEnd? read with
  | string inside opens body parts => exact .inl ⟨_, if_pos opens, behind, stops⟩
  | literal run opens short parts =>
    have after := later opens (by decide)
    have member := mem_of_drop_eq parts quote after stops
    refine .inr (.inl ?_)
    rcases short with single | word
    · have sizes := congrArg List.length parts
      have bound := (formEnd?_iff.mp read).2.2
      rw [List.length_append, List.length_drop, List.length_drop] at sizes
      have right : place = corePlace text form + 1 := by omega
      simp only [isLiteral, opens, right, decide_true, Bool.and_self]
    · exact absurd (word _ member) (by decide)
  | group opener closer inside pair opens parts =>
    have after := later opens (closerOf?_apart pair).1
    have sizes := congrArg List.length parts
    have bound := (formEnd?_iff.mp read).2.2
    rw [List.length_append, List.length_cons, List.length_drop, List.length_drop] at sizes
    refine .inr (.inr ⟨corePlace text form, ?_, after, ?_⟩)
    · rw [bracket?_eq read, opens, Option.any_some, pair]
      rfl
    · -- The last character of the form is its closing bracket.
      by_contra last
      have closes := getElem?_of_drop_eq parts
      rw [show corePlace text form + 1 + inside.length = place by omega, quote,
        Option.some.injEq] at closes
      exact (isCloser_apart (isCloser_of_closerOf? pair)).1 closes.symm
  | token run own parts =>
    have inside := own _ (mem_of_drop_eq parts quote behind stops)
    exact absurd inside (by decide)

/-- On a line between two positions that is covered at every depth every quote has its place. -/
theorem quote_below (single : '\n' ∉ text) (bound : high ≤ text.length)
    (covered : Covered text low high)
    (below : ∀ form ∈ treeIn text low high, ∀ level, body? text form = some level →
      Covered text level.1 level.2)
    (quote : text[place]? = some '"') (starts : low ≤ place) (stops : place < high) :
    (∃ form ∈ treeIn text low high, ∃ span, stringOf? text form = some span ∧
        span.start ≤ place ∧ place < span.stop) ∨
      (∃ form ∈ treeIn text low high, isLiteral text form place = true) ∨
      Commented text low high place ∨
      ∃ form ∈ treeIn text low high, ∃ level, body? text form = some level ∧
        Commented text level.1 level.2 place := by
  induction high using Nat.strong_induction_on generalizing low with
  | h high ih =>
    rcases quote_on_level single bound covered quote starts stops with
      ⟨form, member, first, last⟩ | comment
    · have bounds := formsIn_bounds member
      have own : form ∈ treeIn text low high := mem_treeIn.mpr ⟨form, member, .inl rfl⟩
      rcases quote_in_form single (formEnd?_of_mem_formsIn member) quote first last with
        isString | isEscape | ⟨bracket, opened, behind, before⟩
      · exact .inl ⟨form, own, isString⟩
      · exact .inr (.inl ⟨form, own, isEscape⟩)
      · have level : body? text form = some (bracket + 1, form.stop - 1) := by
          rw [body?, opened]
          rfl
        have deeper : ∀ other ∈ treeIn text (bracket + 1) (form.stop - 1),
            other ∈ treeIn text low high := fun other inside =>
          mem_treeIn.mpr ⟨form, member, .inr ⟨bracket, opened, inside⟩⟩
        rcases ih (form.stop - 1) (by omega) (by omega) (below form own _ level)
            (fun other inside => below other (deeper other inside)) behind before with
          ⟨other, inside, found⟩ | ⟨other, inside, found⟩ | comment | ⟨other, inside, found⟩
        · exact .inl ⟨other, deeper other inside, found⟩
        · exact .inr (.inl ⟨other, deeper other inside, found⟩)
        · exact .inr (.inr (.inr ⟨form, own, _, level, comment⟩))
        · exact .inr (.inr (.inr ⟨other, deeper other inside, found⟩))
    · exact .inr (.inr (.inl comment))

/-- On a line that is read completely a quote stands in a string, right behind the backslash of a
character literal, or in a comment. -/
theorem quote_placed (single : '\n' ∉ text) (complete : CompletelyRead text)
    (quote : text[place]? = some '"') :
    (∃ span ∈ literals text, span.start ≤ place ∧ place < span.stop) ∨
      (∃ form ∈ tree text, isLiteral text form place = true) ∨
      ∃ level ∈ levels text, Commented text level.1 level.2 place := by
  have inside : place < text.length := (List.getElem?_eq_some_iff.mp quote).1
  have below : ∀ form ∈ treeIn text 0 text.length, ∀ level, body? text form = some level →
      Covered text level.1 level.2 := fun form member level found =>
    complete level (.tail _ (List.mem_filterMap.mpr ⟨form, member, found⟩))
  rcases quote_below single (Nat.le_refl _) (complete _ (.head _)) below quote (Nat.zero_le _)
      inside with ⟨form, member, span, found, around⟩ | isEscape | comment |
      ⟨form, member, level, found, comment⟩
  · exact .inl ⟨span, List.mem_filterMap.mpr ⟨form, member, found⟩, around⟩
  · exact .inr (.inl isEscape)
  · exact .inr (.inr ⟨_, .head _, comment⟩)
  · exact .inr (.inr ⟨level, .tail _ (List.mem_filterMap.mpr ⟨form, member, found⟩), comment⟩)

end EvalDesk.Form
