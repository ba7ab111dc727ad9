import EvalDesk.Proofs.Form.Reader

/-!
# The grammar of groups

A group is an opening bracket, items, and the closing bracket of the same kind. An item is a
string, a character literal, a comment, a group, or a character of its own. The grammar is given
here apart from the reader: nested groups are nested derivations, while the reader goes over the
input once with the expected brackets on a stack. The main result is that both agree: the reader
ends a group exactly where the grammar does, and finds no end exactly where the grammar has none.
-/
namespace EvalDesk.Form

/-- The inside of a string: characters other than quotes and backslashes, and backslashes with the
character behind each. -/
inductive StringInside : List Char → Prop where
  /-- Nothing more. -/
  | nil : StringInside []
  /-- A character that stands for itself. -/
  | plain {c : Char} {rest : List Char} : c ≠ '"' → c ≠ '\\' → StringInside rest →
    StringInside (c :: rest)
  /-- A backslash and the character it takes along. -/
  | escaped {c : Char} {rest : List Char} : StringInside rest → StringInside ('\\' :: c :: rest)

/-- Items one after another. The run of alphanumeric characters of a literal is as long as it can
be. -/
inductive Items : List Char → Prop where
  /-- No more items. -/
  | nil : Items []
  /-- A string. -/
  | string {inside rest : List Char} : StringInside inside → Items rest →
    Items ('"' :: (inside ++ '"' :: rest))
  /-- A character literal of one character that is not alphanumeric. -/
  | sign {c : Char} {rest : List Char} : Text.isAlphanumeric c = false → Items rest →
    Items ('\\' :: c :: rest)
  /-- A character literal with a whole run of alphanumeric characters. -/
  | word {run rest : List Char} : run ≠ [] → (∀ c ∈ run, Text.isAlphanumeric c = true) →
    (∀ c ∈ rest.head?, Text.isAlphanumeric c = false) → Items rest → Items ('\\' :: (run ++ rest))
  /-- A comment with the line feed that ends it. -/
  | comment {line rest : List Char} : '\n' ∉ line → Items rest →
    Items (';' :: (line ++ '\n' :: rest))
  /-- A group. -/
  | group {opener closer : Char} {inside rest : List Char} : closerOf? opener = some closer →
    Items inside → Items rest → Items (opener :: (inside ++ closer :: rest))
  /-- Any other character. -/
  | plain {c : Char} {rest : List Char} : isPlain c = true → Items rest → Items (c :: rest)

/-- A text that is a group. -/
def IsGroup (text : List Char) : Prop :=
  ∃ opener inside closer, closerOf? opener = some closer ∧ Items inside ∧
    text = opener :: (inside ++ [closer])

/-- Where the group whose opening bracket stands at a position ends. -/
def groupEnd? (text : List Char) (start : Nat) : Option Nat :=
  match text.drop start with
  | [] => none
  | opener :: rest =>
    (closerOf? opener).bind fun closer =>
      (groupRest closer [] rest).map (text.length - ·.length)

/-! ## Items are what the reader passes over -/

/-- A string ends at its first quote that no backslash takes along. -/
theorem stringRest_iff (input rest : List Char) :
    stringRest input = some rest ↔
      ∃ inside, StringInside inside ∧ input = inside ++ '"' :: rest := by
  constructor
  · intro read
    fun_induction stringRest input with
    | case1 | case4 => contradiction
    | case2 tail =>
      cases read
      exact ⟨[], .nil, rfl⟩
    | case3 c tail ih =>
      obtain ⟨inside, body, rfl⟩ := ih read
      exact ⟨'\\' :: c :: inside, .escaped body, rfl⟩
    | case5 c tail quote escape last ih =>
      obtain ⟨inside, body, rfl⟩ := ih read
      have backslash : c ≠ '\\' := ne_backslash (fun same => last same) fun _ _ => escape _ _
      exact ⟨c :: inside, .plain quote backslash body, rfl⟩
  · rintro ⟨inside, body, rfl⟩
    induction body with
    | nil => rfl
    | plain quote backslash _ ih =>
      rw [List.cons_append, stringRest]
      · exact ih
      · exact quote
      · intro _ _ same
        exact absurd same backslash
      · intro same
        exact absurd same backslash
    | escaped _ ih => exact ih

/-- A string is passed over. -/
theorem groupRest_string (closer : Char) (outer : List Char) {inside : List Char}
    (body : StringInside inside) (rest : List Char) :
    groupRest closer outer ('"' :: (inside ++ '"' :: rest)) = groupRest closer outer rest := by
  have read := (stringRest_iff (inside ++ '"' :: rest) rest).mpr ⟨inside, body, rfl⟩
  rw [groupRest_cons, if_pos rfl, read]
  rfl

/-- Items are passed over, whatever groups are around them. -/
theorem groupRest_items {inside : List Char} (items : Items inside) (closer : Char)
    (outer rest : List Char) :
    groupRest closer outer (inside ++ rest) = groupRest closer outer rest := by
  induction items generalizing closer outer rest with
  | nil => rfl
  | string body _ ih =>
    rw [List.cons_append, List.append_assoc, List.cons_append, groupRest_string closer outer body,
      ih]
  | sign _ _ ih =>
    rw [List.cons_append, List.cons_append, groupRest_escape, ih]
  | @word run behind some_ inside _ _ ih =>
    cases run with
    | nil => contradiction
    | cons c more =>
      rw [List.cons_append, List.append_assoc, List.cons_append, groupRest_escape,
        groupRest_plains closer outer fun other member =>
          isPlain_of_alphanumeric (inside other (.tail _ member)),
        ih]
  | comment clear _ ih =>
    rw [List.cons_append, List.append_assoc, List.cons_append, groupRest_comment closer outer clear,
      ih]
  | group pair _ _ ihInside ihRest =>
    rw [List.cons_append, List.append_assoc, List.cons_append, groupRest_open closer outer pair,
      ihInside, groupRest_close_inner closer outer (isCloser_of_closerOf? pair), ihRest]
  | plain plain _ ih =>
    rw [List.cons_append, groupRest_plain closer outer plain, ih]

/-- The input holds the rest of a group and of the groups around it, and then `rest`: the group
closes with `closer`, the groups around it with `outer`, innermost first. -/
def Unwinds (closer : Char) : List Char → List Char → List Char → Prop
  | [], input, rest => ∃ inside, Items inside ∧ input = inside ++ closer :: rest
  | next :: further, input, rest =>
    ∃ inside behind, Items inside ∧ input = inside ++ closer :: behind ∧
      Unwinds next further behind rest

/-- An item in front of the rest of a group belongs to it. -/
theorem Unwinds.prepend {closer : Char} {outer input rest : List Char}
    (unwinds : Unwinds closer outer input rest) (item : List Char)
    (adds : ∀ inside behind, input = inside ++ closer :: behind → Items inside →
      Items (item ++ inside)) : Unwinds closer outer (item ++ input) rest := by
  cases outer with
  | nil =>
    obtain ⟨inside, items, split⟩ := unwinds
    exact ⟨item ++ inside, adds inside rest split items, by rw [split, List.append_assoc]⟩
  | cons next further =>
    obtain ⟨inside, behind, items, split, around⟩ := unwinds
    exact ⟨item ++ inside, behind, adds inside behind split items,
      by rw [split, List.append_assoc], around⟩

/-- A whole group in front of the rest of a group belongs to it. -/
theorem Unwinds.group {opener inner closer : Char} {outer input rest : List Char}
    (pair : closerOf? opener = some inner) (unwinds : Unwinds inner (closer :: outer) input rest) :
    Unwinds closer outer (opener :: input) rest := by
  obtain ⟨inside, behind, items, rfl, around⟩ := unwinds
  have adds := around.prepend (opener :: (inside ++ [inner])) fun more _ _ later => by
    simpa using Items.group pair items later
  simpa using adds

/-- A closing bracket alone is the rest of a group without items. -/
theorem Unwinds.close {closer next : Char} {further input rest : List Char}
    (unwinds : Unwinds next further input rest) :
    Unwinds closer (next :: further) (closer :: input) rest :=
  ⟨[], input, .nil, rfl, unwinds⟩

/-- What the reader takes for a character literal is one: the character behind the backslash, with
the whole run when that one is alphanumeric. -/
theorem literal_adds {first closer : Char} {tail literal inside behind : List Char}
    (read : first :: tail = literal ++ charRest (first :: tail))
    (split : charRest (first :: tail) = inside ++ closer :: behind) (items : Items inside) :
    Items ('\\' :: literal ++ inside) := by
  by_cases word : Text.isAlphanumeric first = true
  · have rest : charRest (first :: tail) = tail.dropWhile Text.isAlphanumeric := if_pos word
    have run : literal = first :: tail.takeWhile Text.isAlphanumeric := by
      rw [rest] at read
      apply (List.append_left_inj (tail.dropWhile Text.isAlphanumeric)).mp
      rw [← read, List.cons_append, List.takeWhile_append_dropWhile]
    rw [run]
    refine .word (List.cons_ne_nil _ _) ?_ ?_ items
    · intro c member
      rcases List.mem_cons.mp member with rfl | later
      · exact word
      · exact List.all_eq_true.mp List.all_takeWhile c later
    · intro c front
      have ahead : (tail.dropWhile Text.isAlphanumeric).head? = some c := by
        rw [← rest, split]
        cases inside with
        | nil => contradiction
        | cons => exact front
      have stops := List.head?_dropWhile_not Text.isAlphanumeric tail
      rw [ahead] at stops
      simpa using stops
  · have rest : charRest (first :: tail) = tail := if_neg word
    have single : literal = [first] := by
      rw [rest] at read
      exact (List.append_left_inj tail).mp read.symm
    rw [single]
    exact .sign (by simpa using word) items

/-- Whatever the reader of groups reads is the rest of a group. -/
theorem unwinds_of_groupRest {closer : Char} {outer input rest : List Char}
    (read : groupRest closer outer input = some rest) : Unwinds closer outer input rest := by
  unfold groupRest at read
  fun_induction groupRestBy commentLength? closer outer input with
  | case1 | case3 | case6 | case10 => contradiction
  | case2 closer outer tail behind found ih =>
    obtain ⟨inside, body, rfl⟩ := (stringRest_iff _ _).mp found
    have adds := (ih read).prepend ('"' :: (inside ++ ['"'])) fun more _ _ later => by
      simpa using Items.string body later
    simpa using adds
  | case4 closer outer tail _ ih =>
    cases tail with
    | nil =>
      rw [charRest, groupRestBy] at read
      contradiction
    | cons first tail =>
      obtain ⟨literal, split⟩ := charRest_suffix (first :: tail)
      have adds := (ih read).prepend ('\\' :: literal) fun inside behind found items =>
        literal_adds split.symm found items
      rw [List.cons_append, split] at adds
      exact adds
  | case5 closer outer tail length reach _ _ ih =>
    obtain ⟨line, behind, clear, rfl, rfl⟩ := (commentLength?_iff _ _).mp reach
    have left : (line ++ '\n' :: behind).drop (line.length + 1) = behind := by simp
    rw [left] at ih read
    have adds := (ih read).prepend (';' :: (line ++ ['\n'])) fun more _ _ later => by
      simpa using Items.comment clear later
    simpa using adds
  | case7 closer outer opener tail _ _ _ inner pair ih => exact (ih read).group pair
  | case8 closer tail =>
    cases read
    exact ⟨[], .nil, rfl⟩
  | case9 closer tail _ _ _ _ _ next further ih => exact (ih read).close
  | case11 closer outer c tail quote backslash semicolon unopened unclosed ih =>
    have plain : isPlain c = true :=
      isPlain_iff.mpr ⟨quote, backslash, semicolon, unopened, by simpa using unclosed⟩
    exact (ih read).prepend [c] fun more _ _ later => .plain plain later

/-- The reader of a group reads items and the closing bracket, and nothing else. -/
theorem groupRest_iff {opener closer : Char} (pair : closerOf? opener = some closer)
    (input rest : List Char) :
    groupRest closer [] input = some rest ↔
      ∃ inside, Items inside ∧ input = inside ++ closer :: rest := by
  constructor
  · exact unwinds_of_groupRest
  · rintro ⟨inside, items, rfl⟩
    rw [groupRest_items items, groupRest_close (isCloser_of_closerOf? pair)]

/-- A group inside other groups is read like one of its own. -/
theorem groupRest_around {opener closer : Char} (pair : closerOf? opener = some closer)
    {input rest : List Char} (read : groupRest closer [] input = some rest) (next : Char)
    (further : List Char) :
    groupRest closer (next :: further) input = groupRest next further rest := by
  obtain ⟨inside, items, rfl⟩ := (groupRest_iff pair input rest).mp read
  rw [groupRest_items items, groupRest_close_inner next further (isCloser_of_closerOf? pair)]

/-! ## Ends of groups in a text -/

/-- The input from a position on that holds a character starts with it. -/
theorem drop_of_getElem? {text : List Char} {position : Nat} {c : Char}
    (found : text[position]? = some c) : text.drop position = c :: text.drop (position + 1) := by
  obtain ⟨inside, rfl⟩ := List.getElem?_eq_some_iff.mp found
  exact List.drop_eq_getElem_cons inside

/-- A form that starts with an opening bracket ends where its group does. -/
theorem formEnd?_group {text : List Char} {start : Nat} {opener closer : Char}
    (found : text[start]? = some opener) (pair : closerOf? opener = some closer) :
    formEnd? text start = groupEnd? text start := by
  rw [formEnd?, groupEnd?, drop_of_getElem? found, formRest_group pair]
  simp only [pair, Option.bind_some]

/-- The group at a position ends where the part of the text up to there is a group. -/
theorem groupEnd?_iff {text : List Char} {start : Nat} {opener closer : Char}
    (found : text[start]? = some opener) (pair : closerOf? opener = some closer) (stop : Nat) :
    groupEnd? text start = some stop ↔
      stop ≤ text.length ∧ IsGroup (Span.of ⟨start, stop⟩ text) := by
  have split := drop_of_getElem? found
  have size : text.length = start + 1 + (text.drop (start + 1)).length := by
    have inside := (List.getElem?_eq_some_iff.mp found).1
    rw [List.length_drop]
    omega
  simp only [groupEnd?, Span.of, split, pair, Option.bind_some, Option.map_eq_some_iff,
    groupRest_iff pair]
  generalize text.drop (start + 1) = tail at size
  constructor
  · rintro ⟨rest, ⟨inside, items, rfl⟩, rfl⟩
    refine ⟨Nat.sub_le _ _, opener, inside, closer, pair, items, ?_⟩
    have width : text.length - rest.length - start = inside.length + 1 + 1 := by
      simp only [List.length_append, List.length_cons] at size
      omega
    rw [width, List.take_succ_cons, List.take_append, List.take_of_length_le (Nat.le_succ _)]
    simp
  · rintro ⟨bound, first, inside, last, partner, items, same⟩
    obtain ⟨width, wide⟩ : ∃ width, stop - start = width + 1 := by
      cases empty : stop - start with
      | zero => simp [empty] at same
      | succ width => exact ⟨width, rfl⟩
    rw [wide, List.take_succ_cons, List.cons.injEq] at same
    obtain ⟨rfl, taken⟩ := same
    rw [pair] at partner
    cases partner
    have parts : tail = inside ++ closer :: tail.drop width := by
      rw [← List.singleton_append, ← List.append_assoc, ← taken, List.take_append_drop]
    refine ⟨tail.drop width, ⟨inside, items, parts⟩, ?_⟩
    rw [List.length_drop]
    omega

/-- The reader accepts exactly the groups of the grammar. A form that starts with an opening bracket
is the group there; it ends at a position exactly when the text up to there is a group, which holds
of one position at most; and it has no end exactly when no position is such an end. -/
theorem groupScan_exact (text : List Char) (start : Nat) {opener : Char}
    (found : text[start]? = some opener) (opens : (closerOf? opener).isSome = true) :
    formEnd? text start = groupEnd? text start ∧
      (∀ stop, groupEnd? text start = some stop ↔
        stop ≤ text.length ∧ IsGroup (Span.of ⟨start, stop⟩ text)) ∧
      (∀ first second, first ≤ text.length → second ≤ text.length →
        IsGroup (Span.of ⟨start, first⟩ text) → IsGroup (Span.of ⟨start, second⟩ text) →
          first = second) ∧
      (groupEnd? text start = none ↔
        ∀ stop, stop ≤ text.length → ¬IsGroup (Span.of ⟨start, stop⟩ text)) := by
  obtain ⟨closer, pair⟩ := Option.isSome_iff_exists.mp opens
  have ends := groupEnd?_iff found pair
  refine ⟨formEnd?_group found pair, ends, ?_, ?_⟩
  · intro first second firstBound secondBound firstGroup secondGroup
    have one := (ends first).mpr ⟨firstBound, firstGroup⟩
    have other := (ends second).mpr ⟨secondBound, secondGroup⟩
    rw [one] at other
    exact Option.some.inj other
  · rw [Option.eq_none_iff_forall_ne_some]
    constructor
    · intro missing stop bound group
      exact missing stop ((ends stop).mpr ⟨bound, group⟩)
    · intro missing stop read
      obtain ⟨bound, group⟩ := (ends stop).mp read
      exact missing stop bound group

/-- A group with a character literal, a string and a comment that hold brackets. -/
theorem groupScan_exact_hidden :
    "(\\) \"]\" ;)\n[a])".toList[0]? = some '(' ∧ (closerOf? '(').isSome = true ∧
      formEnd? "(\\) \"]\" ;)\n[a])".toList 0 = some 15 ∧
      IsGroup (Span.of ⟨0, 15⟩ "(\\) \"]\" ;)\n[a])".toList) := by
  have found : "(\\) \"]\" ;)\n[a])".toList[0]? = some '(' := by decide
  have law := groupScan_exact "(\\) \"]\" ;)\n[a])".toList 0 found (by decide)
  have ends : groupEnd? "(\\) \"]\" ;)\n[a])".toList 0 = some 15 := by decide +kernel
  exact ⟨found, by decide, law.1.trans ends, ((law.2.1 15).mp ends).2⟩

end EvalDesk.Form
