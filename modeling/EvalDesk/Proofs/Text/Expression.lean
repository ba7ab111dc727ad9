import EvalDesk.Text.Character
import Mathlib.Data.List.Basic
import Mathlib.Data.List.TakeWhile

/-!
# Regular expressions

A regular expression is matched at the front of a text by trying: where it leaves a choice, one way
is tried first and the others when what follows does not fit. All ways to match it are given here as
a list, in the order in which they are tried, and the match is the first of them. Nothing is said
about how a matcher finds it.

Three laws replace the trying. Where what follows cannot start with a character of a run, or loses
nothing by passing one more, the run is passed as a whole. As few characters as can be are passed
one by one, with a look at what follows first. And any number of turns are one turn with the others
behind it, or none. Where the match has to go to the end of the text, the first way that does so
counts, and the same laws hold.
-/
namespace EvalDesk.Text

/-- A regular expression. -/
inductive Expression where
  /-- One character with a property. -/
  | one (inside : Char → Bool)
  /-- The edge of a word. -/
  | edge
  /-- Nothing. -/
  | nothing
  /-- One expression, and then another one. -/
  | chain (first second : Expression)
  /-- One expression or else another one. -/
  | choice (first second : Expression)
  /-- An expression as many times as can be. -/
  | many (inner : Expression)
  /-- An expression as few times as can be. -/
  | few (inner : Expression)
  /-- An expression, and what it takes is captured under a number. -/
  | part (number : Nat) (inner : Expression)

namespace Expression

/-- Expressions one after another. -/
def series : List Expression → Expression
  | [] => nothing
  | first :: others => chain first (series others)

/-- A fixed text. -/
def literal (text : String) : Expression := series (text.toList.map fun c => one (· = c))

/-- A run of characters with a property, of which there is at least one. -/
def run (inside : Char → Bool) : Expression := chain (one inside) (many (one inside))

/-- An expression, if it is there. -/
def perhaps (inner : Expression) : Expression := choice inner nothing

end Expression

/-- Where the matching of an expression stands. -/
structure Stand where
  /-- The character in front. -/
  before : Option Char
  /-- What is left of the text. -/
  rest : List Char
  /-- The captured parts by their numbers. -/
  parts : Nat → Option (List Char)

namespace Stand

/-- The front of a text. -/
def front (text : List Char) : Stand := ⟨none, text, fun _ => none⟩

/-- Behind a run of characters, with what is left behind it. -/
def pass (stand : Stand) (run rest : List Char) : Stand :=
  ⟨run.getLast?.or stand.before, rest, stand.parts⟩

/-- With one more part. -/
def capture (stand : Stand) (number : Nat) (part : List Char) : Stand :=
  { stand with parts := fun other => if other = number then some part else stand.parts other }

/-- What was captured, if nothing is left but a line feed at the end. -/
def ended? (stand : Stand) : Option (Nat → Option (List Char)) :=
  if stand.rest = [] ∨ stand.rest = ['\n'] then some stand.parts else none

@[simp] theorem rest_pass (stand : Stand) (run rest : List Char) :
    (stand.pass run rest).rest = rest := rfl

@[simp] theorem parts_pass (stand : Stand) (run rest : List Char) :
    (stand.pass run rest).parts = stand.parts := rfl

@[simp] theorem rest_capture (stand : Stand) (number : Nat) (part : List Char) :
    (stand.capture number part).rest = stand.rest := rfl

@[simp] theorem parts_capture (stand : Stand) (number : Nat) (part : List Char) :
    (stand.capture number part).parts =
      fun other => if other = number then some part else stand.parts other := rfl

/-- Behind one run and then another one. -/
theorem pass_pass (stand : Stand) (first second between rest : List Char) :
    (stand.pass first between).pass second rest = stand.pass (first ++ second) rest := by
  simp only [pass, List.getLast?_append, Option.or_assoc]

end Stand

/-- The ways to go on any number of times, most times first. A turn that takes nothing is none. -/
def manyWays (once : Stand → List Stand) (stand : Stand) : List Stand :=
  ((once stand).flatMap fun next =>
    if next.rest.length < stand.rest.length then manyWays once next else []) ++ [stand]
termination_by stand.rest.length

/-- The ways to go on any number of times, fewest times first. -/
def fewWays (once : Stand → List Stand) (stand : Stand) : List Stand :=
  stand :: (once stand).flatMap fun next =>
    if next.rest.length < stand.rest.length then fewWays once next else []
termination_by stand.rest.length

namespace Expression

/-- The ways to match an expression, in the order in which they are tried. -/
def ways : Expression → Stand → List Stand
  | one inside, stand =>
    match stand.rest with
    | [] => []
    | c :: rest => if inside c then [stand.pass [c] rest] else []
  | edge, stand => if stand.before.any isWord = stand.rest.head?.any isWord then [] else [stand]
  | nothing, stand => [stand]
  | chain first second, stand => (first.ways stand).flatMap second.ways
  | choice first second, stand => first.ways stand ++ second.ways stand
  | many inner, stand => manyWays inner.ways stand
  | few inner, stand => fewWays inner.ways stand
  | part number inner, stand =>
    (inner.ways stand).map fun next =>
      next.capture number (stand.rest.take (stand.rest.length - next.rest.length))

/-- The match of an expression: the way that is tried first. -/
def first? (expression : Expression) (stand : Stand) : Option Stand := (expression.ways stand).head?

/-- The parts that are captured at the front of a text. -/
def captures? (expression : Expression) (text : List Char) : Option (Nat → Option (List Char)) :=
  (expression.first? (.front text)).map (·.parts)

/-! ## One expression -/

section Ways

variable (inside : Char → Bool) (inner first second : Expression) (others : List Expression)
  (stand : Stand)

theorem ways_one_nil (before : Option Char) (parts : Nat → Option (List Char)) :
    (one inside).ways ⟨before, [], parts⟩ = [] := rfl

theorem ways_one_cons (before : Option Char) (c : Char) (rest : List Char)
    (parts : Nat → Option (List Char)) :
    (one inside).ways ⟨before, c :: rest, parts⟩ =
      if inside c then [⟨some c, rest, parts⟩] else [] := rfl

theorem ways_edge : edge.ways stand =
    if stand.before.any isWord = stand.rest.head?.any isWord then [] else [stand] := rfl

theorem ways_nothing : nothing.ways stand = [stand] := rfl

theorem ways_series_nil : (series []).ways stand = [stand] := rfl

theorem ways_series_cons : (series (first :: others)).ways stand =
    (first.ways stand).flatMap (series others).ways := rfl

theorem ways_choice :
    (choice first second).ways stand = first.ways stand ++ second.ways stand := rfl

theorem ways_run : (run inside).ways stand =
    ((one inside).ways stand).flatMap (many (one inside)).ways := rfl

theorem ways_many : (many inner).ways stand =
    ((inner.ways stand).flatMap fun next =>
      if next.rest.length < stand.rest.length then (many inner).ways next else []) ++ [stand] :=
  manyWays.eq_1 inner.ways stand

theorem ways_few : (few inner).ways stand =
    stand :: (inner.ways stand).flatMap fun next =>
      if next.rest.length < stand.rest.length then (few inner).ways next else [] :=
  fewWays.eq_1 inner.ways stand

theorem ways_part (number : Nat) : (part number inner).ways stand =
    (inner.ways stand).map fun next =>
      next.capture number (stand.rest.take (stand.rest.length - next.rest.length)) := rfl

end Ways

/-! ## Sequences -/

section Sequences

variable {others : List Expression}

/-- The match of a sequence is the match of the rest of it behind the first way that allows one. -/
theorem first?_cons (first : Expression) (stand : Stand) :
    (series (first :: others)).first? stand =
      (first.ways stand).findSome? (series others).first? := by
  rw [first?, ways_series_cons, List.head?_flatMap]
  rfl

/-- Nothing more to match is a match. -/
theorem first?_nil (stand : Stand) : (series []).first? stand = some stand := rfl

/-- Behind the ways of one sequence come the ways of the next. -/
theorem ways_append (inner : List Expression) (stand : Stand) :
    (series (inner ++ others)).ways stand =
      ((series inner).ways stand).flatMap (series others).ways := by
  induction inner generalizing stand with
  | nil => rw [ways_series_nil, List.flatMap_singleton, List.nil_append]
  | cons first inner ih =>
    simp only [List.cons_append, ways_series_cons, List.flatMap_assoc]
    exact congrArg (fun further => (first.ways stand).flatMap further) (funext ih)

/-- A sequence inside a sequence is part of it. -/
theorem first?_series (inner : List Expression) (stand : Stand) :
    (series (series inner :: others)).first? stand =
      (series (inner ++ others)).first? stand := by
  rw [first?, first?, ways_append]
  rfl

/-- Of two expressions the second is tried when the first allows no match. -/
theorem first?_choice (first second : Expression) (stand : Stand) :
    (series (choice first second :: others)).first? stand =
      ((series (first :: others)).first? stand).or
        ((series (second :: others)).first? stand) := by
  simp only [first?_cons, ways_choice, List.findSome?_append]

/-- An expression that may be missing is passed over when nothing matches with it. -/
theorem first?_perhaps (inner : Expression) (stand : Stand) :
    (series (perhaps inner :: others)).first? stand =
      ((series (inner :: others)).first? stand).or ((series others).first? stand) := by
  rw [perhaps, first?_choice, first?_cons nothing, ways_nothing, List.findSome?_singleton]

/-- Characters are passed where they are written. -/
theorem ways_characters (characters : List Char) (stand : Stand) :
    (series (characters.map fun c => one (· = c))).ways stand =
      if characters.isPrefixOf stand.rest then
        [stand.pass characters (stand.rest.drop characters.length)]
      else [] := by
  induction characters generalizing stand with
  | nil => rfl
  | cons c characters ih =>
    obtain ⟨before, input, parts⟩ := stand
    cases input with
    | nil => rfl
    | cons d tail =>
      rw [List.map_cons, ways_series_cons, ways_one_cons]
      by_cases same : d = c
      · have passed := Stand.pass_pass ⟨before, c :: tail, parts⟩ [c] characters tail
          (tail.drop characters.length)
        simp only [same, decide_true, ↓reduceIte, List.flatMap_singleton, ih,
          List.isPrefixOf_cons_cons_self]
        exact congrArg (if characters.isPrefixOf tail then [·] else []) passed
      · have apart : (c == d) = false := by simpa using fun back : c = d => same back.symm
        simp [same, List.isPrefixOf_cons_cons, apart]

/-- A fixed text is matched where it is written. -/
theorem ways_literal (text : String) (stand : Stand) : (literal text).ways stand =
    if text.toList.isPrefixOf stand.rest then
      [stand.pass text.toList (stand.rest.drop text.toList.length)]
    else [] := ways_characters text.toList stand

/-- A fixed text is passed where it is written. -/
theorem first?_literal (text : String) (stand : Stand) :
    (series (literal text :: others)).first? stand =
      if text.toList.isPrefixOf stand.rest then
        (series others).first? (stand.pass text.toList (stand.rest.drop text.toList.length))
      else none := by
  rw [first?_cons, ways_literal]
  split <;> simp

/-- A fixed text at the front is passed. -/
theorem first?_literal_append {text : String} {stand : Stand} {rest : List Char}
    (starts : stand.rest = text.toList ++ rest) :
    (series (literal text :: others)).first? stand =
      (series others).first? (stand.pass text.toList rest) := by
  rw [first?_literal, starts, List.drop_left,
    if_pos (List.isPrefixOf_iff_prefix.mpr (List.prefix_append _ _))]

/-- The edge in front of a word is passed where no word goes on. -/
theorem first?_edge {stand : Stand}
    (worded : (∀ c ∈ stand.rest.head?, isWord c = false) → (series others).first? stand = none) :
    (series (edge :: others)).first? stand =
      if stand.before.any isWord then none else (series others).first? stand := by
  rw [first?_cons, ways_edge]
  by_cases word : stand.rest.head?.any isWord = true
  · cases stand.before.any isWord <;> simp [word]
  · have missing := worded fun c front => by simpa [Option.mem_def.mp front] using word
    split <;> split <;> simp [missing]

/-- What is captured is the run that the only way to match goes over. -/
theorem ways_part_singleton {inner : Expression} {stand : Stand} {run rest : List Char}
    (single : inner.ways stand = [stand.pass run rest]) (split : stand.rest = run ++ rest)
    (number : Nat) :
    (part number inner).ways stand = [(stand.pass run rest).capture number run] := by
  have taken : stand.rest.take (stand.rest.length - rest.length) = run := by
    rw [split, List.length_append, Nat.add_sub_cancel, List.take_left]
  rw [ways_part, single, List.map_singleton, Stand.rest_pass, taken]

/-- A fixed text is captured where it is written. -/
theorem ways_part_literal (number : Nat) (text : String) (stand : Stand) :
    (part number (literal text)).ways stand =
      if text.toList.isPrefixOf stand.rest then
        [(stand.pass text.toList (stand.rest.drop text.toList.length)).capture number text.toList]
      else [] := by
  have ways := ways_literal text stand
  by_cases found : text.toList.isPrefixOf stand.rest = true
  · obtain ⟨rest, split⟩ := List.isPrefixOf_iff_prefix.mp found
    have parts : stand.rest = text.toList ++ stand.rest.drop text.toList.length := by
      rw [← split, List.drop_left]
    rw [if_pos found] at ways ⊢
    exact ways_part_singleton ways parts number
  · rw [if_neg found] at ways ⊢
    rw [ways_part, ways, List.map_nil]

end Sequences

/-! ## Runs -/

/-- An expression does not start with a character with the property. -/
def StopsAt (inside : Char → Bool) (expression : Expression) : Prop :=
  ∀ stand : Stand, (∃ c ∈ stand.rest.head?, inside c = true) → expression.ways stand = []

/-- An expression that matches in front of a character with the property matches behind it too. -/
def Gains (inside : Char → Bool) (expression : Expression) : Prop :=
  ∀ (stand next : Stand) (c : Char), inside c = true → stand.rest = c :: next.rest →
    next.before = some c → (expression.first? stand).isSome → (expression.first? next).isSome

section Runs

variable {inside : Char → Bool} {others : List Expression}

/-- What does not match at all in front of the characters gains by passing them. -/
theorem StopsAt.gains {expression : Expression} (stops : StopsAt inside expression) :
    Gains inside expression := by
  intro stand next c own rest _ found
  have nowhere := stops stand ⟨c, by rw [rest]; rfl, own⟩
  rw [first?, nowhere] at found
  contradiction

/-- Nothing gains by passing characters. -/
theorem gains_nothing : Gains inside (series []) := fun _ _ _ _ _ _ _ => rfl

/-- A character does not start with another one. -/
theorem stopsAt_one {own : Char → Bool} (apart : ∀ c, inside c = true → own c = false) :
    StopsAt inside (one own) := by
  rintro ⟨before, rest, parts⟩ ⟨c, front, other⟩
  cases rest with
  | nil => contradiction
  | cons d tail =>
    cases (show some d = some c from front)
    rw [ways_one_cons, if_neg (by simp [apart c other])]

/-- A fixed character does not start with another one. -/
theorem stopsAt_mark {mark : Char} (outside : inside mark = false) :
    StopsAt inside (one (· = mark)) := by
  refine stopsAt_one fun c own => decide_eq_false ?_
  rintro rfl
  rw [outside] at own
  contradiction

/-- What a sequence starts with decides where it does not start. -/
theorem StopsAt.series {first : Expression} (stops : StopsAt inside first)
    (others : List Expression) : StopsAt inside (series (first :: others)) := by
  intro stand front
  rw [ways_series_cons, stops stand front]
  rfl

/-- A run starts with one of its characters. -/
theorem StopsAt.run {own : Char → Bool} (stops : StopsAt inside (one own)) :
    StopsAt inside (run own) := by
  intro stand front
  rw [ways_run, stops stand front]
  rfl

/-- A captured part starts with what is captured. -/
theorem StopsAt.part {inner : Expression} (stops : StopsAt inside inner) (number : Nat) :
    StopsAt inside (part number inner) := by
  intro stand front
  rw [ways_part, stops stand front]
  rfl

/-- A choice starts with one of its expressions. -/
theorem StopsAt.choice {first second : Expression} (stops : StopsAt inside first)
    (others : StopsAt inside second) : StopsAt inside (choice first second) := by
  intro stand front
  rw [ways_choice, stops stand front, others stand front]
  rfl

/-- A sequence with an expression that may be missing starts with it or with the rest. -/
theorem StopsAt.perhaps {inner : Expression} (stops : StopsAt inside inner)
    (further : StopsAt inside (Expression.series others)) :
    StopsAt inside (Expression.series (perhaps inner :: others)) := by
  intro stand front
  rw [ways_series_cons, Expression.perhaps, ways_choice, stops stand front, List.nil_append,
    ways_nothing, List.flatMap_singleton, further stand front]

/-- A fixed text starts with its first character. -/
theorem stopsAt_literal {text : String} {c : Char} {more : List Char}
    (starts : text.toList = c :: more) (outside : inside c = false) :
    StopsAt inside (literal text) := by
  rw [literal, starts]
  exact (stopsAt_mark outside).series _

/-- To stay is one of the ways to go on any number of times. -/
theorem mem_ways_many (inner : Expression) (stand : Stand) : stand ∈ (many inner).ways stand := by
  rw [ways_many]
  exact List.mem_append_right _ (.head _)

/-- Where an expression does not match it is taken no times. -/
theorem ways_many_of_eq_nil {inner : Expression} {stand : Stand} (stuck : inner.ways stand = []) :
    (many inner).ways stand = [stand] := by
  rw [ways_many, stuck]
  rfl

/-- Where it matches in one way, which takes something, it goes on behind that or stays. -/
theorem ways_many_of_eq_singleton {inner : Expression} {stand next : Stand}
    (single : inner.ways stand = [next]) (shorter : next.rest.length < stand.rest.length) :
    (many inner).ways stand = (many inner).ways next ++ [stand] := by
  rw [ways_many, single, List.flatMap_singleton, if_pos shorter]

/-- The ways over characters with the property, one of them at the front. -/
theorem ways_many_cons {c : Char} (own : inside c = true) (before : Option Char) (rest : List Char)
    (parts : Nat → Option (List Char)) :
    (many (one inside)).ways ⟨before, c :: rest, parts⟩ =
      (many (one inside)).ways ⟨some c, rest, parts⟩ ++ [⟨before, c :: rest, parts⟩] := by
  have single : (one inside).ways ⟨before, c :: rest, parts⟩ = [⟨some c, rest, parts⟩] := by
    rw [ways_one_cons, if_pos own]
  exact ways_many_of_eq_singleton single (Nat.lt_succ_self rest.length)

/-- A second choice is no choice when it needs the first one. -/
theorem or_eq_left {α : Type} {first second : Option α} (needs : second.isSome → first.isSome) :
    first.or second = first := by
  cases first with
  | some found => rfl
  | none => simpa using needs

/-- The search over a run takes all of it when that is no loss. -/
theorem findSome?_many {α : Type} {f : Stand → Option α} {stand : Stand}
    (gains : ∀ before c rest, inside c = true → (f ⟨before, c :: rest, stand.parts⟩).isSome →
      (f ⟨some c, rest, stand.parts⟩).isSome) :
    ((many (one inside)).ways stand).findSome? f =
      f (stand.pass (stand.rest.takeWhile inside) (stand.rest.dropWhile inside)) := by
  obtain ⟨before, rest, parts⟩ := stand
  dsimp only at gains
  induction rest generalizing before with
  | nil =>
    rw [ways_many_of_eq_nil (ways_one_nil inside before parts), List.findSome?_singleton]
    rfl
  | cons c rest ih =>
    by_cases own : inside c = true
    · have whole : (⟨some c, rest, parts⟩ : Stand).pass (rest.takeWhile inside)
          (rest.dropWhile inside) = (⟨before, c :: rest, parts⟩ : Stand).pass
            (c :: rest.takeWhile inside) (rest.dropWhile inside) :=
        Stand.pass_pass ⟨before, c :: rest, parts⟩ [c] _ rest _
      have behind := ih (some c)
      rw [whole] at behind
      rw [ways_many_cons own, List.findSome?_append, behind, List.takeWhile_cons_of_pos own,
        List.dropWhile_cons_of_pos own, List.findSome?_singleton]
      apply or_eq_left
      intro found
      rw [← behind, List.findSome?_isSome_iff]
      exact ⟨_, mem_ways_many _ _, gains before c rest own found⟩
    · have stuck : (one inside).ways ⟨before, c :: rest, parts⟩ = [] := by
        rw [ways_one_cons, if_neg own]
      rw [ways_many_of_eq_nil stuck, List.findSome?_singleton, List.takeWhile_cons_of_neg own,
        List.dropWhile_cons_of_neg own]
      rfl

/-- A run at the front of a sequence is passed as a whole when that is no loss. -/
theorem findSome?_run {α : Type} {f : Stand → Option α} {stand : Stand}
    (gains : ∀ before c rest, inside c = true → (f ⟨before, c :: rest, stand.parts⟩).isSome →
      (f ⟨some c, rest, stand.parts⟩).isSome) :
    ((run inside).ways stand).findSome? f =
      if (stand.rest.takeWhile inside).isEmpty then none
      else f (stand.pass (stand.rest.takeWhile inside) (stand.rest.dropWhile inside)) := by
  obtain ⟨before, rest, parts⟩ := stand
  cases rest with
  | nil => rfl
  | cons c rest =>
    by_cases own : inside c = true
    · have single : (one inside).ways ⟨before, c :: rest, parts⟩ =
          [(⟨before, c :: rest, parts⟩ : Stand).pass [c] rest] := by
        rw [ways_one_cons, if_pos own]
        rfl
      have behind : ((many (one inside)).ways ((Stand.mk before (c :: rest) parts).pass [c] rest)
          ).findSome? f = _ := findSome?_many gains
      rw [ways_run, single, List.flatMap_singleton, behind, Stand.pass_pass,
        List.takeWhile_cons_of_pos own, List.dropWhile_cons_of_pos own]
      rfl
    · rw [ways_run, ways_one_cons, if_neg own, List.takeWhile_cons_of_neg own]
      rfl

/-- A run at the front of a sequence is passed as a whole when that is no loss. -/
theorem first?_run (gains : Gains inside (series others)) (stand : Stand) :
    (series (run inside :: others)).first? stand =
      if (stand.rest.takeWhile inside).isEmpty then none
      else (series others).first?
        (stand.pass (stand.rest.takeWhile inside) (stand.rest.dropWhile inside)) := by
  rw [first?_cons, findSome?_run]
  exact fun before c rest own found => gains _ ⟨some c, rest, stand.parts⟩ c own rfl rfl found

/-- Any number of characters at the front of a sequence are passed as a whole when that is no
loss. -/
theorem first?_many (gains : Gains inside (series others)) (stand : Stand) :
    (series (many (one inside) :: others)).first? stand =
      (series others).first?
        (stand.pass (stand.rest.takeWhile inside) (stand.rest.dropWhile inside)) := by
  rw [first?_cons, findSome?_many]
  exact fun before c rest own found => gains _ ⟨some c, rest, stand.parts⟩ c own rfl rfl found

/-- The search over a run that is captured takes all of it when that is no loss. -/
theorem findSome?_part_run {α : Type} {f : Stand → Option α}
    (gains : ∀ before c rest earlier later, inside c = true →
      (f ⟨before, c :: rest, earlier⟩).isSome → (f ⟨some c, rest, later⟩).isSome)
    (number : Nat) (stand : Stand) :
    ((part number (run inside)).ways stand).findSome? f =
      if (stand.rest.takeWhile inside).isEmpty then none
      else f ((stand.pass (stand.rest.takeWhile inside) (stand.rest.dropWhile inside)).capture
        number (stand.rest.takeWhile inside)) := by
  have size : stand.rest.length =
      (stand.rest.takeWhile inside).length + (stand.rest.dropWhile inside).length := by
    rw [← List.length_append, List.takeWhile_append_dropWhile]
  have taken : stand.rest.take (stand.rest.length - (stand.rest.dropWhile inside).length) =
      stand.rest.takeWhile inside := by
    rw [size, Nat.add_sub_cancel]
    exact (List.prefix_iff_eq_take.mp (List.takeWhile_prefix inside)).symm
  rw [ways_part, List.findSome?_map, findSome?_run]
  · simp only [Function.comp_apply, Stand.pass, taken]
  · intro before c rest own found
    exact gains before c rest _ _ own found

/-- A run that is captured at the front of a sequence is passed as a whole when that is no loss. -/
theorem first?_part_run (gains : Gains inside (series others)) (number : Nat) (stand : Stand) :
    (series (part number (run inside) :: others)).first? stand =
      if (stand.rest.takeWhile inside).isEmpty then none
      else (series others).first?
        ((stand.pass (stand.rest.takeWhile inside) (stand.rest.dropWhile inside)).capture number
          (stand.rest.takeWhile inside)) := by
  rw [first?_cons, findSome?_part_run]
  intro before c rest earlier later own found
  exact gains _ ⟨some c, rest, later⟩ c own rfl rfl found

/-- An expression that may go on any number of times starts with one of its turns, or with the
rest. -/
theorem StopsAt.many {inner : Expression} (stops : StopsAt inside inner)
    (further : StopsAt inside (Expression.series others)) :
    StopsAt inside (Expression.series (many inner :: others)) := by
  intro stand front
  rw [ways_series_cons, ways_many, stops stand front, List.flatMap_nil, List.nil_append,
    List.flatMap_singleton, further stand front]

/-- The ways over characters with the property as few as can be, one of them at the front. -/
theorem ways_few_cons {c : Char} (own : inside c = true) (before : Option Char) (rest : List Char)
    (parts : Nat → Option (List Char)) :
    (few (one inside)).ways ⟨before, c :: rest, parts⟩ =
      ⟨before, c :: rest, parts⟩ :: (few (one inside)).ways ⟨some c, rest, parts⟩ := by
  rw [ways_few, ways_one_cons, if_pos own]
  simp

/-- Where none of the characters stands none is passed. -/
theorem ways_few_of_not {stand : Stand} (outside : ∀ c ∈ stand.rest.head?, inside c = false) :
    (few (one inside)).ways stand = [stand] := by
  rw [ways_few]
  obtain ⟨before, rest, parts⟩ := stand
  cases rest with
  | nil => rfl
  | cons c rest =>
    rw [ways_one_cons, if_neg (by simp [outside c rfl])]
    rfl

/-- At the end there is nothing to be passed. -/
theorem first?_few_nil (before : Option Char) (parts : Nat → Option (List Char)) :
    (series (few (one inside) :: others)).first? ⟨before, [], parts⟩ =
      (series others).first? ⟨before, [], parts⟩ := by
  rw [first?_cons, ways_few_of_not (by simp), List.findSome?_singleton]

/-- As few characters as can be are passed: the rest of the sequence is tried first. -/
theorem first?_few_cons (before : Option Char) (c : Char) (rest : List Char)
    (parts : Nat → Option (List Char)) :
    (series (few (one inside) :: others)).first? ⟨before, c :: rest, parts⟩ =
      ((series others).first? ⟨before, c :: rest, parts⟩).or
        (if inside c then (series (few (one inside) :: others)).first? ⟨some c, rest, parts⟩
          else none) := by
  rw [first?_cons, first?_cons]
  by_cases own : inside c = true
  · rw [ways_few_cons own, List.findSome?_cons, if_pos own]
    cases (series others).first? ⟨before, c :: rest, parts⟩ <;> rfl
  · rw [ways_few_of_not (by simpa using own), List.findSome?_singleton, if_neg own, Option.or_none]

end Runs

/-! ## Turns -/

/-- Each way to match an expression takes at least one character. -/
def Shortens (expression : Expression) : Prop :=
  ∀ stand : Stand, ∀ next ∈ expression.ways stand, next.rest.length < stand.rest.length

/-- One character is at least one. -/
theorem shortens_one (inside : Char → Bool) : Shortens (one inside) := by
  rintro ⟨before, input, parts⟩ next member
  cases input with
  | nil => contradiction
  | cons c rest =>
    rw [ways_one_cons] at member
    split at member
    · rw [List.mem_singleton.mp member]
      exact Nat.lt_succ_self rest.length
    · contradiction

/-- No way to match an expression goes back. -/
theorem length_le_of_mem_ways (expression : Expression) {stand next : Stand}
    (member : next ∈ expression.ways stand) : next.rest.length ≤ stand.rest.length := by
  induction expression generalizing stand next with
  | one inside => exact (shortens_one inside stand next member).le
  | edge =>
    rw [ways_edge] at member
    split at member
    · contradiction
    · rw [List.mem_singleton.mp member]
  | nothing => rw [List.mem_singleton.mp member]
  | chain first second ihFirst ihSecond =>
    obtain ⟨between, isFirst, isSecond⟩ := List.mem_flatMap.mp member
    exact (ihSecond isSecond).trans (ihFirst isFirst)
  | choice first second ihFirst ihSecond =>
    rcases List.mem_append.mp member with isFirst | isSecond
    · exact ihFirst isFirst
    · exact ihSecond isSecond
  | many inner ih =>
    change next ∈ manyWays inner.ways stand at member
    fun_induction manyWays inner.ways stand with
    | case1 stand turn =>
      rcases List.mem_append.mp member with again | stay
      · obtain ⟨between, isInner, isFurther⟩ := List.mem_flatMap.mp again
        split at isFurther
        · exact (turn between ‹_› isFurther).trans (ih isInner)
        · contradiction
      · rw [List.mem_singleton.mp stay]
  | few inner ih =>
    change next ∈ fewWays inner.ways stand at member
    fun_induction fewWays inner.ways stand with
    | case1 stand turn =>
      rcases List.mem_cons.mp member with stay | again
      · rw [stay]
      · obtain ⟨between, isInner, isFurther⟩ := List.mem_flatMap.mp again
        split at isFurther
        · exact (turn between ‹_› isFurther).trans (ih isInner)
        · contradiction
  | part number inner ih =>
    obtain ⟨other, isInner, rfl⟩ := List.mem_map.mp member
    rw [Stand.rest_capture]
    exact ih isInner

/-- A sequence takes what its first expression takes. -/
theorem Shortens.series {first : Expression} (shortens : Shortens first)
    (others : List Expression) : Shortens (series (first :: others)) := by
  intro stand next member
  obtain ⟨between, isFirst, isFurther⟩ := List.mem_flatMap.mp member
  exact (length_le_of_mem_ways _ isFurther).trans_lt (shortens stand between isFirst)

/-- A choice takes what one of its expressions takes. -/
theorem Shortens.choice {first second : Expression} (shortens : Shortens first)
    (others : Shortens second) : Shortens (choice first second) := by
  intro stand next member
  rcases List.mem_append.mp member with isFirst | isSecond
  · exact shortens stand next isFirst
  · exact others stand next isSecond

/-- A fixed text that is not empty takes at least one character. -/
theorem shortens_literal {text : String} {c : Char} {more : List Char}
    (starts : text.toList = c :: more) : Shortens (literal text) := by
  rw [literal, starts]
  exact (shortens_one _).series _

/-- Any number of turns are one turn and any number of further ones, or none. -/
theorem first?_many_turn {inner : Expression} (shortens : Shortens inner)
    (others : List Expression) (stand : Stand) :
    (series (many inner :: others)).first? stand =
      ((series (inner :: many inner :: others)).first? stand).or
        ((series others).first? stand) := by
  have turns : (many inner).ways stand =
      (inner.ways stand).flatMap (many inner).ways ++ [stand] := by
    rw [ways_many]
    congr 1
    refine List.flatMap_congr fun next member => ?_
    rw [if_pos (shortens stand next member)]
  rw [first?, ways_series_cons, turns, List.flatMap_append, List.flatMap_assoc, List.head?_append,
    List.flatMap_singleton]
  rfl

/-! ## Up to the end of the text -/

/-- What is captured by the first way to match an expression that goes to the end of the text. -/
def toEnd? (expression : Expression) (stand : Stand) : Option (Nat → Option (List Char)) :=
  ((expression.ways stand).filterMap Stand.ended?).head?

section End

variable {inside : Char → Bool} {others : List Expression}

/-- A sequence goes to the end as the rest of it does behind the first way that allows it. -/
theorem toEnd?_cons (first : Expression) (stand : Stand) :
    (series (first :: others)).toEnd? stand =
      (first.ways stand).findSome? (series others).toEnd? := by
  rw [toEnd?, ways_series_cons, List.filterMap_flatMap, List.head?_flatMap]
  rfl

/-- Where nothing more is to be matched the text has to end. -/
theorem toEnd?_nil (stand : Stand) : (series []).toEnd? stand = stand.ended? := by
  rw [toEnd?, ways_series_nil]
  cases ended : stand.ended? <;> simp [ended]

/-- What does not start with a character does not match up to the end in front of it. -/
theorem StopsAt.toEnd?_eq_none {expression : Expression} (stops : StopsAt inside expression)
    {c : Char} (own : inside c = true) (before : Option Char) (rest : List Char)
    (parts : Nat → Option (List Char)) : expression.toEnd? ⟨before, c :: rest, parts⟩ = none := by
  rw [Expression.toEnd?, stops ⟨before, c :: rest, parts⟩ ⟨c, rfl, own⟩]
  rfl

/-- Any number of characters are passed as a whole in front of what starts with none. -/
theorem toEnd?_many (stops : StopsAt inside (series others)) (stand : Stand) :
    (series (many (one inside) :: others)).toEnd? stand =
      (series others).toEnd?
        (stand.pass (stand.rest.takeWhile inside) (stand.rest.dropWhile inside)) := by
  rw [toEnd?_cons, findSome?_many]
  intro before c rest own found
  rw [stops.toEnd?_eq_none own] at found
  contradiction

/-- A run is passed as a whole in front of what starts with none of its characters. -/
theorem toEnd?_run (stops : StopsAt inside (series others)) (stand : Stand) :
    (series (run inside :: others)).toEnd? stand =
      if (stand.rest.takeWhile inside).isEmpty then none
      else (series others).toEnd?
        (stand.pass (stand.rest.takeWhile inside) (stand.rest.dropWhile inside)) := by
  rw [toEnd?_cons, findSome?_run]
  intro before c rest own found
  rw [stops.toEnd?_eq_none own] at found
  contradiction

/-- A run that is captured is passed as a whole in front of what starts with none of its
characters. -/
theorem toEnd?_part_run (stops : StopsAt inside (series others)) (number : Nat) (stand : Stand) :
    (series (part number (run inside) :: others)).toEnd? stand =
      if (stand.rest.takeWhile inside).isEmpty then none
      else (series others).toEnd?
        ((stand.pass (stand.rest.takeWhile inside) (stand.rest.dropWhile inside)).capture number
          (stand.rest.takeWhile inside)) := by
  rw [toEnd?_cons, findSome?_part_run]
  intro before c rest earlier later own found
  rw [stops.toEnd?_eq_none own] at found
  contradiction

/-- A fixed text that is captured is passed where it is written. -/
theorem toEnd?_part_literal (number : Nat) (text : String) (stand : Stand) :
    (series (part number (literal text) :: others)).toEnd? stand =
      if text.toList.isPrefixOf stand.rest then
        (series others).toEnd?
          ((stand.pass text.toList (stand.rest.drop text.toList.length)).capture number text.toList)
      else none := by
  rw [toEnd?_cons, ways_part_literal]
  split <;> simp

/-- Of two expressions the second is captured when the first allows no way to the end. -/
theorem toEnd?_part_choice (number : Nat) (first second : Expression) (stand : Stand) :
    (series (part number (choice first second) :: others)).toEnd? stand =
      ((series (part number first :: others)).toEnd? stand).or
        ((series (part number second :: others)).toEnd? stand) := by
  simp only [toEnd?_cons, ways_part, ways_choice, List.map_append, List.findSome?_append]

end End

end Expression

end EvalDesk.Text
