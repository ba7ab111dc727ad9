import EvalDesk.Proofs.Form.Core
import EvalDesk.Proofs.Form.Order
import EvalDesk.Proofs.Form.Origin

/-!
# Going down to the expression in front of an offset

A form that is about a group has children, the forms in its group, and so the forms of a text stand
in a tree. The expression in front of an offset is found by going down this tree: from level to
level through the form that goes on behind the offset, as long as its group opens in front of the
offset, and then the last form that ends by the offset is taken. The search that runs goes down
through the first bracket of a form instead. It takes the same way through a form exactly when no
character in front of the core misleads it.
-/
namespace EvalDesk.Form

/-- Where the search in front of the offset enters a form: behind the first bracket, when that does
not lie behind the offset. -/
def entered? (text : List Char) (offset : Int) (form : Span) : Option Nat :=
  (bodyStart? text form).filter fun body => body ≤ offset

/-- The bracket of the core of a form, when it stands in front of the offset. -/
def bracketBefore? (text : List Char) (offset : Int) (form : Span) : Option Nat :=
  (bracket? text form).filter fun bracket => bracket < offset

/-- The forms in the group of a form. -/
def children (text : List Char) (form : Span) : List Span :=
  match bracket? text form with
  | none => []
  | some bracket => formsIn text (bracket + 1) (form.stop - 1)

/-- The forms between two positions, each with the forms below it. -/
def treeIn (text : List Char) (low high : Nat) : List Span :=
  (formsIn text low high).attach.flatMap fun ⟨form, _⟩ =>
    form ::
      match bracket? text form with
      | none => []
      | some bracket => treeIn text (bracket + 1) (form.stop - 1)
termination_by high
decreasing_by
  have bounds := formsIn_bounds ‹form ∈ _›
  omega

/-- The forms of a text at every depth. -/
def tree (text : List Char) : List Span := treeIn text 0 text.length

/-- Go down from the forms between two positions to the last form that ends by the offset: through
the first form that ends behind the offset, when its group opens in front of the offset. -/
def precedingIn (text : List Char) (offset : Int) (low high : Nat) : Option Span :=
  let last := ((formsIn text low high).filter (Span.endsBy offset)).getLast?
  match _ : (formsIn text low high).find? (!Span.endsBy offset ·) with
  | none => last
  | some form =>
    match bracketBefore? text offset form with
    | none => last
    | some bracket => precedingIn text offset (bracket + 1) (form.stop - 1)
termination_by high
decreasing_by
  have bounds := formsIn_bounds (List.mem_of_find?_eq_some ‹_ = some form›)
  omega

/-- Go down from the outermost forms to the last form that ends by the offset. -/
def preceding (text : List Char) (offset : Int) : Option Span :=
  precedingIn text offset 0 text.length

/-- A character in front of the core of a form misleads the search in front of the offset: it opens
a group, or it starts a literal while the bracket of the core stands in front of the offset. -/
def misled (text : List Char) (offset : Int) (form : Span) : Bool :=
  match misleader? text form with
  | none => false
  | some (c, position) =>
    position < offset && ((closerOf? c).isSome || (bracketBefore? text offset form).isSome)

variable {text : List Char} {offset : Int} {low high : Nat} {form span : Span}

/-- A form of the tree is a form of the level or stands below one. -/
theorem mem_treeIn :
    span ∈ treeIn text low high ↔
      ∃ form ∈ formsIn text low high, span = form ∨
        ∃ bracket, bracket? text form = some bracket ∧
          span ∈ treeIn text (bracket + 1) (form.stop - 1) := by
  rw [treeIn, List.mem_flatMap]
  constructor
  · rintro ⟨⟨form, member⟩, -, listed⟩
    refine ⟨form, member, ?_⟩
    rcases List.mem_cons.mp listed with same | below
    · exact .inl same
    · cases opened : bracket? text form with
      | none => simp [opened] at below
      | some bracket => exact .inr ⟨bracket, rfl, by simpa [opened] using below⟩
  · rintro ⟨form, member, own⟩
    refine ⟨⟨form, member⟩, List.mem_attach _ _, List.mem_cons.mpr ?_⟩
    rcases own with same | ⟨bracket, opened, below⟩
    · exact .inl same
    · exact .inr (by simpa [opened] using below)

/-- A form below the level of two positions lies between them and ends where it is read to its
end. -/
theorem treeIn_bounds (member : span ∈ treeIn text low high) :
    low ≤ span.start ∧ span.stop ≤ high ∧ formEnd? text span.start = some span.stop := by
  induction high using Nat.strong_induction_on generalizing low with
  | h high ih =>
    obtain ⟨form, level, own⟩ := mem_treeIn.mp member
    obtain ⟨starts, filled, stops⟩ := formsIn_bounds level
    have read := formEnd?_of_mem_formsIn level
    rcases own with rfl | ⟨bracket, opened, below⟩
    · exact ⟨starts, stops, read⟩
    · obtain ⟨inside, _⟩ := groupRest_bracket? read opened
      obtain ⟨later, earlier, found⟩ := ih (form.stop - 1) (by omega) below
      exact ⟨by omega, by omega, found⟩

/-- A form of the tree lies in a form of the level: it is that form, or it stands below it. -/
theorem treeIn_root (member : span ∈ treeIn text low high) :
    ∃ root ∈ formsIn text low high, root.start ≤ span.start ∧ span.start < span.stop ∧
      span.stop ≤ root.stop ∧
        (span = root ∨ root.start < span.start ∧ ∃ bracket, bracket? text root = some bracket ∧
          span ∈ treeIn text (bracket + 1) (root.stop - 1)) := by
  obtain ⟨root, level, own⟩ := mem_treeIn.mp member
  have read := formEnd?_of_mem_formsIn level
  obtain ⟨_, order, _⟩ := formEnd?_iff.mp read
  rcases own with rfl | ⟨bracket, opened, below⟩
  · exact ⟨span, level, Nat.le_refl _, order, Nat.le_refl _, .inl rfl⟩
  · obtain ⟨inside, _⟩ := groupRest_bracket? read opened
    obtain ⟨later, earlier, found⟩ := treeIn_bounds below
    have filled := (formEnd?_iff.mp found).2.1
    exact ⟨root, level, by omega, filled, by omega, .inr ⟨by omega, bracket, opened, below⟩⟩

/-- A form of the tree that starts in another one is that one, or lies in a child of it. -/
theorem treeIn_nested (one : form ∈ treeIn text low high) (other : span ∈ treeIn text low high)
    (starts : form.start ≤ span.start) (inside : span.start < form.stop) :
    span = form ∨
      ∃ child ∈ children text form, child.start ≤ span.start ∧ span.stop ≤ child.stop := by
  induction high using Nat.strong_induction_on generalizing low with
  | h high ih =>
    obtain ⟨root, level, formStarts, _, formStops, ownForm⟩ := treeIn_root one
    obtain ⟨otherRoot, otherLevel, spanStarts, spanFilled, spanStops, ownSpan⟩ := treeIn_root other
    have same : otherRoot = root := by
      by_contra different
      rcases formsIn_apart otherLevel level different with before | behind <;> omega
    subst same
    rcases ownSpan with rfl | ⟨spanInside, bracket, opened, spanBelow⟩
    · -- The root is not inside what stands below it.
      rcases ownForm with rfl | ⟨formInside, _⟩
      · exact .inl rfl
      · omega
    · rcases ownForm with rfl | ⟨_, formBracket, formOpened, formBelow⟩
      · obtain ⟨child, isChild, childStarts, _, childStops, _⟩ := treeIn_root spanBelow
        refine .inr ⟨child, ?_, childStarts, childStops⟩
        rw [children, opened]
        exact isChild
      · cases opened.symm.trans formOpened
        have bounds := formsIn_bounds level
        exact ih (otherRoot.stop - 1) (by omega) formBelow spanBelow

/-- What is found by going down is a form of the tree that ends by the offset. -/
theorem precedingIn_mem (found : precedingIn text offset low high = some span) :
    span ∈ treeIn text low high ∧ span.endsBy offset = true := by
  have onLevel : ∀ {low high : Nat},
      ((formsIn text low high).filter (Span.endsBy offset)).getLast? = some span →
        span ∈ treeIn text low high ∧ span.endsBy offset = true := by
    intro low high last
    obtain ⟨level, ended⟩ := List.mem_filter.mp (List.mem_of_getLast? last)
    exact ⟨mem_treeIn.mpr ⟨span, level, .inl rfl⟩, ended⟩
  fun_induction precedingIn text offset low high with
  | case1 => exact onLevel found
  | case2 => exact onLevel found
  | case3 low high form next bracket opened ih =>
    obtain ⟨below, ended⟩ := ih found
    obtain ⟨isBracket, _⟩ := Option.filter_eq_some_iff.mp opened
    exact ⟨mem_treeIn.mpr
      ⟨form, List.mem_of_find?_eq_some next, .inr ⟨bracket, isBracket, below⟩⟩, ended⟩

/-! ## The two ways down -/

/-- Going down leads through the bracket of the core of the form around the offset. -/
theorem precedingIn_eq (text : List Char) (offset : Int) (low high : Nat) :
    precedingIn text offset low high =
      match (formsIn text low high).find? (!Span.endsBy offset ·) with
      | none => ((formsIn text low high).filter (Span.endsBy offset)).getLast?
      | some form =>
        match bracketBefore? text offset form with
        | none => ((formsIn text low high).filter (Span.endsBy offset)).getLast?
        | some bracket => precedingIn text offset (bracket + 1) (form.stop - 1) := by
  rw [precedingIn]
  cases (formsIn text low high).find? (!Span.endsBy offset ·) <;> rfl

/-- The search in front of the offset goes down through the first bracket of the form around the
offset. -/
theorem lastBeforeIn_eq (text : List Char) (offset : Int) (low high : Nat) :
    lastBeforeIn text offset low high =
      match (formsIn text low high).find? (!Span.endsBy offset ·) with
      | none => ((formsIn text low high).filter (Span.endsBy offset)).getLast?
      | some form =>
        match entered? text offset form with
        | none => ((formsIn text low high).filter (Span.endsBy offset)).getLast?
        | some body => lastBeforeIn text offset body (form.stop - 1) := by
  have parts := around_formsIn text offset low high
  rw [lastBeforeIn]
  split
  · rename_i isNext
    rw [parts] at isNext
    rw [parts]
    dsimp only at isNext ⊢
    rw [isNext]
  · rename_i form isNext
    rw [parts] at isNext
    rw [parts]
    dsimp only at isNext ⊢
    rw [isNext]
    simp only [entered?]
    cases opened : bodyStart? text form with
    | none => rfl
    | some body =>
      have read := formEnd?_of_mem_formsIn (List.mem_of_find?_eq_some isNext)
      have inside := bodyStart?_bounds opened (formEnd?_iff.mp read).2.2
      by_cases early : (body : Int) ≤ offset
      · have started : (form.start : Int) < offset := by omega
        simp only [Option.filter_some, early, started, and_self, decide_true, ↓reduceIte]
      · simp only [Option.filter_some, early, and_false, decide_false, Bool.false_eq_true,
          ↓reduceIte]

/-- The two ways into a form are the same one exactly when nothing misleads the search. -/
theorem entered?_eq_iff (read : formEnd? text form.start = some form.stop) :
    entered? text offset form = (bracketBefore? text offset form).map (· + 1) ↔
      misled text offset form = false := by
  have order := Nat.le_trans (Nat.le_of_lt (formEnd?_iff.mp read).2.1) (formEnd?_iff.mp read).2.2
  rw [entered?, bodyStart?_eq read, misled]
  cases found : misleader? text form with
  | none =>
    refine iff_of_true ?_ rfl
    rw [bracketBefore?]
    cases bracket? text form with
    | none => rfl
    | some bracket =>
      have same : ((bracket + 1 : Nat) : Int) ≤ offset ↔ (bracket : Int) < offset := by omega
      simp only [Option.map_some, Option.filter_some, same]
      split <;> rfl
  | some entry =>
    obtain ⟨c, position⟩ := entry
    have ahead := (misleader?_bounds order found).2
    by_cases early : (position : Int) < offset
    · cases pair : closerOf? c with
      | none =>
        cases bracketBefore? text offset form <;> simp [groupAt?, pair, early]
      | some closer =>
        have entered : ((position + 1 : Nat) : Int) ≤ offset := by omega
        refine iff_of_false (fun same => ?_) (by simp [early, pair])
        simp only [groupAt?, pair, Option.isSome_some, ↓reduceIte, Option.filter_some, entered,
          decide_true] at same
        obtain ⟨bracket, before, meets⟩ := Option.map_eq_some_iff.mp same.symm
        have behind := ahead bracket (Option.filter_eq_some_iff.mp before).1
        omega
    · have missed : (groupAt? (c, position)).filter (fun body : Nat => body ≤ offset) = none := by
        refine Option.filter_eq_none_iff.mpr fun body opened => ?_
        have behind : body = position + 1 := by
          unfold groupAt? at opened
          split at opened <;> simp_all
        simp only [decide_eq_true_eq]
        omega
      have late : bracketBefore? text offset form = none := by
        refine Option.filter_eq_none_iff.mpr fun bracket opened => ?_
        have behind := ahead bracket opened
        simp only [decide_eq_true_eq]
        omega
      exact iff_of_true (by rw [late]; exact missed) (by simp [early])

/-- The search finds what is found by going down when no form it may go through misleads it. -/
theorem lastBeforeIn_eq_precedingIn
    (clear : ∀ form ∈ treeIn text low high, form.endsBy offset = false →
      misled text offset form = false) :
    lastBeforeIn text offset low high = precedingIn text offset low high := by
  -- Both ways look at the same level; the tree below the form around the offset is a smaller one.
  induction high using Nat.strong_induction_on generalizing low with
  | h high ih =>
    rw [lastBeforeIn_eq, precedingIn_eq]
    cases isNext : (formsIn text low high).find? (!Span.endsBy offset ·) with
    | none => rfl
    | some form =>
      have level := List.mem_of_find?_eq_some isNext
      have behind : form.endsBy offset = false := by simpa using List.find?_some isNext
      have bounds := formsIn_bounds level
      have way := (entered?_eq_iff (formEnd?_of_mem_formsIn level)).mpr
        (clear form (mem_treeIn.mpr ⟨form, level, .inl rfl⟩) behind)
      simp only [way]
      cases before : bracketBefore? text offset form with
      | none => rfl
      | some bracket =>
        have opened := (Option.filter_eq_some_iff.mp before).1
        refine ih (form.stop - 1) (by omega) fun other below => clear other ?_
        exact mem_treeIn.mpr ⟨form, level, .inr ⟨bracket, opened, below⟩⟩

/-- The expression in front of an offset is the one that is found by going down the tree of forms,
as long as no form of the tree that goes on behind the offset misleads the search; and a form does
so exactly when the search does not enter it right behind the bracket of its core. What is found by
going down is a form of the tree that ends by the offset. It stands at its own depth: any other form
of the tree that it lies in has a child that it lies in, so it never stands in a comment or a
string. -/
theorem lastBefore_eq_preceding (text : List Char) (offset : Int) :
    (∀ form : Span, formEnd? text form.start = some form.stop →
      (entered? text offset form = (bracketBefore? text offset form).map (· + 1) ↔
        misled text offset form = false)) ∧
    ((∀ form ∈ tree text, form.endsBy offset = false → misled text offset form = false) →
      lastBefore text offset = preceding text offset) ∧
    ∀ span, preceding text offset = some span →
      span ∈ tree text ∧ span.endsBy offset = true ∧
        ∀ form ∈ tree text, form.start ≤ span.start → span.start < form.stop →
          span = form ∨
            ∃ child ∈ children text form, child.start ≤ span.start ∧ span.stop ≤ child.stop := by
  refine ⟨fun form read => entered?_eq_iff read, lastBeforeIn_eq_precedingIn, ?_⟩
  intro span found
  obtain ⟨member, ended⟩ := precedingIn_mem found
  exact ⟨member, ended, fun form listed => treeIn_nested listed member⟩

/-- An expression in a group in a quoted vector, with a comment between the mark and the vector. -/
theorem lastBefore_eq_preceding_quoted :
    lastBefore "(a '; c\n[b (d e)] f)".toList 15 = some ⟨14, 15⟩ ∧
      ⟨14, 15⟩ ∈ tree "(a '; c\n[b (d e)] f)".toList := by
  have law := lastBefore_eq_preceding "(a '; c\n[b (d e)] f)".toList 15
  have clear : ∀ form ∈ tree "(a '; c\n[b (d e)] f)".toList, form.endsBy 15 = false →
      misled "(a '; c\n[b (d e)] f)".toList 15 form = false := by with_unfolding_all decide
  have found : preceding "(a '; c\n[b (d e)] f)".toList 15 = some ⟨14, 15⟩ := by
    with_unfolding_all decide
  exact ⟨(law.2.1 clear).trans found, (law.2.2 _ found).1⟩

/-- With a bracket in that comment, what is found in front of the offset stands in the comment. -/
theorem lastBefore_in_comment :
    lastBefore "'; (x\n(a b)".toList 8 = some ⟨4, 5⟩ ∧
      preceding "'; (x\n(a b)".toList 8 = some ⟨7, 8⟩ ∧
      ⟨4, 5⟩ ∉ tree "'; (x\n(a b)".toList := by
  with_unfolding_all decide

end EvalDesk.Form
