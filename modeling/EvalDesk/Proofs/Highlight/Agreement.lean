import EvalDesk.Proofs.Form.Quotes
import EvalDesk.Proofs.Highlight.Strings

/-!
# Strings as they are shown and as they are read

The highlighter takes every quote outside of its strings for the start of one, while the reader of
forms knows character literals and comments too. From a place on that lies in no string of the
reader both find the same strings, up to the first quote that is in no string of the reader; there a
string is shown that is none. The comment hides what stands in it.
-/
namespace EvalDesk.Highlight

open Form (Span literals CompletelyRead Commented isLiteral levels tree)

/-- A quote that is in no string of the reader. -/
def isStray (text : List Char) (place : Nat) : Bool :=
  text[place]? = some '"' && !(literals text).any (covers place)

variable {text : List Char} {place column limit : Nat}

/-- A place is covered by a part exactly when it lies between the ends of one. -/
theorem any_covers {spans : List Span} :
    spans.any (covers place) = true ↔ ∃ span ∈ spans, span.start ≤ place ∧ place < span.stop := by
  simp only [List.any_eq_true, covers, Bool.and_eq_true, decide_eq_true_eq]

/-! ## Going along the line -/

/-- The place lies in no string of the reader, though one may start there. -/
def Outside (text : List Char) (place : Nat) : Prop :=
  ∀ span ∈ literals text, span.start < place → span.stop ≤ place

/-- At the start of a string of the reader the highlighter finds that string. -/
theorem stringsFrom_of_literal (single : '\n' ∉ text) {span : Span}
    (member : span ∈ literals text) :
    stringsFrom text span.start = span :: stringsFrom text span.stop := by
  obtain ⟨_, bound, quote, inside, body, parts⟩ := Form.literals_spec member
  have clear : '\n' ∉ inside := fun feed =>
    single (List.mem_of_mem_drop (parts ▸ List.mem_append_left _ feed))
  have size := congrArg List.length parts
  rw [List.length_append, List.length_cons, List.length_drop, List.length_drop] at size
  have stop : span.start + 1 + stringTail (text.drop (span.start + 1)) = span.stop := by
    rw [parts, stringTail_closed body clear]
    omega
  rw [stringsFrom_of_quote quote, stop]

/-- A string of the reader starts at a quote only. -/
theorem start_ne_of_unquoted (unquoted : text[place]? ≠ some '"') {span : Span}
    (member : span ∈ literals text) : span.start ≠ place := by
  rintro rfl
  exact unquoted (Form.literals_spec member).2.2.1

/-- To go along a line from a place that lies in no string of the reader: over a character that is
no quote, over a string of the reader, up to a stray quote or to the end. -/
theorem Outside.induction {motive : (place : Nat) → Outside text place → Prop}
    (beyond : ∀ place outside, text.length ≤ place → motive place outside)
    (other : ∀ place outside c, text[place]? = some c → c ≠ '"' →
      (further : Outside text (place + 1)) → motive (place + 1) further → motive place outside)
    (literal : ∀ span outside, span ∈ literals text →
      (further : Outside text span.stop) → motive span.stop further → motive span.start outside)
    (stray : ∀ place outside, isStray text place = true → motive place outside)
    (place : Nat) (outside : Outside text place) : motive place outside := by
  induction left : text.length - place using Nat.strong_induction_on generalizing place with
  | h left ih =>
    subst left
    cases found : text[place]? with
    | none => exact beyond place outside (List.getElem?_eq_none_iff.mp found)
    | some c =>
      have inside := (List.getElem?_eq_some_iff.mp found).1
      by_cases quote : c = '"'
      · subst quote
        by_cases strays : isStray text place = true
        · exact stray place outside strays
        · have own : (literals text).any (covers place) = true := by
            simpa [isStray, found] using strays
          obtain ⟨span, member, starts, stops⟩ := any_covers.mp own
          have here : span.start = place := by
            rcases Nat.eq_or_lt_of_le starts with same | before
            · exact same
            · have ended := outside span member before
              omega
          subst here
          have further : Outside text span.stop := by
            intro next listed before
            by_cases first : next.start < span.start
            · have ended := outside next listed first
              omega
            · rw [Form.literals_apart member listed (by omega) before]
          exact literal span outside member further (ih _ (by omega) _ further rfl)
      · have unquoted : text[place]? ≠ some '"' := by
          rw [found]
          exact fun same => quote (Option.some.inj same)
        have further : Outside text (place + 1) := by
          intro span member before
          have apart := start_ne_of_unquoted unquoted member
          have ended := outside span member (by omega)
          omega
        exact other place outside c found quote further (ih _ (by omega) _ further rfl)

/-- Up to the first stray quote the highlighter finds the strings of the reader. -/
theorem stringsFrom_eq_literals (single : '\n' ∉ text) (outside : Outside text place)
    (known : ∀ quote < limit, place ≤ quote → isStray text quote = false)
    (early : column < limit) (behind : place ≤ column) :
    (stringsFrom text place).any (covers column) = (literals text).any (covers column) := by
  induction place, outside using Outside.induction with
  | beyond place _ ended =>
    rw [stringsFrom_of_length_le ended, List.any_nil, eq_comm, Bool.eq_false_iff, ne_eq, any_covers]
    rintro ⟨span, member, _, stops⟩
    have bound := (Form.literals_spec member).2.1
    omega
  | other place outside c found unquoted _ ih =>
    rw [stringsFrom_of_ne found unquoted]
    rcases Nat.eq_or_lt_of_le behind with rfl | further
    · -- No string of either side has this character.
      have here : text[place]? ≠ some '"' := by
        rw [found]
        exact fun same => unquoted (Option.some.inj same)
      rw [Bool.eq_iff_iff, any_covers, any_covers]
      refine iff_of_false ?_ ?_
      · rintro ⟨span, member, starts, _⟩
        have later := le_start_of_mem_stringsFrom member
        omega
      · rintro ⟨span, member, starts, stops⟩
        have apart := start_ne_of_unquoted here member
        have ended := outside span member (by omega)
        omega
    · exact ih (fun quote early behind => known quote early (by omega)) further
  | literal span _ member _ ih =>
    rw [stringsFrom_of_literal single member, List.any_cons]
    by_cases within : column < span.stop
    · have both := any_covers.mpr ⟨span, member, behind, within⟩
      simp [both, covers, behind, within]
    · have order := (Form.literals_spec member).1
      rw [ih (fun quote early behind => known quote early (by omega)) (by omega)]
      simp [covers, within]
  | stray place _ strays =>
    rw [known place (by omega) (Nat.le_refl _)] at strays
    contradiction

/-- At the first stray quote the highlighter finds a string. -/
theorem stringsFrom_stray (single : '\n' ∉ text) (outside : Outside text place)
    (known : ∀ quote < limit, place ≤ quote → isStray text quote = false)
    (behind : place ≤ limit) (strays : isStray text limit = true) :
    (stringsFrom text place).any (covers limit) = true := by
  have quote : text[limit]? = some '"' := by
    simp only [isStray, Bool.and_eq_true, decide_eq_true_eq] at strays
    exact strays.1
  induction place, outside using Outside.induction with
  | beyond place _ ended =>
    have inside := (List.getElem?_eq_some_iff.mp quote).1
    omega
  | other place _ c found unquoted _ ih =>
    rw [stringsFrom_of_ne found unquoted]
    rcases Nat.eq_or_lt_of_le behind with rfl | further
    · exact absurd (Option.some.inj (found.symm.trans quote)) unquoted
    · exact ih (fun quote early behind => known quote early (by omega)) further
  | literal span _ member _ ih =>
    have apart : span.stop ≤ limit := by
      by_contra within
      have both := any_covers.mpr ⟨span, member, behind, Nat.lt_of_not_le within⟩
      simp [isStray, both] at strays
    have order := (Form.literals_spec member).1
    rw [stringsFrom_of_literal single member, List.any_cons,
      ih (fun quote early behind => known quote early (by omega)) apart, Bool.or_true]
  | stray place _ first =>
    -- The first stray quote is the limit itself.
    have last : place = limit := by
      rcases Nat.eq_or_lt_of_le behind with same | before
      · exact same
      · rw [known place before (Nat.le_refl _)] at first
        contradiction
    rw [last, stringsFrom_of_quote quote, any_covers]
    exact ⟨_, .head _, Nat.le_refl _, by simp only; omega⟩

/-! ## Strings as they are shown -/

/-- A stray quote stands in the line. -/
theorem lt_length_of_isStray (strays : isStray text place = true) : place < text.length := by
  simp only [isStray, Bool.and_eq_true, decide_eq_true_eq] at strays
  exact (List.getElem?_eq_some_iff.mp strays.1).1

/-- The strings of a line are found from its start on. -/
theorem strings_eq_stringsFrom (text : List Char) : strings text = stringsFrom text 0 := rfl

/-- The start of a line lies in no string. -/
theorem outside_zero (text : List Char) : Outside text 0 := fun _ _ before =>
  absurd before (Nat.not_lt_zero _)

/-- What stands behind a place of the comment stands in it. -/
theorem commented_behind (inside : column < text.length)
    (commented : (comments text).any (covers place) = true) (behind : place ≤ column) :
    (comments text).any (covers column) = true := by
  obtain ⟨span, member, starts, stops⟩ := any_covers.mp commented
  refine any_covers.mpr ⟨span, member, by omega, ?_⟩
  unfold comments at member
  split at member
  · contradiction
  · split at member
    · contradiction
    · rw [List.mem_singleton.mp member]
      exact inside

/-- A line is shown with the strings that the reader finds exactly when every stray quote stands in
the comment that is shown, and no string of the reader does. On a line that is read completely a
stray quote is that of a character literal, or it stands in a comment for the reader as well. -/
theorem strings_shown_iff (single : '\n' ∉ text) (complete : CompletelyRead text) :
    ((∀ column < text.length, styleOf? text column = some "green" ↔
        ∃ span ∈ literals text, span.start ≤ column ∧ column < span.stop) ↔
      (∀ place, isStray text place = true → (comments text).any (covers place) = true) ∧
        ∀ place, (literals text).any (covers place) = true →
          (comments text).any (covers place) = false) ∧
    ∀ place, isStray text place = true →
      (∃ form ∈ tree text, isLiteral text form place = true) ∨
        ∃ level ∈ levels text, Commented text level.1 level.2 place := by
  refine ⟨⟨fun shown => ⟨?_, ?_⟩, ?_⟩, ?_⟩
  · -- The first stray quote that stands in no comment would be shown as a string.
    intro place strays
    by_contra open_air
    have exists_stray : ∃ place, isStray text place = true := ⟨place, strays⟩
    let first := Nat.find exists_stray
    have isFirst : isStray text first = true := Nat.find_spec exists_stray
    have before : first ≤ place := Nat.find_min' exists_stray strays
    have opens : (strings text).any (covers first) = true :=
      stringsFrom_stray single (outside_zero text)
        (fun quote early _ => Bool.eq_false_iff.mpr (Nat.find_min exists_stray early))
        (Nat.zero_le _) isFirst
    have uncovered : (comments text).any (covers first) = false := by
      by_contra commented
      exact open_air
        (commented_behind (lt_length_of_isStray strays) (by simpa using commented) before)
    have inside := lt_length_of_isStray isFirst
    have green := (styleOf?_eq_green inside).mpr ⟨opens, uncovered⟩
    have literal := any_covers.mpr ((shown first inside).mp green)
    simp [isStray, literal] at isFirst
  · intro place isString
    obtain ⟨span, member, starts, stops⟩ := any_covers.mp isString
    have inside : place < text.length := by
      have bound := (Form.literals_spec member).2.1
      omega
    exact ((styleOf?_eq_green inside).mp ((shown place inside).mpr ⟨span, member, starts, stops⟩)).2
  · rintro ⟨hidden, clear⟩ column inside
    rw [styleOf?_eq_green inside, ← any_covers]
    by_cases commented : (comments text).any (covers column) = true
    · refine iff_of_false (fun both => ?_) fun isString => ?_
      · rw [commented] at both
        exact absurd both.2 (by decide)
      · rw [clear column isString] at commented
        contradiction
    · -- Up to this column there is no stray quote, since it would stand in the comment.
      have known : ∀ quote < column + 1, 0 ≤ quote → isStray text quote = false := by
        intro quote early _
        by_contra strays
        exact commented (commented_behind inside (hidden quote (by simpa using strays)) (by omega))
      have same := stringsFrom_eq_literals single (outside_zero text) known
        (Nat.lt_succ_self column) (Nat.zero_le _)
      rw [strings_eq_stringsFrom, same]
      exact and_iff_left (Bool.eq_false_iff.mpr commented)
  · intro place strays
    simp only [isStray, Bool.and_eq_true, decide_eq_true_eq, Bool.not_eq_true'] at strays
    obtain ⟨quote, apart⟩ := strays
    rcases Form.quote_placed single complete quote with isString | others
    · rw [any_covers.mpr isString] at apart
      contradiction
    · exact others

/-- A line with a string, a regular expression and a comment with quotes is shown as it is read. -/
theorem strings_shown_iff_before_comment :
    '\n' ∉ "(f \"a\" #\"b\") ; \"c\"".toList ∧ CompletelyRead "(f \"a\" #\"b\") ; \"c\"".toList ∧
      ∀ column < 18, styleOf? "(f \"a\" #\"b\") ; \"c\"".toList column = some "green" ↔
        ∃ span ∈ literals "(f \"a\" #\"b\") ; \"c\"".toList,
          span.start ≤ column ∧ column < span.stop := by
  have single : '\n' ∉ "(f \"a\" #\"b\") ; \"c\"".toList := by decide
  have complete : CompletelyRead "(f \"a\" #\"b\") ; \"c\"".toList := by
    unfold CompletelyRead Form.Covered
    with_unfolding_all decide
  have read : literals "(f \"a\" #\"b\") ; \"c\"".toList = [⟨3, 6⟩, ⟨8, 11⟩] := by
    with_unfolding_all decide
  have comment : comments "(f \"a\" #\"b\") ; \"c\"".toList = [⟨13, 18⟩] := by decide +kernel
  have hidden : ∀ place < 18, isStray "(f \"a\" #\"b\") ; \"c\"".toList place = true →
      (comments "(f \"a\" #\"b\") ; \"c\"".toList).any (covers place) = true := by
    simp only [isStray, read]
    decide +kernel
  have clear : ∀ place, (literals "(f \"a\" #\"b\") ; \"c\"".toList).any (covers place) = true →
      (comments "(f \"a\" #\"b\") ; \"c\"".toList).any (covers place) = false := by
    intro place
    simp only [read, comment, covers, List.any_cons, List.any_nil, Bool.or_false, Bool.or_eq_true,
      Bool.and_eq_true, decide_eq_true_eq, Bool.and_eq_false_iff, decide_eq_false_iff_not]
    omega
  have covered : ∀ place, isStray "(f \"a\" #\"b\") ; \"c\"".toList place = true →
      (comments "(f \"a\" #\"b\") ; \"c\"".toList).any (covers place) = true :=
    fun place strays => hidden place (lt_length_of_isStray strays) strays
  exact ⟨single, complete, (strings_shown_iff single complete).1.mpr ⟨covered, clear⟩⟩

/-- The quote of a character literal is shown as the start of a string. -/
theorem quote_literal_opens_string :
    CompletelyRead "\\\" a".toList ∧
      ¬(∀ column < "\\\" a".toList.length,
        styleOf? "\\\" a".toList column = some "green" ↔
          ∃ span ∈ literals "\\\" a".toList, span.start ≤ column ∧ column < span.stop) := by
  have complete : CompletelyRead "\\\" a".toList := by
    unfold CompletelyRead Form.Covered
    with_unfolding_all decide
  have none_read : literals "\\\" a".toList = [] := by with_unfolding_all decide
  have green : styleOf? "\\\" a".toList 1 = some "green" := by decide +kernel
  refine ⟨complete, fun shown => ?_⟩
  obtain ⟨span, member, _⟩ := (shown 1 (by decide)).mp green
  rw [none_read] at member
  contradiction

end EvalDesk.Highlight
