import EvalDesk.Proofs.Form.Order
import EvalDesk.Proofs.Form.Reading
import EvalDesk.Proofs.Form.TopLevel

/-!
# The outermost form at an offset

The search for the outermost form goes over a text once and remembers the form before. What it finds
can be told from the list of the forms alone, together with the one form without an end at which the
reading of them may stop: it is the last of these that starts at or before the offset, and the first
form when none does. From this follows which form is found between forms, in front of them and
behind them, that a form is found again at its own start, and that later offsets find later forms.
-/
namespace EvalDesk.Form

/-- The forms of the end of a text of a given size. -/
def formsOf (size : Nat) (input : List Char) : List Span :=
  (extentsBy commentLength? 0 input).map fun (start, stop) => ⟨size - start, size - stop⟩

/-- The form without an end at which the reading of the forms of an input stops, if it stops at one;
it reaches up to the end of the text. -/
def unfinishedOf (size : Nat) (input : List Char) : Option Span :=
  let rest := skipBlank (behindFormsBy commentLength? input)
  if rest = [] then none else some ⟨size - rest.length, size⟩

/-- The forms of an input, and behind them the one without an end. -/
def stretchesOf (size : Nat) (input : List Char) : List Span :=
  formsOf size input ++ (unfinishedOf size input).toList

/-- The form without an end at which the reading of the forms of a text stops. -/
def unfinished? (text : List Char) : Option Span := unfinishedOf text.length text

/-- The outermost form at an offset, told by the forms of the text: the one the offset lies in; else
the one without an end when it starts at or before the offset; else the last one that ends at or
before the offset; else the first one. -/
def outermost (text : List Char) (offset : Int) : Option Span :=
  (((forms text).find? (Span.holds offset)).or
    ((unfinished? text).filter (Span.startsBy offset))).or
      (((forms text).filter (Span.endsBy offset)).getLast?.or (forms text).head?)

/-! ## Forms of an input, one by one -/

section Input

variable {size : Nat} {offset : Int} {previous : Option Span} {input rest : List Char}

/-- An input whose first form has no end has no forms. -/
theorem formsOf_unread (unread : formRest (skipBlank input) = none) : formsOf size input = [] := by
  rw [formsOf, extentsBy]
  split
  · rfl
  · split
    · rfl
    · rename_i rest read
      have one := unread.symm.trans read
      contradiction

/-- The first form of an input stands before those of what is left behind it. -/
theorem formsOf_read (read : formRest (skipBlank input) = some rest) :
    formsOf size input =
      ⟨size - (skipBlank input).length, size - rest.length⟩ :: formsOf size rest := by
  have shorter : rest.length < (skipBlank input).length := length_formRestBy_lt read
  have ink : ¬(skipBlankBy commentLength? input).length ≤ 0 := by
    simp only [skipBlank] at shorter
    omega
  rw [formsOf, extentsBy, if_neg ink]
  split
  · rename_i missing
    have one := missing.symm.trans read
    contradiction
  · rename_i other found
    cases found.symm.trans read
    rw [if_neg (Nat.not_lt_zero _)]
    rfl

/-- An input whose first form has no end stops there, unless it has blanks only. -/
theorem unfinishedOf_unread (unread : formRest (skipBlank input) = none) :
    unfinishedOf size input =
      if skipBlank input = [] then none else some ⟨size - (skipBlank input).length, size⟩ := by
  rw [unfinishedOf, behindFormsBy]
  split
  · rfl
  · rename_i rest read
    have one := unread.symm.trans read
    contradiction

/-- Behind a form the reading stops where it stops for what is left. -/
theorem unfinishedOf_read (read : formRest (skipBlank input) = some rest) :
    unfinishedOf size input = unfinishedOf size rest := by
  have same : behindFormsBy commentLength? input = behindFormsBy commentLength? rest := by
    rw [behindFormsBy]
    split
    · rename_i missing
      have one := missing.symm.trans read
      contradiction
    · rename_i other found
      cases found.symm.trans read
      rfl
  rw [unfinishedOf, same, unfinishedOf]

/-- The first form of an input stands before all that is left behind it. -/
theorem stretchesOf_read (read : formRest (skipBlank input) = some rest) :
    stretchesOf size input =
      ⟨size - (skipBlank input).length, size - rest.length⟩ :: stretchesOf size rest := by
  rw [stretchesOf, formsOf_read read, unfinishedOf_read read, List.cons_append]
  rfl

/-- Behind the last form no more is left than before the first one. -/
theorem length_behindFormsBy_le (reach : List Char → Option Nat) (input : List Char) :
    (behindFormsBy reach input).length ≤ input.length := by
  fun_induction behindFormsBy reach input with
  | case1 => exact Nat.le_refl _
  | case2 input rest read ih =>
    have shorter := length_formRestBy_lt read
    have blanks := length_skipBlankBy_le reach input
    omega

/-- The forms of an input and the one without an end lie in it, and none is empty. -/
theorem stretchesOf_bounds {form : Span} (member : form ∈ stretchesOf size input)
    (bound : input.length ≤ size) :
    size - input.length ≤ form.start ∧ form.start < form.stop ∧ form.stop ≤ size := by
  rcases List.mem_append.mp member with finished | unfinished
  · obtain ⟨extent, listed, rfl⟩ := List.mem_map.mp finished
    obtain ⟨_, filled, within⟩ := extentsBy_bounds listed
    simp only
    omega
  · have blanks := length_skipBlankBy_le commentLength? (behindFormsBy commentLength? input)
    have behind := length_behindFormsBy_le commentLength? input
    rw [Option.mem_toList, unfinishedOf] at unfinished
    split at unfinished
    · contradiction
    · rename_i ink
      cases unfinished
      have filled := List.length_pos_iff.mpr ink
      simp only [skipBlank] at *
      omega

/-- The forms of an input and the one without an end stand one behind the other. -/
theorem stretchesOf_pairwise (bound : input.length ≤ size) :
    (stretchesOf size input).Pairwise fun first second => first.stop ≤ second.start := by
  fun_induction behindFormsBy commentLength? input with
  | case1 input unread =>
    rw [stretchesOf, formsOf_unread unread, List.nil_append]
    cases unfinishedOf size input <;> simp
  | case2 input rest read ih =>
    have shorter : rest.length < (skipBlank input).length := length_formRestBy_lt read
    have blanks : (skipBlank input).length ≤ input.length :=
      length_skipBlankBy_le commentLength? input
    rw [stretchesOf_read read]
    exact .cons (fun later member => (stretchesOf_bounds member (by omega)).1) (ih (by omega))

/-- None of the forms of an input starts in front of it. -/
theorem filter_startsBy_eq_nil (before : offset < (size - input.length : Nat))
    (bound : input.length ≤ size) :
    (stretchesOf size input).filter (Span.startsBy offset) = [] := by
  rw [List.filter_eq_nil_iff]
  intro form member
  have bounds := stretchesOf_bounds member bound
  simp only [Span.startsBy, decide_eq_true_eq]
  omega

/-- The outermost form at an offset is the last one that starts at or before it, the one without an
end included; else the one before the input, else the first one. -/
theorem topLevelFrom_eq_lastStarted (bound : input.length ≤ size) :
    topLevelFrom size offset previous input =
      ((stretchesOf size input).filter (Span.startsBy offset)).getLast?.or
        (previous.or (formsOf size input).head?) := by
  fun_induction topLevelFrom size offset previous input with
  | case1 previous input blank =>
    have unread : formRest (skipBlank input) = none := by rw [blank, formRest, formRestBy]
    rw [stretchesOf, formsOf_unread unread, unfinishedOf_unread unread, if_pos blank]
    simp
  | case2 previous input ink start unread reached =>
    have started : Span.startsBy offset ⟨start, size⟩ = true := decide_eq_true reached
    rw [stretchesOf, formsOf_unread unread, unfinishedOf_unread unread, if_neg ink, List.nil_append,
      Option.toList_some, List.filter_cons_of_pos started]
    rfl
  | case3 previous input ink start unread before =>
    have unstarted : ¬Span.startsBy offset ⟨start, size⟩ = true := by
      simpa [Span.startsBy] using before
    rw [stretchesOf, formsOf_unread unread, unfinishedOf_unread unread, if_neg ink, List.nil_append,
      Option.toList_some, List.filter_cons_of_neg unstarted]
    simp
  | case4 previous input ink start rest read first before =>
    have shorter : rest.length < (skipBlank input).length := length_formRestBy_lt read
    have blanks : (skipBlank input).length ≤ input.length :=
      length_skipBlankBy_le commentLength? input
    have unstarted : ¬first.startsBy offset = true := by simpa [Span.startsBy] using before
    have apart : offset < (size - rest.length : Nat) := by simp only [first, start] at before; omega
    rw [stretchesOf_read read, List.filter_cons_of_neg unstarted,
      filter_startsBy_eq_nil apart (by omega), formsOf_read read, Option.orElse_eq_orElse,
      Option.orElse_eq_or]
    rfl
  | case5 previous input ink start rest read first reached inside =>
    have shorter : rest.length < (skipBlank input).length := length_formRestBy_lt read
    have blanks : (skipBlank input).length ≤ input.length :=
      length_skipBlankBy_le commentLength? input
    have started : first.startsBy offset = true := decide_eq_true (Int.not_lt.mp reached)
    rw [stretchesOf_read read, List.filter_cons_of_pos started,
      filter_startsBy_eq_nil inside (by omega)]
    rfl
  | case6 previous input ink start rest read first reached behind ih =>
    have shorter : rest.length < (skipBlank input).length := length_formRestBy_lt read
    have blanks : (skipBlank input).length ≤ input.length :=
      length_skipBlankBy_le commentLength? input
    have started : first.startsBy offset = true := decide_eq_true (Int.not_lt.mp reached)
    rw [ih (by omega), stretchesOf_read read, List.filter_cons_of_pos started, List.getLast?_cons]
    cases ((stretchesOf size rest).filter (Span.startsBy offset)).getLast? <;> rfl

end Input

/-! ## Forms of a text -/

/-- The forms of a text are those of its end that is the whole text. -/
theorem formsOf_text (text : List Char) : formsOf text.length text = forms text := by
  rw [forms, formsIn, Nat.sub_self, List.drop_zero, formsOf]

/-- What is left behind the last form is an end of the input, and its first form has no end. -/
theorem behindFormsBy_unread (input : List Char) :
    behindFormsBy commentLength? input <:+ input ∧
      formRest (skipBlank (behindFormsBy commentLength? input)) = none := by
  fun_induction behindFormsBy commentLength? input with
  | case1 input unread => exact ⟨List.suffix_refl _, unread⟩
  | case2 input rest read ih =>
    have blanks := skipBlankBy_suffix commentLength? input
    exact ⟨(ih.1.trans (formRest_suffix read)).trans blanks, ih.2⟩

section Text

variable {text : List Char} {offset : Int} {form : Span}

/-- The forms of a text stand one behind the other, and in front of the one without an end. -/
theorem forms_pairwise_unfinished (text : List Char) :
    (forms text).Pairwise (fun first second => first.stop ≤ second.start) ∧
      ∀ form, unfinished? text = some form →
        ∀ finished ∈ forms text, finished.stop ≤ form.start := by
  have ordered := stretchesOf_pairwise (Nat.le_refl text.length)
  rw [stretchesOf, formsOf_text, List.pairwise_append] at ordered
  refine ⟨ordered.1, fun form found finished member => ?_⟩
  exact ordered.2.2 finished member form (Option.mem_toList.mpr found)

/-- The form without an end starts where no form can be read, and reaches up to the end of the
text. -/
theorem unfinished?_unread (found : unfinished? text = some form) :
    formEnd? text form.start = none ∧ form.stop = text.length := by
  obtain ⟨isEnd, unread⟩ := behindFormsBy_unread text
  rw [unfinished?, unfinishedOf] at found
  split at found
  · contradiction
  · cases found
    have blanks := skipBlankBy_suffix commentLength? (behindFormsBy commentLength? text)
    have left := List.suffix_iff_eq_drop.mp (blanks.trans isEnd)
    refine ⟨?_, rfl⟩
    simp only [formEnd?, skipBlank] at unread ⊢
    rw [← left, unread]
    rfl

/-- The outermost form at an offset is the last one that starts at or before it, the one without an
end included, else the first one. -/
theorem topLevelAt_eq_lastStarted (text : List Char) (offset : Int) :
    topLevelAt text offset =
      ((stretchesOf text.length text).filter (Span.startsBy offset)).getLast?.or
        (forms text).head? := by
  rw [topLevelAt, topLevelFrom_eq_lastStarted (Nat.le_refl _), formsOf_text]
  rfl

/-- Of stretches in order the last one that starts at or before an offset is the one the offset lies
in, else the last one that ends at or before it. -/
theorem getLast?_startsBy {stretches : List Span}
    (ordered : stretches.Pairwise fun first second => first.stop ≤ second.start)
    (filled : ∀ stretch ∈ stretches, stretch.start < stretch.stop) (offset : Int) :
    (stretches.filter (Span.startsBy offset)).getLast? =
      (stretches.find? (Span.holds offset)).or
        (stretches.filter (Span.endsBy offset)).getLast? := by
  induction ordered with
  | nil => rfl
  | @cons first rest behind _ ih =>
    have later := ih fun stretch member => filled stretch (.tail _ member)
    have own := filled first (.head _)
    by_cases ended : first.endsBy offset = true
    · have started : first.startsBy offset = true := by
        simp only [Span.startsBy, Span.endsBy, decide_eq_true_eq] at ended ⊢
        omega
      have passed : ¬first.holds offset = true := by simp [Span.holds, ended]
      rw [List.filter_cons_of_pos started, List.filter_cons_of_pos ended,
        List.find?_cons_of_neg passed, List.getLast?_cons, List.getLast?_cons, later]
      cases rest.find? (Span.holds offset) <;> rfl
    · -- Whatever stands behind the first stretch starts behind the offset.
      have unstarted : rest.filter (Span.startsBy offset) = [] := by
        rw [List.filter_eq_nil_iff]
        intro stretch member
        have order := behind stretch member
        simp only [Span.startsBy, Span.endsBy, decide_eq_true_eq] at ended ⊢
        omega
      rw [unstarted, List.getLast?_nil, Eq.comm, Option.or_eq_none_iff] at later
      rw [List.filter_cons_of_neg ended, later.2, Option.or_none]
      by_cases started : first.startsBy offset = true
      · have inside : first.holds offset = true := by simp [Span.holds, started, ended]
        rw [List.filter_cons_of_pos started, unstarted, List.find?_cons_of_pos inside]
        rfl
      · have outside : ¬first.holds offset = true := by simp [Span.holds, started]
        rw [List.filter_cons_of_neg started, unstarted, List.find?_cons_of_neg outside, later.1]
        rfl

/-- No form holds an offset at or behind the start of the form without an end. -/
theorem find?_holds_eq_none (found : unfinished? text = some form)
    (started : form.startsBy offset = true) : (forms text).find? (Span.holds offset) = none := by
  rw [List.find?_eq_none]
  intro finished member
  have before := (forms_pairwise_unfinished text).2 form found finished member
  have ended : finished.endsBy offset = true := by
    simp only [Span.startsBy, Span.endsBy, decide_eq_true_eq] at started ⊢
    omega
  simp [Span.holds, ended]

/-- The outermost form at an offset is one of the forms of the text or the one without an end. -/
theorem mem_of_topLevelAt (found : topLevelAt text offset = some form) :
    form ∈ stretchesOf text.length text := by
  rw [topLevelAt_eq_lastStarted, Option.or_eq_some_iff] at found
  rcases found with started | ⟨_, isFirst⟩
  · exact (List.mem_filter.mp (List.mem_of_getLast? started)).1
  · rw [stretchesOf, formsOf_text]
    exact List.mem_append_left _ (List.mem_of_head? isFirst)

/-- The outermost form at an offset is the one told by the forms of the text. -/
theorem topLevelAt_eq_outermost (text : List Char) (offset : Int) :
    topLevelAt text offset = outermost text offset := by
  have filled : ∀ form ∈ forms text, form.start < form.stop := fun form member =>
    (formsIn_bounds member).2.1
  rw [topLevelAt_eq_lastStarted, stretchesOf, formsOf_text, List.filter_append,
    List.getLast?_append, getLast?_startsBy (forms_pairwise_unfinished text).1 filled, outermost,
    ← unfinished?]
  cases found : unfinished? text with
  | none => simp [Option.or_assoc]
  | some form =>
    rw [Option.toList_some]
    by_cases started : form.startsBy offset = true
    · rw [find?_holds_eq_none found started, List.filter_cons_of_pos started,
        Option.filter_some_pos started]
      rfl
    · rw [List.filter_cons_of_neg started, Option.filter_some_neg (by simpa using started)]
      simp [Option.or_assoc]

/-- In a list in order nothing starts behind the start of the last one. -/
theorem start_le_of_getLast? {stretches : List Span} {last : Span}
    (ordered : stretches.Pairwise fun first second => first.start ≤ second.start)
    (isLast : stretches.getLast? = some last) :
    ∀ stretch ∈ stretches, stretch.start ≤ last.start := by
  obtain ⟨front, rfl⟩ := List.getLast?_eq_some_iff.mp isLast
  intro stretch member
  rcases List.mem_append.mp member with before | own
  · exact (List.pairwise_append.mp ordered).2.2 stretch before last (.head _)
  · exact Nat.le_of_eq (congrArg Span.start (List.mem_singleton.mp own))

/-- The forms of a text and the one without an end start one behind the other. -/
theorem stretchesOf_starts (text : List Char) :
    (stretchesOf text.length text).Pairwise fun first second => first.start ≤ second.start := by
  refine (stretchesOf_pairwise (Nat.le_refl _)).imp_of_mem fun {first second} one _ order => ?_
  have filled := (stretchesOf_bounds one (Nat.le_refl _)).2.1
  omega

/-- A later offset finds a form that starts no earlier. -/
theorem topLevelAt_mono {first second : Int} (order : first ≤ second)
    (found : topLevelAt text first = some form) :
    ∃ later, topLevelAt text second = some later ∧ form.start ≤ later.start := by
  have ordered := stretchesOf_starts text
  rw [topLevelAt_eq_lastStarted, Option.or_eq_some_iff] at found
  rw [topLevelAt_eq_lastStarted]
  rcases found with started | ⟨_, isFirst⟩
  · -- What has started by the first offset has started by the second one.
    obtain ⟨listed, early⟩ := List.mem_filter.mp (List.mem_of_getLast? started)
    have late : form.startsBy second = true := by
      simp only [Span.startsBy, decide_eq_true_eq] at early ⊢
      omega
    have member := List.mem_filter.mpr ⟨listed, late⟩
    have isLast := List.getLast?_eq_some_getLast (List.ne_nil_of_mem member)
    rw [isLast]
    exact ⟨_, rfl, start_le_of_getLast? (ordered.sublist List.filter_sublist) isLast form member⟩
  · cases reached : ((stretchesOf text.length text).filter (Span.startsBy second)).getLast? with
    | none => exact ⟨form, isFirst, Nat.le_refl _⟩
    | some last =>
      have own := (List.mem_filter.mp (List.mem_of_getLast? reached)).1
      obtain ⟨rest, isHead⟩ := List.head?_eq_some_iff.mp isFirst
      rw [stretchesOf, formsOf_text, isHead, List.cons_append] at own ordered
      refine ⟨last, rfl, ?_⟩
      rcases List.mem_cons.mp own with rfl | behind
      · exact Nat.le_refl _
      · exact (List.pairwise_cons.mp ordered).1 last behind

end Text

/-- The outermost form at an offset is the one the offset lies in; else the form without an end,
when the reading of the forms stops at one at or before the offset; else the last form that ends at
or before the offset; else the first one. So a form that is found is found again at its own start,
and the forms found at later offsets never start earlier. -/
theorem topLevelAt_told_by_forms (text : List Char) :
    (∀ offset, topLevelAt text offset = outermost text offset) ∧
      (∀ form, unfinished? text = some form →
        formEnd? text form.start = none ∧ form.stop = text.length ∧
          ∀ finished ∈ forms text, finished.stop ≤ form.start) ∧
      (∀ offset form, topLevelAt text offset = some form →
        topLevelAt text form.start = some form) ∧
      ∀ first second form, first ≤ second → topLevelAt text first = some form →
        ∃ later, topLevelAt text second = some later ∧ form.start ≤ later.start := by
  refine ⟨topLevelAt_eq_outermost text, ?_, ?_, ?_⟩
  · intro form found
    obtain ⟨unread, reaches⟩ := unfinished?_unread found
    exact ⟨unread, reaches, (forms_pairwise_unfinished text).2 form found⟩
  · exact fun offset form found => topLevelAt_start found
  · exact fun first second form order found => topLevelAt_mono order found

/-- In a text with a bracket in a comment and a list without an end, an offset in the comment finds
the form before it, and one in the unfinished list finds what is left of the text. -/
theorem topLevelAt_told_by_forms_unfinished :
    topLevelAt "(a) ;(\n b (c".toList 5 = some ⟨0, 3⟩ ∧
      unfinished? "(a) ;(\n b (c".toList = some ⟨10, 12⟩ ∧
      formEnd? "(a) ;(\n b (c".toList 10 = none ∧
      topLevelAt "(a) ;(\n b (c".toList 0 = some ⟨0, 3⟩ ∧
      ∃ later, topLevelAt "(a) ;(\n b (c".toList 11 = some later ∧ 0 ≤ later.start := by
  obtain ⟨_, unread, again, later⟩ := topLevelAt_told_by_forms "(a) ;(\n b (c".toList
  have found : topLevelAt "(a) ;(\n b (c".toList 5 = some ⟨0, 3⟩ := by with_unfolding_all decide
  have unfinished : unfinished? "(a) ;(\n b (c".toList = some ⟨10, 12⟩ := by
    with_unfolding_all decide
  exact ⟨found, unfinished, (unread _ unfinished).1, again 5 _ found,
    later 5 11 _ (by decide) found⟩

end EvalDesk.Form
