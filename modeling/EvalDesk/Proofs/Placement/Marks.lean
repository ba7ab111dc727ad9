import EvalDesk.Proofs.Engine.Complaints
import EvalDesk.Proofs.Form.Quotes
import EvalDesk.Proofs.Placement.Regions

/-!
# Lines that a decoration marks

A line is marked when a decoration touches it, be it only at an end. The region of a diagnostic ends
in front of the line feed of its last line or earlier, so it touches the lines it has characters of
and no others. One expression is apart: the literal of a line feed takes the line feed along, its
region ends at the start of the next line, and that line is marked as well.
-/
namespace EvalDesk

namespace Form

/-- The region is a form that is about the literal of a line feed. -/
def IsFeed (text : List Char) (region : Span) : Prop :=
  formEnd? text region.start = some region.stop ∧ text[corePlace text region]? = some '\\' ∧
    text[corePlace text region + 1]? = some '\n'

variable {text : List Char} {form : Span}

/-- A form ends with a line feed only when it is about the literal of one. -/
theorem feed_of_last (read : formEnd? text form.start = some form.stop)
    (last : text[form.stop - 1]? = some '\n') :
    text[corePlace text form]? = some '\\' ∧ text[corePlace text form + 1]? = some '\n' := by
  obtain ⟨_, stops, _⟩ := corePlace_spec read
  have bound := (formEnd?_iff.mp read).2.2
  -- A form that ends with a mark of its own does not end with the line feed.
  have closed : ∀ {inside : List Char} {closer : Char},
      text.drop (corePlace text form + 1) = inside ++ closer :: text.drop form.stop →
        closer = '\n' := by
    intro inside closer parts
    have sizes := congrArg List.length parts
    rw [List.length_append, List.length_cons, List.length_drop, List.length_drop] at sizes
    have ends := getElem?_of_drop_eq parts
    rw [show corePlace text form + 1 + inside.length = form.stop - 1 by omega, last] at ends
    exact (Option.some.inj ends).symm
  cases about_of_formEnd? read with
  | string inside opens body parts => exact absurd (closed parts) (by decide)
  | literal run opens short parts =>
    have sizes := congrArg List.length parts
    rw [List.length_append, List.length_drop, List.length_drop] at sizes
    have apart : form.stop - 1 ≠ corePlace text form := by
      intro same
      rw [same, opens] at last
      contradiction
    have member := mem_of_drop_eq parts last (by omega) (by omega)
    rcases short with single | word
    · refine ⟨opens, ?_⟩
      rw [show corePlace text form + 1 = form.stop - 1 by omega]
      exact last
    · exact absurd (word _ member) (by decide)
  | group opener closer inside pair opens parts =>
    have closes := isCloser_of_closerOf? pair
    rw [closed parts] at closes
    exact absurd closes (by decide)
  | token run own parts =>
    have inside := own _ (mem_of_drop_eq parts last (by omega) (by omega))
    exact absurd inside (by decide)

/-- The literal of a line feed ends behind the line feed. -/
theorem IsFeed.last {region : Span} (feed : IsFeed text region) :
    text[region.stop - 1]? = some '\n' ∧ region.start < region.stop := by
  obtain ⟨read, backslash, second⟩ := feed
  obtain ⟨_, order, _⟩ := formEnd?_iff.mp read
  refine ⟨?_, order⟩
  obtain ⟨_, _, _, atCore, _⟩ := corePlace_spec read
  have bound := (formEnd?_iff.mp read).2.2
  have inside := (List.getElem?_eq_some_iff.mp second).1
  rw [drop_of_getElem? backslash, drop_of_getElem? second, formRest_cons, if_neg (by decide),
    if_neg (by decide), if_neg (by decide), if_pos rfl, charRest, if_neg (by decide),
    Option.some.injEq] at atCore
  have sizes := congrArg List.length atCore
  rw [List.length_drop, List.length_drop] at sizes
  rw [show region.stop - 1 = corePlace text region + 1 by omega]
  exact second

end Form

namespace Buffer

variable {buffer : Buffer} {line : Int} {extent : Form.Span}

/-- No character of a line is a line feed. -/
theorem ne_feed_of_lineSpan (found : buffer.lineSpan line = .ok extent) {offset : Nat}
    (starts : extent.start ≤ offset) (stops : offset < extent.stop) :
    buffer.chars[offset]? ≠ some '\n' := by
  intro feed
  obtain ⟨ordered, bound⟩ := lineSpan_bounds found
  have here := position_of_lineSpan found starts (Nat.le_of_lt stops)
  have next : ((buffer.position (offset + 1 : Nat)).1 : Int) = line :=
    position_of_lineSpan found (Nat.le_succ_of_le starts) (Nat.succ_le_of_lt stops)
  have behind := line_succ feed
  rw [if_pos rfl] at behind
  omega

/-- A visible region ends with a line feed exactly when it is the literal of one. -/
theorem Visible.isFeed_iff {region : Form.Span} (visible : buffer.Visible extent region)
    (found : buffer.lineSpan line = .ok extent) :
    Form.IsFeed buffer.chars region ↔
      region.start < region.stop ∧ buffer.chars[region.stop - 1]? = some '\n' := by
  constructor
  · intro feed
    exact feed.last.symm
  · rintro ⟨order, last⟩
    have first := visible.first
    by_cases within : region.stop ≤ extent.stop
    · exact absurd last (ne_feed_of_lineSpan found (by omega) (by omega))
    · have read := visible.beyond (Nat.lt_of_not_le within)
      exact ⟨read, Form.feed_of_last read last⟩

/-- The end of a visible region stands on its last line, unless it is the literal of a line feed;
the end of this stands on the next line. -/
theorem Visible.line_stop {region : Form.Span} (visible : buffer.Visible extent region)
    (found : buffer.lineSpan line = .ok extent) :
    (Form.IsFeed buffer.chars region ∧ (buffer.position region.stop).1 =
        (buffer.position (max region.start (region.stop - 1) : Nat)).1 + 1) ∨
      (¬Form.IsFeed buffer.chars region ∧ (buffer.position region.stop).1 =
        (buffer.position (max region.start (region.stop - 1) : Nat)).1) := by
  have ordered := visible.ordered
  have bound := visible.inside
  rw [visible.isFeed_iff found]
  by_cases order : region.start < region.stop
  · have inside : region.stop - 1 < buffer.chars.length := by omega
    have next := line_succ (List.getElem?_eq_getElem inside)
    rw [Nat.sub_add_cancel (by omega)] at next
    rw [Nat.max_eq_right (by omega), next, List.getElem?_eq_getElem inside]
    by_cases feed : buffer.chars[region.stop - 1] = '\n'
    · exact .inl ⟨⟨order, congrArg some feed⟩, by rw [if_pos feed]⟩
    · exact .inr ⟨fun both => feed (Option.some.inj both.2), by rw [if_neg feed]; rfl⟩
  · have same : region.stop = region.start := by omega
    exact .inr ⟨fun both => order both.1, by rw [Nat.max_eq_left (by omega), same]⟩

/-- The line of an offset of the text is one of the buffer. -/
theorem hasLine_position {offset : Nat} (inside : offset ≤ buffer.chars.length) :
    buffer.hasLine (buffer.position offset).1 = true := by
  have line := line_eq_count inside
  have front := (List.take_sublist offset buffer.chars).count_le '\n'
  rw [hasLine_iff, lineCount, charLines, Text.length_splitOn]
  omega

end Buffer

/-- A line is marked by a decoration when it touches the line, alone on the surface of the
buffer. -/
def Decoration.Marks (decoration : Decoration) (buffer : Buffer) (line : Int) : Prop :=
  ∃ extent, buffer.lineSpan line = .ok extent ∧
    (Decorations.add [] decoration).overlapping buffer.path extent.start extent.stop ≠ []

/-- A decoration alone touches a stretch of its own surface that it overlaps. -/
theorem Decorations.overlapping_single_ne_nil {decoration : Decoration} {surface : String}
    {start stop : Int} :
    (Decorations.add [] decoration).overlapping surface start stop ≠ [] ↔
      decoration.surface = surface ∧ decoration.start ≤ stop ∧ start ≤ decoration.stop := by
  simp [Decorations.add, overlapping, onSurface, Decoration.touches, List.filter_cons]

/-- The lines that a visible region marks go from its own to the one of its end. -/
theorem Placement.marks_iff {drawn : Placement} {buffer : Buffer} {extent : Form.Span}
    (found : buffer.lineSpan drawn.line = .ok extent)
    (visible : buffer.Visible extent ⟨drawn.start, drawn.stop⟩) (line : Int) :
    drawn.decoration.Marks buffer line ↔
      drawn.target = buffer.path ∧ drawn.line ≤ line ∧ line ≤ (buffer.position drawn.stop).1 := by
  have ordered : drawn.start ≤ drawn.stop := visible.ordered
  have bound : drawn.stop ≤ buffer.chars.length := visible.inside
  have own : ((buffer.position drawn.start).1 : Int) = drawn.line := visible.position found
  have start : drawn.decoration.start = drawn.start := by
    simp only [decoration, Decoration.between]
    omega
  have stop : drawn.decoration.stop = drawn.stop := by
    simp only [decoration, Decoration.between]
    omega
  have touched : ∀ {extent : Form.Span}, buffer.lineSpan line = .ok extent →
      ((drawn.start : Int) ≤ extent.stop ∧ (extent.start : Int) ≤ drawn.stop ↔
        drawn.line ≤ line ∧ line ≤ (buffer.position drawn.stop).1) := by
    intro extent here
    rw [Int.ofNat_le, Int.ofNat_le, Buffer.start_le_iff here bound,
      Buffer.le_stop_iff here (Nat.le_trans ordered bound), own]
  simp only [Decoration.Marks, Decorations.overlapping_single_ne_nil, start, stop]
  constructor
  · rintro ⟨extent, here, surface, around⟩
    exact ⟨surface, (touched here).mp around⟩
  · rintro ⟨surface, around⟩
    have first := Buffer.hasLine_position (Nat.le_trans ordered bound)
    have last := Buffer.hasLine_position bound
    rw [Buffer.hasLine_iff] at first last
    have known : buffer.hasLine line = true := Buffer.hasLine_iff.mpr ⟨by omega, by omega⟩
    obtain ⟨extent, here⟩ := Buffer.exists_extent known
    exact ⟨extent, here, surface, (touched here).mpr around⟩

/-- For every diagnostic that is drawn in the buffer of its target: it marks the lines from its own
to the one of its last character, and no others, exactly when it is drawn on the surface of the
buffer and its region is not the literal of a line feed. That literal marks one line more. -/
theorem marked_lines_exact_iff {σ : Type} {diagnostic : Diagnostic} {origin : Origin}
    {opener : Opener σ} {buffer : Buffer} {left : σ} {drawn : Placement}
    (opens : opener (diagnostic.place origin).1 = .ok (buffer, left))
    (placed : place diagnostic origin opener = .ok (some drawn, some left)) :
    ((∀ line : Int, drawn.decoration.Marks buffer line ↔ drawn.line ≤ line ∧
        line ≤ (buffer.position (max drawn.start (drawn.stop - 1) : Nat)).1) ↔
      drawn.target = buffer.path ∧ ¬Form.IsFeed buffer.chars ⟨drawn.start, drawn.stop⟩) ∧
    (drawn.target = buffer.path → Form.IsFeed buffer.chars ⟨drawn.start, drawn.stop⟩ →
      ∀ line : Int, drawn.decoration.Marks buffer line ↔ drawn.line ≤ line ∧
        line ≤ (buffer.position (max drawn.start (drawn.stop - 1) : Nat)).1 + 1) := by
  obtain ⟨placement, again, _, onLine⟩ := exists_place opens
  rw [placed] at again
  cases again
  obtain ⟨_, extent, found, visible⟩ := onLine drawn rfl
  have marks := Placement.marks_iff found visible
  have own : ((buffer.position drawn.start).1 : Int) = drawn.line := visible.position found
  have bound : drawn.stop ≤ buffer.chars.length := visible.inside
  have ordered : drawn.start ≤ drawn.stop := visible.ordered
  have own_last : max drawn.start (drawn.stop - 1) ≤ buffer.chars.length := by omega
  have forward := Buffer.line_mono (Nat.le_max_left drawn.start (drawn.stop - 1)) own_last
  have last := visible.line_stop found
  simp only at last
  refine ⟨⟨fun exact_lines => ?_, fun ⟨surface, tight⟩ line => ?_⟩, fun surface feed line => ?_⟩
  · -- Its own line is marked, so it is drawn on the surface; its end is on a marked line.
    have surface := ((marks drawn.line).mp
      ((exact_lines drawn.line).mpr ⟨Int.le_refl _, by omega⟩)).1
    refine ⟨surface, fun feed => ?_⟩
    rcases last with ⟨_, behind⟩ | ⟨tight, _⟩
    · have beyond := (exact_lines (buffer.position drawn.stop).1).mp
        ((marks _).mpr ⟨surface, by omega, Int.le_refl _⟩)
      omega
    · exact tight feed
  · rcases last with ⟨feed, _⟩ | ⟨_, same⟩
    · exact absurd feed tight
    · rw [marks line, ← same]
      exact and_iff_right surface
  · rcases last with ⟨_, behind⟩ | ⟨tight, _⟩
    · rw [marks line, behind]
      exact and_iff_right surface
    · exact absurd feed tight

/-- An expression that goes on behind its line marks both of its lines and no other. -/
theorem marked_lines_exact_iff_crossing :
    place ⟨1, .error, "unbound", none, some 1⟩ ⟨"a.clj", 2⟩
        (fun _ => .ok (⟨"a.clj", "a\n(f\n  x)\nb"⟩, ())) =
      .ok (some ⟨"a.clj", 2, 9, .error, "unbound", 2, some 1⟩, some ()) ∧
    ∀ line : Int, (Placement.decoration ⟨"a.clj", 2, 9, .error, "unbound", 2, some 1⟩).Marks
      ⟨"a.clj", "a\n(f\n  x)\nb"⟩ line ↔ 2 ≤ line ∧ line ≤ 3 := by
  have placed : place ⟨1, .error, "unbound", none, some 1⟩ ⟨"a.clj", 2⟩
        (fun _ => .ok (⟨"a.clj", "a\n(f\n  x)\nb"⟩, ())) =
      .ok (some ⟨"a.clj", 2, 9, .error, "unbound", 2, some 1⟩, some ()) := by
    with_unfolding_all rfl
  have open_group : ¬Form.IsFeed (Buffer.chars ⟨"a.clj", "a\n(f\n  x)\nb"⟩) ⟨2, 9⟩ := by
    intro feed
    have last : (Buffer.chars ⟨"a.clj", "a\n(f\n  x)\nb"⟩)[9 - 1]? = some '\n' := feed.last.1
    exact absurd last (by decide +kernel)
  have last : (Buffer.position ⟨"a.clj", "a\n(f\n  x)\nb"⟩ 8).1 = 3 := by decide +kernel
  have marked := (marked_lines_exact_iff rfl placed).1.mpr ⟨rfl, open_group⟩
  refine ⟨placed, fun line => (marked line).trans ?_⟩
  exact Iff.of_eq (congrArg (fun bound : Nat => (2 : Int) ≤ line ∧ line ≤ bound) last)

/-- The literal of a line feed marks the line behind it as well. -/
theorem feed_literal_marks_next_line :
    place ⟨1, .error, "unbound", none, some 1⟩ ⟨"a.clj", 1⟩
        (fun _ => .ok (⟨"a.clj", "\\\n(b)"⟩, ())) =
      .ok (some ⟨"a.clj", 0, 2, .error, "unbound", 1, some 1⟩, some ()) ∧
    (Buffer.position ⟨"a.clj", "\\\n(b)"⟩ (max 0 (2 - 1) : Nat)).1 = 1 ∧
    (Placement.decoration ⟨"a.clj", 0, 2, .error, "unbound", 1, some 1⟩).Marks
      ⟨"a.clj", "\\\n(b)"⟩ 2 := by
  refine ⟨by with_unfolding_all rfl, by decide +kernel, ⟨2, 5⟩, ?_, by decide +kernel⟩
  with_unfolding_all rfl

end EvalDesk
