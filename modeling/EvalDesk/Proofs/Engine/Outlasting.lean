import EvalDesk.Proofs.Engine.Backing

/-!
# Drawn over a text that is gone

A decoration lies in the text it was drawn on. It keeps its offsets and its line when another text
is shown in place of this one, and only the start of a cycle takes it away. So what is drawn on the
shown source lies in its text exactly as far as the texts that were shown before it are still
reached, and it is a start, a save that is not loaded or the end of a jump that can change this.
-/
namespace EvalDesk

/-- A decoration lies in a buffer: in its text, and on one of its lines. -/
structure Decoration.Fits (decoration : Decoration) (buffer : Buffer) : Prop where
  /-- It starts in the text. -/
  start : 0 ≤ decoration.start
  /-- It does not end before its start. -/
  ordered : decoration.start ≤ decoration.stop
  /-- It ends in the text. -/
  stop : decoration.stop ≤ buffer.chars.length
  /-- Its line is one of the lines. -/
  line : buffer.hasLine decoration.line = true

/-- The text of a buffer is as long as a decoration asks for. -/
structure Buffer.Reaches (buffer : Buffer) (decoration : Decoration) : Prop where
  /-- It has the characters. -/
  text : decoration.stop ≤ buffer.chars.length
  /-- It has the line. -/
  lines : decoration.line ≤ buffer.lineCount

/-- A decoration that lies in one buffer lies in another one exactly when this is long enough. -/
theorem Decoration.Fits.iff_reaches {decoration : Decoration} {placed buffer : Buffer}
    (fits : decoration.Fits placed) : decoration.Fits buffer ↔ buffer.Reaches decoration := by
  constructor
  · intro within
    exact ⟨within.stop, (Buffer.hasLine_iff.mp within.line).2⟩
  · intro reaches
    exact ⟨fits.start, fits.ordered, reaches.text,
      Buffer.hasLine_iff.mpr ⟨(Buffer.hasLine_iff.mp fits.line).1, reaches.lines⟩⟩

/-- A decoration lies in every buffer with the same text. -/
theorem Decoration.Fits.of_text {decoration : Decoration} {placed buffer : Buffer}
    (fits : decoration.Fits placed) (same : placed.text = buffer.text) :
    decoration.Fits buffer := by
  obtain ⟨path, text⟩ := placed
  obtain ⟨other, _⟩ := buffer
  cases same
  exact ⟨fits.start, fits.ordered, fits.stop, fits.line⟩

/-- A diagnostic is drawn on the buffer in which it is placed, and lies in it. -/
theorem fits_of_placeIn {diagnostic : Diagnostic} {target : String} {line : Int} {buffer : Buffer}
    {placement : Placement} (drawn : diagnostic.placeIn target line buffer = .ok (some placement)) :
    placement.decoration.Fits buffer ∧
      (buffer.path ≠ "" → placement.decoration.surface = buffer.path) := by
  obtain ⟨inside, extent, span, own, covers, rfl⟩ := Diagnostic.placeIn_cases drawn
  obtain ⟨along, bound⟩ := Buffer.lineSpan_bounds own
  have within : span.start ≤ span.stop ∧ span.stop ≤ buffer.chars.length := by
    rcases covers with rfl | ⟨first, behind, rfl⟩
    · exact ⟨along, bound⟩
    · exact ⟨(Buffer.spanFrom_within along bound behind).2.2, Buffer.stop_spanFrom_le bound first⟩
  refine ⟨⟨?_, ?_, ?_, inside⟩, fun named => if_neg named⟩ <;>
    simp only [Placement.decoration, Decoration.between] <;> omega

/-- A complaint draws a decoration on a buffer, the one that was opened for its diagnostic when the
complaint came back. -/
structure Complaint.DrawsOn (complaint : Complaint) (decoration : Decoration) (buffer : Buffer) :
    Prop where
  /-- The decoration is drawn. -/
  drawn : complaint.decoration? = some decoration
  /-- The buffer was opened for the diagnostic. -/
  opened : ∃ diagnostic opened, complaint.diagnostic? = some diagnostic ∧
    complaint.engine.openBuffer complaint.disk (diagnostic.place complaint.origin).1 =
      .ok (buffer, opened)
  /-- The decoration is on its surface. -/
  surface : buffer.path ≠ "" → decoration.surface = buffer.path

/-- What a complaint draws lies in the buffer on which it is drawn. -/
theorem Complaint.exists_drawsOn {complaint : Complaint} {decoration : Decoration}
    (drawn : complaint.decoration? = some decoration) :
    ∃ buffer, complaint.DrawsOn decoration buffer ∧ decoration.Fits buffer := by
  obtain ⟨diagnostic, placement, left, found, placed, rfl⟩ := complaint.exists_placement drawn
  rcases place_cases placed with ⟨nothing, _⟩ | ⟨buffer, opened, opens, _, within⟩
  · contradiction
  · obtain ⟨fits, surface⟩ := fits_of_placeIn within
    exact ⟨buffer, ⟨drawn, ⟨diagnostic, opened, found, opens⟩, surface⟩, fits⟩

/-- The order may have another text shown without starting an evaluation. -/
def Order.mayReshow : Order → Bool
  | .start | .definition _ | .saved | .changed .. | .answered .. => true
  | _ => false

namespace Engine

/-- What is drawn on the shown source lies in its text. -/
def DrawsInside (engine : Engine) : Prop :=
  ∀ decoration ∈ engine.decorations.onSurface engine.buffer.path, decoration.Fits engine.buffer

/-- An order puts another source, or another text of the shown one, in its place and starts no
evaluation. -/
structure Reshows (engine : Engine) (world : World) (order : Order) : Prop where
  /-- It is a start, a save or something that can end a jump. -/
  kind : order.mayReshow = true
  /-- It starts no evaluation. -/
  quiet : engine.evaluation? world order = none
  /-- It replaces what is shown. -/
  source : (engine.obey world order).buffer ≠ engine.buffer

/-- Requests cannot change the source by themselves. -/
theorem requestless_buffer : Requestless buffer :=
  ⟨fun _ _ => rfl, fun _ _ => rfl, fun _ _ _ => rfl, fun _ _ _ _ => rfl⟩

/-- Only some orders put another source in the place of the shown one without starting an
evaluation. -/
theorem buffer_obey (world : World) {engine : Engine} {order : Order}
    (other : order.mayReshow = false) (missing : engine.evaluation? world order = none) :
    (engine.obey world order).buffer = engine.buffer := by
  have part : ∀ part : SourcePart, Evaluation.ofPart? engine part = none →
      (engine.perform (part.evaluate world)).1.buffer = engine.buffer :=
    fun part missing => view_part_missing (fun _ _ => rfl) world part missing
  cases order with
  | topLevel offset => exact part (.topLevel offset) missing
  | last offset => exact part (.last offset) missing
  | region first second =>
    rw [obey, ← SourcePart.evaluate]
    exact part (.region first second) missing
  | namespaceForm => exact part .namespaceForm missing
  | documentation symbol =>
    have events : ∀ event, Keeps buffer (purposeEvent world.disk (.documentation symbol) event) :=
      fun event => keeps_documentationEvent (fun _ _ => rfl) (fun _ _ => rfl)
        (fun _ _ _ _ => rfl) symbol event
    exact requestless_buffer.dispatch events _ _ _ _
  | interrupt =>
    refine interrupt_leads (Fallible.chains_view buffer) (fun _ _ => rfl) (fun _ _ => rfl)
      (fun _ => rfl) (fun fields => ?_) engine
    have events : ∀ event, Keeps buffer (purposeEvent world.disk .unheard event) :=
      fun _ => keeps_pure _
    exact keeps_bind keeps_get fun _ => requestless_buffer.keeps_send events _
  | code | buffer | inNamespace => contradiction
  | start | definition | saved | changed | answered => contradiction

variable {disk : Disk} {source : String} {settings : Settings} {first engine : Engine}
  {complaints : List Complaint}

/-- What is drawn is drawn by the complaints of the cycle, each on the buffer in which it lies. -/
theorem MarkedBy.exists_drawsOn (marked : engine.MarkedBy complaints) {decoration : Decoration}
    (member : decoration ∈ engine.decorations) :
    ∃ complaint ∈ complaints, ∃ buffer, complaint.DrawsOn decoration buffer ∧
      decoration.Fits buffer := by
  rw [marked.decorations] at member
  obtain ⟨complaint, own, drawn⟩ := List.mem_filterMap.mp member
  exact ⟨complaint, own, Complaint.exists_drawsOn drawn⟩

/-- What the complaints of the cycle draw is drawn. -/
theorem MarkedBy.mem_decorations (marked : engine.MarkedBy complaints) {complaint : Complaint}
    (own : complaint ∈ complaints) {decoration : Decoration}
    (drawn : complaint.decoration? = some decoration) : decoration ∈ engine.decorations := by
  rw [marked.decorations]
  exact List.mem_filterMap.mpr ⟨complaint, own, drawn⟩

/-- What is drawn lies in the shown text exactly when this is long enough for what was drawn on its
surface over another text. -/
theorem MarkedBy.drawsInside_iff (marked : engine.MarkedBy complaints) :
    engine.DrawsInside ↔ ∀ complaint ∈ complaints, ∀ decoration buffer,
      complaint.DrawsOn decoration buffer → decoration.surface = engine.buffer.path →
      buffer.text ≠ engine.buffer.text → engine.buffer.Reaches decoration := by
  constructor
  · intro inside complaint own decoration buffer draws shown _
    have drawn := marked.mem_decorations own draws.drawn
    have fits := inside decoration (List.mem_filter.mpr ⟨drawn, decide_eq_true shown⟩)
    exact fits.iff_reaches.mp fits
  · intro reaches decoration member
    obtain ⟨drawn, shown⟩ := List.mem_filter.mp member
    obtain ⟨complaint, own, buffer, draws, fits⟩ := marked.exists_drawsOn drawn
    by_cases same : buffer.text = engine.buffer.text
    · exact fits.of_text same
    · exact fits.iff_reaches.mpr
        (reaches complaint own decoration buffer draws (of_decide_eq_true shown) same)

/-- A complaint of the cycle after an order is brought by it, or it was one before and no evaluation
is started. -/
theorem mem_complaintsAfter {world : World} {order : Order} {complaint : Complaint}
    (member : complaint ∈ engine.complaintsAfter world complaints order) :
    complaint ∈ engine.complaintsAfter world [] order ∨
      complaint ∈ complaints ∧ engine.evaluation? world order = none := by
  unfold complaintsAfter at member ⊢
  cases started : engine.evaluation? world order with
  | some evaluation =>
    rw [started] at member
    exact .inl member
  | none =>
    rw [started] at member
    rcases List.mem_append.mp member with earlier | late
    · exact .inr ⟨earlier, rfl⟩
    · exact .inl late

/-- What is drawn and does not lie in the shown text was drawn over another text. -/
theorem MarkedBy.exists_outlasting (marked : engine.MarkedBy complaints)
    (outside : ¬engine.DrawsInside) :
    ∃ complaint ∈ complaints, ∃ decoration buffer, complaint.DrawsOn decoration buffer ∧
      decoration.surface = engine.buffer.path ∧ buffer.text ≠ engine.buffer.text ∧
      ¬decoration.Fits engine.buffer := by
  obtain ⟨decoration, outside⟩ := Classical.not_forall.mp outside
  obtain ⟨member, outside⟩ := Classical.not_imp.mp outside
  obtain ⟨drawn, shown⟩ := List.mem_filter.mp member
  obtain ⟨complaint, own, buffer, draws, fits⟩ := marked.exists_drawsOn drawn
  exact ⟨complaint, own, decoration, buffer, draws, of_decide_eq_true shown,
    fun same => outside (fits.of_text same), outside⟩

/-- What is drawn lies in the text it was drawn on: in the buffer that was opened for it when its
complaint came back, on the surface of this buffer. So all that is drawn on the shown source lies in
its text if and only if the text is long enough for what was drawn on this surface over another
text. If it was so before an order and is not so after it, the order has another text shown without
starting an evaluation, or brings a complaint that is drawn on the shown source over another text of
it. -/
theorem drawn_inside_iff (created : Engine.create disk source settings = .ok first)
    (complained : Complained first engine complaints) :
    (∀ decoration ∈ engine.decorations, ∃ complaint ∈ complaints, ∃ buffer,
        complaint.DrawsOn decoration buffer ∧ decoration.Fits buffer) ∧
      (engine.DrawsInside ↔ ∀ complaint ∈ complaints, ∀ decoration buffer,
        complaint.DrawsOn decoration buffer → decoration.surface = engine.buffer.path →
        buffer.text ≠ engine.buffer.text → engine.buffer.Reaches decoration) ∧
      ∀ world order, engine.DrawsInside → ¬(engine.obey world order).DrawsInside →
        engine.Reshows world order ∨
          ∃ complaint ∈ engine.complaintsAfter world [] order, ∃ decoration buffer,
            complaint.DrawsOn decoration buffer ∧
            decoration.surface = (engine.obey world order).buffer.path ∧
            buffer.text ≠ (engine.obey world order).buffer.text := by
  have marked := complained.markedBy created
  refine ⟨fun decoration member => marked.exists_drawsOn member, marked.drawsInside_iff, ?_⟩
  intro world order inside outside
  obtain ⟨complaint, own, decoration, buffer, draws, shown, differs, outlasts⟩ :=
    (marked.obey world order).exists_outlasting outside
  rcases mem_complaintsAfter own with brought | ⟨earlier, quiet⟩
  · exact .inr ⟨complaint, brought, decoration, buffer, draws, shown, differs⟩
  · -- What was drawn before lay in what was shown then.
    have replaced : (engine.obey world order).buffer ≠ engine.buffer := by
      intro same
      rw [same] at shown outlasts
      have drawn := marked.mem_decorations earlier draws.drawn
      exact outlasts (inside decoration (List.mem_filter.mpr ⟨drawn, decide_eq_true shown⟩))
    cases kind : order.mayReshow with
    | true => exact .inl ⟨kind, quiet, replaced⟩
    | false => exact absurd (buffer_obey world kind quiet) replaced

/-- Settings in which a source is not loaded when it is saved. -/
def unloadedSettings : Settings := ⟨Path.ofText "/", [("load_on_save", .bool false)]⟩

/-- The second of two forms is evaluated and complained about. -/
def complainedOfSecond (first : Engine) : Engine × List Complaint :=
  ordered (soleWorld "(a)\n(b)") first
    [.start, .topLevel 4, .answered (.text "2") [complaintAnswer "1"]]

/-- It is a run. -/
theorem complained_ofSecond (first : Engine) :
    Complained first (complainedOfSecond first).1 (complainedOfSecond first).2 :=
  complained_ordered ..

/-- The source is saved with another text. -/
def thenSaved (text : String) (run : Engine × List Complaint) : Engine × List Complaint :=
  (run.1.obey (soleWorld text) .saved, run.1.complaintsAfter (soleWorld text) run.2 .saved)

/-- A run goes on when the source is saved. -/
theorem complained_thenSaved (text : String) {run : Engine × List Complaint}
    (complained : Complained first run.1 run.2) :
    Complained first (thenSaved text run).1 (thenSaved text run).2 :=
  .step (soleWorld text) .saved complained

/-- The second form is still marked inside the text when the source was saved with a longer one. -/
theorem drawn_inside_iff_longer :
    ∃ first, Engine.create (soleWorld "(a)\n(b)").disk "/a.clj" unloadedSettings = .ok first ∧
      let run := thenSaved "(a)\n(b c)" (complainedOfSecond first)
      Complained first run.1 run.2 ∧ run.1.buffer = ⟨"/a.clj", "(a)\n(b c)"⟩ ∧
        run.1.decorations.map (fun decoration =>
          (decoration.start, decoration.stop, decoration.line)) = [(4, 7, 2)] ∧
        run.1.DrawsInside := by
  obtain ⟨first, created, run⟩ := @exists_created _ (soleWorld "(a)\n(b)").disk "/a.clj"
    unloadedSettings (fun first =>
      let run := thenSaved "(a)\n(b c)" (complainedOfSecond first)
      (run.1.buffer, run.1.decorations.map fun decoration =>
        (decoration.start, decoration.stop, decoration.line)))
    (⟨"/a.clj", "(a)\n(b c)"⟩, [(4, 7, 2)]) (by decide +kernel)
  obtain ⟨shown, drawn⟩ := Prod.mk.inj run
  have complained := complained_thenSaved "(a)\n(b c)" (complained_ofSecond first)
  refine ⟨first, created, complained, shown, drawn, ?_⟩
  refine (drawn_inside_iff created complained).2.1.mpr ?_
  intro complaint own decoration buffer draws _ _
  have member := (complained.markedBy created).mem_decorations own draws.drawn
  have known : (decoration.start, decoration.stop, decoration.line) = (4, 7, 2) :=
    List.mem_singleton.mp (drawn ▸ List.mem_map.mpr ⟨decoration, member, rfl⟩)
  obtain ⟨_, more⟩ := Prod.mk.inj known
  obtain ⟨stop, line⟩ := Prod.mk.inj more
  rw [shown]
  constructor
  · rw [stop]
    decide
  · rw [line]
    decide

/-- The mark of the second form stays when the source was saved without it and is not loaded, and
then lies neither in the text nor on one of its lines. -/
theorem decoration_outlasts_save :
    ∃ first, Engine.create (soleWorld "(a)\n(b)").disk "/a.clj" unloadedSettings = .ok first ∧
      let engine := (thenSaved "(a)" (complainedOfSecond first)).1
      Reachable first engine ∧ engine.buffer = ⟨"/a.clj", "(a)"⟩ ∧
        (engine.decorations.onSurface engine.buffer.path).map (fun decoration =>
          (decoration.start, decoration.stop, decoration.line)) = [(4, 7, 2)] ∧
        ¬engine.DrawsInside := by
  obtain ⟨first, created, run⟩ := @exists_created _ (soleWorld "(a)\n(b)").disk "/a.clj"
    unloadedSettings (fun first =>
      let engine := (thenSaved "(a)" (complainedOfSecond first)).1
      (engine.buffer, (engine.decorations.onSurface engine.buffer.path).map fun decoration =>
        (decoration.start, decoration.stop, decoration.line)))
    (⟨"/a.clj", "(a)"⟩, [(4, 7, 2)]) (by decide +kernel)
  obtain ⟨shown, drawn⟩ := Prod.mk.inj run
  have complained := complained_thenSaved "(a)" (complained_ofSecond first)
  have reachable := reachable_iff_complained.mpr ⟨_, complained⟩
  refine ⟨first, created, reachable, shown, drawn, fun inside => ?_⟩
  obtain ⟨decoration, member, place⟩ := List.mem_map.mp (drawn ▸ List.mem_singleton_self _)
  have fits := (inside decoration member).stop
  rw [shown, (Prod.mk.inj (Prod.mk.inj place).2).1] at fits
  exact absurd fits (by decide)

end Engine
end EvalDesk
