import EvalDesk.Watcher
import Mathlib.Data.List.Basic

/-!
# Saves that are told

A watch is given events one after another, each at a time. What it tells of them are saves of the
watched file, but not all: a save is left out when it comes too early after the last one that was
told. The time is measured from that one, and nothing is put off, so whether a save is ever followed
by a telling depends on the saves that come after it. The main result says exactly when it is.
-/
namespace EvalDesk.SaveWatch

/-- An event at a time, on the file tree as it is then. -/
structure Occurrence where
  /-- The file tree. -/
  disk : Disk
  /-- The event. -/
  event : FileEvent
  /-- The time. -/
  now : Quantity

/-- The event gives the watched file new content. -/
def isSave (watch : SaveWatch) (occurrence : Occurrence) : Bool :=
  match occurrence.event.written with
  | none => false
  | some path =>
    match watch.isTarget occurrence.disk path with
    | .ok target => target
    | .error _ => false

/-- A time comes after another one by more than the quiet time. -/
def IsPast (quiet last now : Quantity) : Prop :=
  ∃ elapsed, now.sub last = .ok elapsed ∧ elapsed.le quiet = false

/-- A save at a time would be told: none was told before, or the last one long enough ago. -/
def IsDue (watch : SaveWatch) (now : Quantity) : Prop :=
  ∀ last ∈ watch.last, IsPast watch.quiet last now

/-- The watch behind an event, and whether a save is told. An event that cannot be taken tells none
and leaves the watch as it was. -/
def next (watch : SaveWatch) (occurrence : Occurrence) : SaveWatch × Bool :=
  match watch.take occurrence.disk occurrence.event occurrence.now with
  | .ok found => found
  | .error _ => (watch, false)

/-- The watch behind some events. -/
def after (watch : SaveWatch) (occurrences : List Occurrence) : SaveWatch :=
  occurrences.foldl (fun watch occurrence => (watch.next occurrence).1) watch

/-- The events of some at which a save is told. -/
def told (watch : SaveWatch) : List Occurrence → List Occurrence
  | [] => []
  | occurrence :: rest =>
    (if (watch.next occurrence).2 then [occurrence] else []) ++
      told (watch.next occurrence).1 rest

/-! ## One event -/

/-- A save is too early exactly when it is not due, as far as the times can be compared. -/
theorem isEarly_eq_ok_false_iff (watch : SaveWatch) (now : Quantity) :
    watch.isEarly now = .ok false ↔ watch.IsDue now := by
  unfold isEarly IsDue IsPast
  cases watch.last with
  | none => simp
  | some last =>
    cases elapsed : now.sub last <;> simp [Except.map, elapsed]

/-- What one event does: a save that is due is told and remembered, and nothing else changes. -/
theorem next_cases (watch : SaveWatch) (occurrence : Occurrence) :
    (watch.isSave occurrence = true ∧ watch.IsDue occurrence.now ∧
      watch.next occurrence = ({ watch with last := some occurrence.now }, true)) ∨
    (¬(watch.isSave occurrence = true ∧ watch.IsDue occurrence.now) ∧
      watch.next occurrence = (watch, false)) := by
  rw [← isEarly_eq_ok_false_iff]
  simp only [isSave, next, take]
  cases occurrence.event.written with
  | none => exact .inr ⟨by simp, rfl⟩
  | some path =>
    cases own : watch.isTarget occurrence.disk path with
    | error fault => exact .inr ⟨by simp [own], by simp only [own]; rfl⟩
    | ok target =>
      cases target with
      | false => exact .inr ⟨by simp [own], by simp only [own]; rfl⟩
      | true =>
        cases watch.isEarly occurrence.now with
        | error fault => exact .inr ⟨by simp, by simp only [own]; rfl⟩
        | ok soon =>
          cases soon with
          | true => exact .inr ⟨by simp, by simp only [own]; rfl⟩
          | false => exact .inl ⟨by simp [own], rfl, by simp only [own]; rfl⟩

/-- An event changes neither the file that is watched nor the quiet time. -/
theorem next_keeps (watch : SaveWatch) (occurrence : Occurrence) :
    (watch.next occurrence).1.target = watch.target ∧
      (watch.next occurrence).1.quiet = watch.quiet := by
  rcases watch.next_cases occurrence with ⟨_, _, tells⟩ | ⟨_, silent⟩
  · rw [tells]
    exact ⟨rfl, rfl⟩
  · rw [silent]
    exact ⟨rfl, rfl⟩

/-- What is a save depends on the watched file alone. -/
theorem isSave_congr {watch other : SaveWatch} (same : other.target = watch.target) :
    other.isSave = watch.isSave := by
  funext occurrence
  simp only [isSave, isTarget, same]

/-! ## Runs of events -/

/-- Events change neither the file that is watched nor the quiet time, and what the watch remembers
is the time of the last save that was told. -/
theorem after_spec (watch : SaveWatch) (occurrences : List Occurrence) :
    (watch.after occurrences).target = watch.target ∧
      (watch.after occurrences).quiet = watch.quiet ∧
      (watch.after occurrences).last =
        ((watch.told occurrences).getLast?.map (·.now)).or watch.last := by
  induction occurrences generalizing watch with
  | nil => exact ⟨rfl, rfl, rfl⟩
  | cons occurrence rest ih =>
    obtain ⟨target, quiet, last⟩ := ih (watch.next occurrence).1
    obtain ⟨sameTarget, sameQuiet⟩ := watch.next_keeps occurrence
    refine ⟨target.trans sameTarget, quiet.trans sameQuiet, ?_⟩
    show ((watch.next occurrence).1.after rest).last = _
    rw [last, told]
    rcases watch.next_cases occurrence with ⟨_, _, tells⟩ | ⟨_, silent⟩
    · rw [tells, if_pos rfl, List.getLast?_append]
      cases ((SaveWatch.mk watch.target watch.quiet (some occurrence.now)).told rest).getLast?
      · rfl
      · rfl
    · rw [silent, if_neg Bool.false_ne_true, List.nil_append]

/-- What is told of events one after another. -/
theorem told_append (watch : SaveWatch) (first second : List Occurrence) :
    watch.told (first ++ second) = watch.told first ++ (watch.after first).told second := by
  induction first generalizing watch with
  | nil => rfl
  | cons occurrence rest ih =>
    rw [List.cons_append, told, told, ih, List.append_assoc]
    rfl

/-- What is told is told of the events in their order. -/
theorem told_sublist (watch : SaveWatch) (occurrences : List Occurrence) :
    (watch.told occurrences).Sublist occurrences := by
  induction occurrences generalizing watch with
  | nil => exact List.Sublist.refl _
  | cons occurrence rest ih =>
    rw [told]
    split
    · exact (ih _).cons_cons occurrence
    · exact (ih _).cons occurrence

/-- Nothing is told of events exactly when no save among them is due. -/
theorem told_eq_nil_iff (watch : SaveWatch) (occurrences : List Occurrence) :
    watch.told occurrences = [] ↔
      ∀ occurrence ∈ occurrences, watch.isSave occurrence = true → ¬watch.IsDue occurrence.now := by
  induction occurrences with
  | nil => simp [told]
  | cons occurrence rest ih =>
    rw [told, List.forall_mem_cons]
    rcases watch.next_cases occurrence with ⟨saves, due, tells⟩ | ⟨other, silent⟩
    · rw [tells]
      exact ⟨fun nothing => by simp at nothing, fun ⟨early, _⟩ => absurd due (early saves)⟩
    · rw [silent]
      have early : watch.isSave occurrence = true → ¬watch.IsDue occurrence.now :=
        fun saves due => other ⟨saves, due⟩
      simp only [Bool.false_eq_true, ↓reduceIte, List.nil_append, ih]
      exact ⟨fun rest => ⟨early, rest⟩, fun both => both.2⟩

/-- A new watch remembers no save. -/
theorem of_start {disk : Disk} {target : String} {quiet : Quantity} {watch : SaveWatch}
    (started : start disk target quiet = .ok watch) : watch.quiet = quiet ∧ watch.last = none := by
  unfold start at started
  cases resolved : Discovery.resolve disk target with
  | error fault =>
    rw [resolved] at started
    contradiction
  | ok path =>
    rw [resolved] at started
    cases started
    exact ⟨rfl, rfl⟩

/-- A save is due behind some events when none was told of them, or the last that was told is past
by more than the quiet time. -/
theorem isDue_after_iff {disk : Disk} {target : String} {quiet : Quantity} {watch : SaveWatch}
    (started : start disk target quiet = .ok watch) (before : List Occurrence) (now : Quantity) :
    (watch.after before).IsDue now ↔
      ∀ last ∈ (watch.told before).getLast?, IsPast quiet last.now now := by
  obtain ⟨ownQuiet, fresh⟩ := of_start started
  obtain ⟨_, sameQuiet, last⟩ := watch.after_spec before
  rw [IsDue, last, fresh, Option.or_none, sameQuiet, ownQuiet]
  cases (watch.told before).getLast? <;> simp

/-- A save is told, or a save behind it is, exactly when none was told in front of it, or one of
them comes by more than the quiet time after the last that was told there. Otherwise it is lost:
nothing is told from it on. -/
theorem save_told_iff {disk : Disk} {target : String} {quiet : Quantity} {watch : SaveWatch}
    (started : start disk target quiet = .ok watch) (before behind : List Occurrence)
    {save : Occurrence} (saves : watch.isSave save = true) :
    (∃ one more, (one :: more).Sublist (save :: behind) ∧
        watch.told (before ++ save :: behind) = watch.told before ++ one :: more) ↔
      watch.told before = [] ∨
        ∃ last ∈ (watch.told before).getLast?, ∃ later ∈ save :: behind,
          watch.isSave later = true ∧ IsPast quiet last.now later.now := by
  have later := (watch.after before).told_sublist (save :: behind)
  have silent := (watch.after before).told_eq_nil_iff (save :: behind)
  rw [isSave_congr (watch.after_spec before).1] at silent
  simp only [isDue_after_iff started before] at silent
  rw [told_append]
  generalize (watch.after before).told (save :: behind) = told at later silent
  have goesOn : (∃ one more, (one :: more).Sublist (save :: behind) ∧
      watch.told before ++ told = watch.told before ++ one :: more) ↔ told ≠ [] := by
    constructor
    · rintro ⟨one, more, _, same⟩
      rw [List.append_cancel_left same]
      exact List.cons_ne_nil one more
    · intro some_told
      obtain ⟨one, more, rfl⟩ := List.exists_cons_of_ne_nil some_told
      exact ⟨one, more, later, rfl⟩
  rw [goesOn, ne_eq, silent]
  cases ends : (watch.told before).getLast? with
  | none =>
    have nothing := List.getLast?_eq_none_iff.mp ends
    exact ⟨fun _ => .inl nothing, fun _ all => all save (.head _) saves (by simp)⟩
  | some last =>
    have some_told : watch.told before ≠ [] := by
      intro nothing
      simp [nothing] at ends
    simp only [some_told, false_or, Option.mem_def, Option.some.injEq, exists_eq_left',
      forall_eq', not_forall, exists_prop, not_not]

/-- The disk on which the examples are. -/
def sampleDisk : Disk := Disk.start ⟨.top, ["virtual", "proj"]⟩

/-- The file of the examples is changed at a time. -/
def changedAt (now : Int) : Occurrence :=
  ⟨sampleDisk, ⟨.text "a.clj", .modified, false⟩, .whole now⟩

/-- A watch of the file of the examples with two seconds of quiet. -/
def sampleWatch : SaveWatch := ⟨"/virtual/proj/a.clj", .whole 2, none⟩

/-- A save one second after another one is not told, but one three seconds after it is. -/
theorem save_told_iff_later :
    start sampleDisk "a.clj" (.whole 2) = .ok sampleWatch ∧
      sampleWatch.isSave (changedAt 1) = true ∧
      ∃ one more, (one :: more).Sublist [changedAt 1, changedAt 3] ∧
        sampleWatch.told [changedAt 0, changedAt 1, changedAt 3] =
          sampleWatch.told [changedAt 0] ++ one :: more := by
  have started : start sampleDisk "a.clj" (.whole 2) = .ok sampleWatch := by decide +kernel
  have saves : sampleWatch.isSave (changedAt 1) = true := by decide +kernel
  have first : sampleWatch.told [changedAt 0] = [changedAt 0] := by rfl
  refine ⟨started, saves, (save_told_iff started [changedAt 0] [changedAt 3] saves).mpr ?_⟩
  rw [first]
  exact .inr ⟨changedAt 0, rfl, changedAt 3, by simp, by decide +kernel, .whole 3, rfl, rfl⟩

/-- A save one second after another one is lost when no more saves follow: nothing is told of it. -/
theorem late_save_lost :
    start sampleDisk "a.clj" (.whole 2) = .ok sampleWatch ∧
      sampleWatch.isSave (changedAt 1) = true ∧
      ¬∃ one more, (one :: more).Sublist [changedAt 1] ∧
        sampleWatch.told [changedAt 0, changedAt 1] =
          sampleWatch.told [changedAt 0] ++ one :: more := by
  refine ⟨by decide +kernel, by decide +kernel, ?_⟩
  have first : sampleWatch.told [changedAt 0] = [changedAt 0] := by rfl
  have both : sampleWatch.told [changedAt 0, changedAt 1] = [changedAt 0] := by rfl
  rintro ⟨one, more, _, same⟩
  rw [first, both] at same
  simp at same

end EvalDesk.SaveWatch
