import EvalDesk.Proofs.Engine.Announce
import EvalDesk.Proofs.Engine.Saving

/-!
# What orders tell

An order tells the view whatever it changes of what can be seen, but for one gap: an evaluation
removes what was drawn before its code is added to the transcript, and a save has read the source by
then; when the transcript does not take the entry, nothing more is done and nothing is told.
-/
namespace EvalDesk.Engine

open Fallible

/-- The transcript takes the entry of the evaluation that an order starts, if it starts one. -/
def Admits (world : World) (engine : Engine) (order : Order) : Prop :=
  ∀ evaluation, engine.evaluation? world order = some evaluation →
    evaluation.prepared.sheet.hasRoom = true

variable {world : World} {engine : Engine} {order : Order} {evaluation : Evaluation}

/-- After a save the source was read again before it is loaded. -/
theorem Advances.ofSave? {disk : Disk} (found : Evaluation.ofSave? disk engine = some evaluation) :
    Advances engine evaluation.prepared := by
  have loads := loadSource_advances disk engine
  rw [← Engine.perform_eq] at loads
  rw [Evaluation.ofSave?] at found
  cases done : engine.perform (loadSource disk) with
  | mk loaded result =>
    rw [done] at found loads
    cases result with
    | error fault => contradiction
    | ok =>
      obtain ⟨_, same⟩ := Option.ite_none_right_eq_some.mp found
      cases same
      exact loads

/-- Preparing an evaluation takes nothing back. -/
theorem Advances.prepared (found : engine.evaluation? world order = some evaluation) :
    Advances engine evaluation.prepared := by
  have part : ∀ part : SourcePart, Evaluation.ofPart? engine part = some evaluation →
      Advances engine evaluation.prepared := by
    intro part found
    obtain ⟨span, _, rfl⟩ := Option.map_eq_some_iff.mp found
    exact chains_advances.refl engine
  cases order with
  | topLevel offset => exact part (.topLevel offset) found
  | last offset => exact part (.last offset) found
  | region first second => exact part (.region first second) found
  | namespaceForm => exact part .namespaceForm found
  | code | inNamespace | buffer =>
    cases found
    exact chains_advances.refl engine
  | saved => exact .ofSave? found
  | changed event now =>
    simp only [evaluation?] at found
    split at found
    · contradiction
    · split at found
      · rename_i later _
        have watching : Advances engine { engine with watch := some later } := .of_course rfl
        exact watching.trans (.ofSave? found)
      · contradiction
  | start | documentation | definition | interrupt | answered => contradiction

/-- An evaluation whose entry the transcript takes tells the view at its end. -/
theorem Evaluation.exists_notify (room : evaluation.prepared.sheet.hasRoom = true) (world : World) :
    ∃ asked, Advances evaluation.prepared asked ∧
      (evaluation.prepared.perform (evaluation.action world)).1 = asked.notify := by
  have begins := beginCycle_keeps_course evaluation.code evaluation.prepared
  have taken := message_of_evaluation evaluation
  rw [if_pos room] at taken
  rw [Sending.ofEvaluation?] at taken
  rw [action, perform_bind]
  cases begun : evaluation.prepared.perform (beginCycle evaluation.code) with
  | mk started result =>
    rw [begun] at begins taken
    cases result with
    | error fault => contradiction
    | ok =>
      obtain ⟨asked, advances, same⟩ := exists_dispatch world evaluation.op evaluation.fields
        (.evaluation evaluation.origin) true started
      have starts : Advances evaluation.prepared started := .of_course begins
      exact ⟨asked, (starts.trans (.asked world _ _ started)).trans advances, same⟩

/-- A save after which nothing is loaded leaves nothing untold. -/
theorem Announces.saved (missing : Evaluation.ofSave? world.disk engine = none) :
    Announces engine (engine.perform (Engine.saved world)).1 := by
  have loads := loadSource_advances world.disk engine
  rw [← Engine.perform_eq] at loads
  rw [Evaluation.ofSave?] at missing
  rw [Engine.saved, perform_bind]
  rcases loadSource_cases world.disk engine with ⟨fault, fails⟩ | ⟨loaded, _, reads, _⟩
  · rw [fails]
    exact chains_announces.refl engine
  · rw [reads] at loads missing ⊢
    dsimp only at missing
    split at missing
    · contradiction
    · rename_i silent
      simp only [perform_bind, perform_get]
      rw [if_neg silent]
      exact .notify loads

/-- A change in the directory of the source after which nothing is loaded leaves nothing untold. -/
theorem Announces.takeFileEvent {event : FileEvent} {now : Quantity}
    (missing : engine.evaluation? world (.changed event now) = none) :
    Announces engine (engine.perform (takeFileEvent world event now)).1 := by
  simp only [evaluation?] at missing
  simp only [Engine.takeFileEvent, perform_bind, perform_get]
  cases has : engine.watch with
  | none => exact chains_announces.refl engine
  | some watch =>
    simp only [perform_bind, perform_lift]
    cases taken : watch.take world.disk event now with
    | error fault => exact chains_announces.refl engine
    | ok found =>
      obtain ⟨later, changes⟩ := found
      let watching := { engine with watch := some later }
      have same : Announces engine watching := .of_sight (.of_course rfl) rfl
      cases changes with
      | false => exact same
      | true =>
        simp only [has, taken] at missing
        have ends : (watching.perform (do
            Engine.saved world
            return true)).1 = (watching.perform (Engine.saved world)).1 := by
          rw [perform_bind]
          cases watching.perform (Engine.saved world) with
          | mk after result => cases result <;> rfl
        have saves : Announces watching (watching.perform (Engine.saved world)).1 :=
          .saved missing
        exact same.trans (ends ▸ saves)

/-- Late answers leave nothing untold. -/
theorem Announces.deliver (disk : Disk) (id : Datum) (answers : List Table) (engine : Engine) :
    Announces engine (engine.deliver disk id answers).1 := by
  rw [Engine.deliver]
  split
  · exact chains_announces.refl engine
  · exact hearAll_leads chains_announces (Announces.hear disk _) engine answers

/-- An order that starts no evaluation leaves nothing untold. -/
theorem Announces.unevaluated (missing : engine.evaluation? world order = none) :
    Announces engine (engine.obey world order) := by
  have part : ∀ part : SourcePart, Evaluation.ofPart? engine part = none →
      Announces engine (engine.perform (part.evaluate world)).1 := by
    intro part missing
    obtain ⟨status, same⟩ := perform_evaluate_missing world (Option.map_eq_none_iff.mp missing)
    rw [same]
    exact .showStatus engine status
  cases order with
  | start => exact start_announces world engine
  | topLevel offset => exact part (.topLevel offset) missing
  | last offset => exact part (.last offset) missing
  | region first second => exact part (.region first second) missing
  | namespaceForm => exact part .namespaceForm missing
  | documentation symbol =>
    have asked : Announces engine (engine.withState fun state =>
      { state with documentation := "", status := "doc " ++ symbol }) :=
      .of_sight (.of_course rfl) rfl
    exact asked.trans (.dispatch world _ _ _ false _)
  | definition symbol =>
    have asked : Announces engine (engine.withState fun state =>
      { state with definition := none, status := "locating " ++ symbol }) :=
      .of_sight (.undefine engine _) rfl
    exact asked.trans (.dispatch world _ _ _ false _)
  | interrupt => exact .interrupt world engine
  | saved => exact .saved missing
  | changed event now => exact .takeFileEvent missing
  | answered id answers => exact .deliver world.disk id answers engine
  | code | buffer | inNamespace => contradiction

/-- An order leaves nothing untold, if the transcript takes the entry of its evaluation. -/
theorem Announces.obey (admits : engine.Admits world order) :
    Announces engine (engine.obey world order) := by
  cases found : engine.evaluation? world order with
  | none => exact .unevaluated found
  | some evaluation =>
    obtain ⟨asked, advances, same⟩ := Evaluation.exists_notify (admits _ found) world
    rw [obey_evaluation world found, same]
    exact .notify ((Advances.prepared found).trans advances)

/-- A transcript that takes entries admits every order. -/
theorem admits_of_takes (takes : Transcript.Takes engine.state.transcriptLimit) :
    engine.Admits world order := by
  intro evaluation found
  obtain ⟨number, fits⟩ := takes (evaluation.prepared.state.transcript.length + 1)
  have limit : evaluation.prepared.sheet.limit = engine.state.transcriptLimit :=
    (Advances.prepared found).limit
  rw [Sheet.hasRoom, limit]
  exact congrArg Except.isOk fits

/-- Removing what was drawn is told. -/
theorem Announces.clearDecorations (engine : Engine) :
    Announces engine engine.clearDecorations := by
  have cleared : Advances engine ({ engine with decorations := [] }.withState
    DeskState.resetCycle) := .of_course rfl
  exact .notify cleared

/-- The end of the session cannot be seen. -/
theorem Announces.stop (engine : Engine) : Announces engine engine.stop := by
  have unwatched : engine.stopWatching.sight = engine.sight := by
    unfold Engine.stopWatching
    split <;> rfl
  exact .of_sight (.stop engine) unwatched

end EvalDesk.Engine
