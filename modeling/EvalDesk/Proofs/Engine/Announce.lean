import EvalDesk.Proofs.Engine.Shown

/-!
# What the view is told

Rows show the source and what is drawn on it. The view learns that either is another only when it is
told that something has changed. It is told at the end of each answer, of each request and of the
start, whatever goes wrong on the way, so none of these changes in silence what can be seen.
-/
namespace EvalDesk.Engine

open Fallible

/-- The source that is known. -/
def source (engine : Engine) : String × String :=
  (engine.state.sourcePath, engine.state.sourceText)

/-- What can be seen: the source, and what is drawn on it. -/
def sight (engine : Engine) : (String × String) × Decorations :=
  (engine.source, engine.decorations)

/-- Between two states the view was told of a change. -/
def Tells (before after : Engine) : Prop :=
  ∃ status, Effect.updated status ∈ after.effects.drop before.effects.length

/-- Between two states the view was told of a change, unless it sees the same. -/
structure Announces (before after : Engine) : Prop where
  /-- Effects are only added. -/
  effects : before.effects <+: after.effects
  /-- Whatever else can be seen was told. -/
  told : after.sight = before.sight ∨ Tells before after

/-- What was told stays told. -/
theorem Tells.later {before middle after : Engine} (tells : Tells before middle)
    (effects : middle.effects <+: after.effects) : Tells before after := by
  obtain ⟨status, member⟩ := tells
  obtain ⟨more, same⟩ := effects
  refine ⟨status, ?_⟩
  rw [← same, List.drop_append]
  exact List.mem_append_left _ member

/-- What was told since a later state was told since an earlier one. -/
theorem Tells.earlier {before middle after : Engine} (tells : Tells middle after)
    (effects : before.effects <+: middle.effects) : Tells before after := by
  obtain ⟨status, member⟩ := tells
  exact ⟨status, (List.drop_sublist_drop_left _ effects.length_le).subset member⟩

/-- Telling the view at the end tells it of everything before. -/
theorem tells_notify {before middle : Engine} (effects : before.effects <+: middle.effects) :
    Tells before middle.notify := by
  refine ⟨middle.state.status, ?_⟩
  rw [notify, emit, List.drop_append_of_le_length effects.length_le]
  exact List.mem_append_right _ (.head _)

/-- Nothing stays untold over any time. -/
theorem chains_announces : Chains Announces where
  refl _ := ⟨List.prefix_rfl, .inl rfl⟩
  trans first second := by
    refine ⟨first.effects.trans second.effects, ?_⟩
    rcases second.told with same | tells
    · rcases first.told with unchanged | tells
      · exact .inl (same.trans unchanged)
      · exact .inr (tells.later second.effects)
    · exact .inr (tells.earlier first.effects)

/-- Nothing stays untold over a further time. -/
theorem Announces.trans {before middle after : Engine} (first : Announces before middle)
    (second : Announces middle after) : Announces before after :=
  chains_announces.trans first second

/-- What stays the same need not be told. -/
theorem Announces.of_sight {before after : Engine} (advances : Advances before after)
    (same : after.sight = before.sight) : Announces before after := ⟨advances.effects, .inl same⟩

/-- Telling the view at the end leaves nothing untold. -/
theorem Announces.notify {before middle : Engine} (advances : Advances before middle) :
    Announces before middle.notify :=
  ⟨(advances.trans (.notify middle)).effects, .inr (tells_notify advances.effects)⟩

/-! ## Answers -/

/-- A notice leaves nothing untold. -/
theorem Announces.takeNotice (disk : Disk) (engine : Engine) (notice : Notice Purpose) :
    Announces engine (takeNotice disk engine notice) := by
  rcases exists_takeNotice disk engine notice with same | ⟨taken, advances, same⟩
  · rw [same]
    exact chains_announces.refl engine
  · rw [same]
    exact .notify advances

/-- An answer leaves nothing untold. -/
theorem Announces.hear (disk : Disk) (index : Nat) (engine : Engine) (answer : Table) :
    Announces engine (hear disk index engine answer).1 := by
  rw [Engine.hear]
  cases engine.session.receive index answer with
  | error fault => exact chains_announces.refl engine
  | ok result =>
    obtain ⟨session, notices⟩ := result
    have same : Announces engine { engine with session } := ⟨List.prefix_rfl, .inl rfl⟩
    exact same.trans (chains_announces.foldl (Announces.takeNotice disk) _ notices)

/-! ## Orders -/

variable (world : World)

/-- Sending leaves nothing untold. -/
theorem send_announces (message : Message) (topic : Topic Purpose) :
    Leads Announces (send world message topic) := by
  intro engine
  have started : Announces engine (engine.recorded message topic) :=
    .of_sight (.recorded engine message topic) rfl
  exact started.trans (send_leads chains_announces (Announces.hear world.disk _) message topic)

/-- What needs the connection leaves as little untold as the action. -/
theorem Announces.connected {action : Action Unit} (leads : Leads Announces action)
    (engine : Engine) : Announces engine (engine.connected action) := by
  have lost : ∀ (now : Engine) (fault : Fault), Announces now (now.fail fault) :=
    fun now fault => .of_sight (.fail now fault) rfl
  exact Announces.trans (leads engine) (connected_leads chains_announces lost engine action)

/-- A request that is told to the view leaves nothing untold. -/
theorem Announces.dispatch (op : String) (fields : Table) (purpose : Purpose) (tracked : Bool)
    (engine : Engine) : Announces engine (engine.dispatch world op fields purpose tracked) := by
  obtain ⟨asked, advances, same⟩ := exists_dispatch world op fields purpose tracked engine
  rw [same]
  exact .notify ((Advances.asked world _ _ engine).trans advances)

/-- A status that is told leaves nothing untold. -/
theorem Announces.showStatus (engine : Engine) (status : String) :
    Announces engine (engine.showStatus status) :=
  .of_sight (.showStatus engine status) rfl

/-- An interruption leaves nothing untold. -/
theorem Announces.interrupt (engine : Engine) : Announces engine (engine.interrupt world) := by
  rw [Engine.interrupt]
  split
  · exact .showStatus engine _
  · exact .showStatus engine _
  · refine .notify (.connected (leads_bind chains_advances ?_ fun _ => ?_) engine)
    · exact leads_discard (request_advances world _ _ _)
    · exact leads_modify fun _ => .of_course rfl

/-- A path with a null character cannot be read. -/
theorem ofFile_null {disk : Disk} {path : String} (null : path.toList.contains '\x00' = true) :
    Source.ofFile disk path = .error .nullInPath := by
  have fails : disk.readText path = .error .nullInPath := by
    rw [Disk.readText, Disk.readBytes, Disk.lookUp, if_pos null]
    rfl
  rw [Source.ofFile, fails]

/-- A path without one can be resolved. -/
theorem exists_resolve (disk : Disk) {path : String}
    (clean : ¬path.toList.contains '\x00' = true) :
    ∃ resolved, Discovery.resolve disk path = .ok resolved := by
  rw [Discovery.resolve, if_neg clean]
  exact ⟨_, rfl⟩

/-- A source that fails to be read again stays as it is; one that is read again has a path that can
be resolved. -/
theorem loadSource_cases (disk : Disk) (engine : Engine) :
    (∃ fault, engine.perform (loadSource disk) = (engine, .error fault)) ∨
      ∃ loaded resolved, engine.perform (loadSource disk) = (loaded, .ok ()) ∧
        Discovery.resolve disk loaded.state.sourcePath = .ok resolved := by
  by_cases null : engine.state.sourcePath.toList.contains '\x00' = true
  · refine .inl ⟨.nullInPath, ?_⟩
    simp only [loadSource, perform_bind, perform_get, ofFile_null null]
    rfl
  · obtain ⟨resolved, resolves⟩ := exists_resolve disk null
    simp only [loadSource, perform_bind, perform_get]
    cases read : Source.ofFile disk engine.state.sourcePath with
    | ok buffer => exact .inr ⟨_, resolved, rfl, resolves⟩
    | error fault =>
      cases fault with
      | source problem => exact .inr ⟨_, resolved, rfl, resolves⟩
      | _ => exact .inl ⟨_, rfl⟩

/-- A file whose path can be resolved is watched, if it is there. -/
theorem startWatching_succeeds {disk : Disk} {path : String} {resolved : Path}
    (resolves : Discovery.resolve disk path = .ok resolved) (engine : Engine) :
    (engine.perform (startWatching disk path)).2 = .ok () := by
  rw [startWatching, perform_bind, perform_lift, resolves]
  dsimp only
  split
  · rename_i there
    have clean : ¬resolved.text.toList.contains '\x00' = true := by
      intro null
      rw [Disk.has, Disk.lookUp, if_pos null] at there
      contradiction
    obtain ⟨target, found⟩ := exists_resolve disk clean
    rw [SaveWatch.start, found]
    rfl
  · rfl

/-- The start leaves nothing untold. -/
theorem start_announces : Leads Announces (start world) := by
  intro engine
  show Announces engine (engine.perform (start world)).1
  rw [start_eq, perform_bind]
  rcases loadSource_cases world.disk engine with
    ⟨fault, fails⟩ | ⟨loaded, resolved, reads, resolves⟩
  · rw [fails]
    exact chains_announces.refl engine
  · have loads : Advances engine (engine.perform (loadSource world.disk)).1 :=
      loadSource_advances world.disk engine
    rw [reads] at loads ⊢
    -- The identity that is asked for is told by itself, so only the source that was read waits for
    -- the notice at the end, which comes because the file can be watched.
    have asks : Announces loaded (loaded.connected (connecting world loaded)) :=
      .connected (leads_connecting chains_announces (send_announces world _ _)
        fun _ => .of_sight (.of_course rfl) rfl) loaded
    have advances : Advances loaded (loaded.connected (connecting world loaded)) :=
      .connected (leads_connecting chains_advances (send_advances world _ _)
        fun _ => .of_course rfl) loaded
    simp only [perform_bind, perform_modify, perform_get]
    revert asks advances
    generalize loaded.connected (connecting world loaded) = answered
    intro asks advances
    have watches : Advances answered
        (answered.perform (startWatching world.disk answered.state.sourcePath)).1 :=
      startWatching_advances world.disk _ answered
    have all := (loads.trans advances).trans watches
    rcases asks.told with same | tells
    · have path : answered.state.sourcePath = loaded.state.sourcePath :=
        congrArg (fun sight : (String × String) × Decorations => sight.1.1) same
      have succeeds := startWatching_succeeds (path ▸ resolves) answered
      cases done : answered.perform (startWatching world.disk answered.state.sourcePath) with
      | mk watched result =>
        rw [done] at all succeeds
        cases succeeds
        exact .notify all
    · have told : Tells engine answered := tells.earlier loads.effects
      cases done : answered.perform (startWatching world.disk answered.state.sourcePath) with
      | mk watched result =>
        rw [done] at watches all
        cases result with
        | error fault => exact ⟨all.effects, .inr (told.later watches.effects)⟩
        | ok => exact .notify all

end EvalDesk.Engine
