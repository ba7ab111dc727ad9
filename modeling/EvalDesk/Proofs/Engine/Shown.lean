import EvalDesk.Proofs.Engine.Advance

/-!
# The source that is shown

The source is shown under its own path, and the limit of the transcript is the configured one. This
is so for a new engine and stays so, whatever is ordered and whatever comes back, also when a
definition takes the place of the source.
-/
namespace EvalDesk.Engine

/-- The source is shown under its path, and the transcript has a limit. -/
structure Shows (limit : Datum) (engine : Engine) : Prop where
  /-- The path that is shown is that of the source. -/
  path : engine.state.sourcePath = engine.buffer.path
  /-- The limit of the transcript. -/
  limit : engine.state.transcriptLimit = limit

/-- The engine comes to a state by orders, whatever the world does. -/
inductive Reachable (first : Engine) : Engine → Prop where
  /-- Nothing has been ordered. -/
  | start : Reachable first first
  /-- One more order is carried out. -/
  | step {engine : Engine} (world : World) (order : Order) :
    Reachable first engine → Reachable first (engine.obey world order)
  /-- What was drawn is removed. -/
  | cleared {engine : Engine} : Reachable first engine → Reachable first engine.clearDecorations
  /-- The session is ended. -/
  | stopped {engine : Engine} : Reachable first engine → Reachable first engine.stop

/-- A run takes nothing back. -/
theorem Reachable.advances {first engine : Engine} (reachable : Reachable first engine) :
    Advances first engine := by
  induction reachable with
  | start => exact chains_advances.refl first
  | @step engine world order _ advances => exact advances.trans (.obey world engine order)
  | @cleared engine _ advances => exact advances.trans (.clearDecorations engine)
  | @stopped engine _ advances => exact advances.trans (.stop engine)

/-- A new engine knows the source it will read, and its transcript has the limit of the settings. -/
theorem inStep_create {disk : Disk} {source : String} {settings : Settings} {first : Engine}
    (created : Engine.create disk source settings = .ok first) :
    first.InStep ∧
      first.state.transcriptLimit = settings.get "transcript_limit" DeskState.usualLimit := by
  obtain ⟨projectRoot, rfl⟩ := exists_of_create created
  exact ⟨⟨rfl, rfl⟩, rfl⟩

/-- The source is shown under its path in every run of a new engine, and the transcript has the
limit of the settings. -/
theorem shows_of_reachable {disk : Disk} {source : String} {settings : Settings}
    {first engine : Engine} (created : Engine.create disk source settings = .ok first)
    (reachable : Reachable first engine) :
    engine.Shows (settings.get "transcript_limit" DeskState.usualLimit) := by
  obtain ⟨inStep, limit⟩ := inStep_create created
  have advances := reachable.advances
  exact ⟨(advances.inStep inStep).path, advances.limit.trans limit⟩

end EvalDesk.Engine
