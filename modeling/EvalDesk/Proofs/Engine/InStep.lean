import EvalDesk.Proofs.Engine.Holdings
import EvalDesk.Proofs.Engine.SourceParts

/-!
# The source that is known is the one that was read

The path, the text and the lines that are known of the source are those of its buffer, whatever is
asked of the engine and whatever comes back: wherever one of them is replaced all are. A location
whose source cannot be shown changes nothing at all, since its source is read and its project found
before anything is replaced, and a file that could be read can be watched.
-/
namespace EvalDesk.Engine

open Fallible

/-- What is known of the source is what was read. -/
structure Mirrors (engine : Engine) : Prop where
  /-- The path is that of the buffer. -/
  path : engine.state.sourcePath = engine.buffer.path
  /-- The text is that of the buffer. -/
  text : engine.state.sourceText = engine.buffer.text
  /-- The lines are those of its text. -/
  lines : engine.state.sourceLines = Text.outputLines engine.buffer.text

/-- What is known stays what was read, whatever happens. -/
theorem sourceLaw_mirrors : SourceLaw fun before after => before.Mirrors → after.Mirrors where
  chains := chains_property Mirrors
  same := by
    intro before after same mirrors
    have library : after.library = before.library := congrArg Holdings.library same
    have path : after.state.sourcePath = before.state.sourcePath :=
      congrArg Library.sourcePath library
    have text : after.state.sourceText = before.state.sourceText := congrArg Holdings.text same
    have lines : after.state.sourceLines = before.state.sourceLines := congrArg Holdings.lines same
    have buffer : after.buffer = before.buffer := congrArg Library.buffer library
    constructor
    · rw [path, buffer, mirrors.path]
    · rw [text, buffer, mirrors.text]
    · rw [lines, buffer, mirrors.lines]
  reloads path _ := ⟨path.symm, rfl, rfl⟩
  shows _ _ _ := ⟨rfl, rfl, rfl⟩
  settles _ _ mirrors := ⟨mirrors.path, mirrors.text, mirrors.lines⟩
  opens _ mirrors := ⟨mirrors.path, mirrors.text, mirrors.lines⟩

/-- What a new engine knows of its source is what it has read of it, which is nothing. -/
theorem mirrors_create {disk : Disk} {source : String} {settings : Settings} {first : Engine}
    (created : Engine.create disk source settings = .ok first) : first.Mirrors := by
  obtain ⟨projectRoot, rfl⟩ := exists_of_create created
  exact ⟨rfl, rfl, rfl⟩

/-- What is known of the source is what was read, whatever was asked of a new engine. -/
theorem mirrors_of_attained {disk : Disk} {source : String} {settings : Settings}
    {first engine : Engine} (created : Engine.create disk source settings = .ok first)
    (attained : Attained first engine) : engine.Mirrors :=
  sourceLaw_mirrors.attained attained (mirrors_create created)

/-! ## Locations that cannot be shown -/

section Failing

variable {engine after : Engine} {disk : Disk} {location : Location} {fault : Fault}

/-- A file that could be read can be watched. -/
theorem startWatching_of_read {path : String} {buffer : Buffer}
    (read : Source.ofFile disk path = .ok buffer) (engine : Engine) :
    (engine.perform (startWatching disk path)).2 = .ok () := by
  have clean : ¬path.toList.contains '\x00' = true := by
    intro null
    cases (ofFile_null null).symm.trans read
  obtain ⟨resolved, resolves⟩ := exists_resolve disk clean
  exact startWatching_succeeds resolves engine

/-- A location in a file that cannot be shown changes nothing. -/
theorem visitFile_unchanged
    (failed : engine.perform (visitFile disk location) = (after, .error fault)) :
    after = engine := by
  simp only [visitFile, perform_bind, perform_get, perform_lift] at failed
  cases resolves : engine.resolvePath disk location.path with
  | error problem =>
    rw [resolves] at failed
    exact (congrArg Prod.fst failed).symm
  | ok found =>
    rw [resolves] at failed
    cases found with
    | none => exact (congrArg Prod.fst failed).symm
    | some path =>
      simp only [perform_bind, perform_get] at failed
      by_cases own : path.text = engine.state.sourcePath
      · rw [if_neg (not_not_intro own), perform_pure] at failed
        cases failed
      · rw [if_pos own] at failed
        simp only [perform_bind, perform_lift] at failed
        cases read : Source.ofFile disk path.text with
        | error problem =>
          rw [read] at failed
          exact (congrArg Prod.fst failed).symm
        | ok buffer =>
          rw [read] at failed
          cases project : Discovery.projectRoot disk path.text with
          | error problem =>
            rw [project] at failed
            exact (congrArg Prod.fst failed).symm
          | ok root =>
            -- From here on nothing fails: the file was read, so it can be watched.
            have watches := startWatching_of_read read { engine with projectRoot := root }
            simp only [project, perform_modify] at failed
            revert watches failed
            cases perform { engine with projectRoot := root } (startWatching disk path.text) with
            | mk watched result =>
              intro watches failed
              cases watches
              cases failed

/-- A location whose source cannot be shown changes nothing. -/
theorem visit_unchanged (failed : engine.perform (visit disk location) = (after, .error fault)) :
    after = engine := by
  unfold visit at failed
  split at failed
  · exact visitFile_unchanged failed
  · exact visitFile_unchanged failed
  · rename_i archive _ _
    simp only [openPath, perform_bind, perform_get, perform_lift] at failed
    cases opens : engine.openBuffer disk (Source.entryPath archive location.path) with
    | error problem =>
      rw [opens] at failed
      exact (congrArg Prod.fst failed).symm
    | ok found =>
      rw [opens] at failed
      cases failed

end Failing

/-- Whatever was asked of a new engine and whatever came back, the path, the text and the lines that
are known of the source are those of its buffer, and a location whose source cannot be shown leaves
the engine as it is, for every file tree. -/
theorem source_in_step {disk : Disk} {source : String} {settings : Settings}
    {first engine : Engine} (created : Engine.create disk source settings = .ok first)
    (attained : Attained first engine) :
    (engine.state.sourcePath = engine.buffer.path ∧
      engine.state.sourceText = engine.buffer.text ∧
      engine.state.sourceLines = Text.outputLines engine.buffer.text) ∧
    ∀ (disk : Disk) (location : Location) (after : Engine) (fault : Fault),
      engine.perform (visit disk location) = (after, .error fault) → after = engine := by
  have mirrors := mirrors_of_attained created attained
  exact ⟨⟨mirrors.path, mirrors.text, mirrors.lines⟩, fun _ _ _ _ => visit_unchanged⟩

/-- A started engine knows its source as it was read, and a location in a file that is not there
leaves it as it is. -/
theorem source_in_step_absent :
    ∃ first, Engine.create (soleWorld "(a)\n(b)").disk "/a.clj" plainSettings = .ok first ∧
      let engine := first.obey (soleWorld "(a)\n(b)") .start
      Attained first engine ∧ engine.buffer = ⟨"/a.clj", "(a)\n(b)"⟩ ∧
      engine.state.sourcePath = "/a.clj" ∧ engine.state.sourceText = "(a)\n(b)" ∧
      engine.state.sourceLines = ["(a)", "(b)"] ∧
      ∃ fault, engine.perform (visit (soleWorld "").disk ⟨"b.clj", 1, none, none⟩) =
        (engine, .error fault) ∧ fault.message = "No such file: b.clj" := by
  obtain ⟨first, created, run⟩ := @exists_created _ (soleWorld "(a)\n(b)").disk "/a.clj"
    plainSettings (fun first =>
      let engine := first.obey (soleWorld "(a)\n(b)") .start
      (engine.buffer, match (engine.perform (visit (soleWorld "").disk
        ⟨"b.clj", 1, none, none⟩)).2 with
        | .ok _ => ""
        | .error fault => fault.message))
    (⟨"/a.clj", "(a)\n(b)"⟩, "No such file: b.clj") (by decide +kernel)
  obtain ⟨buffer, failure⟩ := Prod.mk.inj run
  have attained := Attained.order (soleWorld "(a)\n(b)") .start (@Attained.start first)
  obtain ⟨⟨path, text, lines⟩, unchanged⟩ := source_in_step created attained
  rw [buffer] at path text lines
  refine ⟨first, created, attained, buffer, path, text, lines.trans (by decide +kernel), ?_⟩
  cases visited : (first.obey (soleWorld "(a)\n(b)") .start).perform (visit (soleWorld "").disk
      ⟨"b.clj", 1, none, none⟩) with
  | mk after result =>
    rw [visited] at failure
    cases result with
    | ok location => simp at failure
    | error fault => exact ⟨fault, by rw [unchanged _ _ _ _ visited], failure⟩

end EvalDesk.Engine
