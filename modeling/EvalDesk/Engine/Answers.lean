import EvalDesk.Engine.Sources

/-!
# What the engine makes of answers

Events of a request change what is known by the purpose of the request. Whatever goes wrong on the
way becomes the status, so an event never fails; the view is told after each event.
-/
namespace EvalDesk.Engine

/-- The status that tells an ended request. -/
def endStatus (statuses : List String) : String :=
  if statuses.contains "interrupted" then "interrupted"
  else if Event.failed statuses then
    "error: " ++ ", ".intercalate (statuses.filter (· ≠ Event.doneStatus))
  else "done"

/-- The end of a request is remembered while one is being sent. Its identity has to be a datum that
can be a key. -/
def rememberEnd (id : Datum) : Action Unit := do
  if (← get).sending then
    match id with
    | .text name => modify fun engine => { engine with endedEarly := engine.endedEarly ++ [name] }
    | .list _ | .table _ => throw (.misuse (.notKey id.kind))
    | _ => pure ()

/-- Whether the end of a request with an identity ends what is pending. -/
def endsPending (pending : Option String) (id : Datum) : Bool :=
  match id with
  | .null => true
  | .text name => pending = some name
  | _ => false

/-- A request has ended. -/
def complete (statuses : List String) (id : Datum) : Action Unit := do
  rememberEnd id
  modify fun engine => engine.withState fun state =>
    { state with
      pending := if endsPending state.pending id then none else state.pending
      ns := engine.session.ns
      status := endStatus statuses }

/-- The lines of error output. -/
def errorLines : Datum → Except Fault (List String)
  | .text text => .ok (Text.outputLines text)
  | .bytes [] => .ok []
  | .bytes _ => .error (.misuse .bytesMatched)
  | other => .error (.misuse (.noMember other.kind "splitlines"))

/-- The diagnostic of the first line that has one. -/
def firstDiagnostic? (lines : List String) : Option Diagnostic :=
  lines.findSome? fun line => (Diagnostic.extract line).toOption.join

/-- Add the decoration of a placement. -/
def decorate (engine : Engine) (placement : Placement) : Engine :=
  { engine with
    decorations := engine.decorations.add
      (.between placement.target placement.start placement.stop placement.severity.word
        placement.text placement.line) }

/-- Remember a diagnostic and draw it where it belongs. -/
def addDiagnostic (disk : Disk) (diagnostic : Diagnostic) (origin : Origin) : Action Unit := do
  modify (·.withState (·.addDiagnostic diagnostic))
  let engine ← get
  let (placement, opened) ←
    (place diagnostic origin (engine.openBuffer disk) :
      Except Fault (Option Placement × Option (List (String × Buffer))))
  modify fun engine => { engine with opened := opened.getD engine.opened }
  match placement with
  | none => pure ()
  | some placement => modify (·.decorate placement)

/-- Show the first diagnostic in error output of code from an origin. -/
def showDiagnostic (disk : Disk) (text : Datum) (origin : Origin) : Action Unit := do
  let lines ← (errorLines text : Except Fault (List String))
  match firstDiagnostic? lines with
  | none => pure ()
  | some diagnostic => addDiagnostic disk diagnostic origin

/-- An event of an evaluation. -/
def evaluationEvent (disk : Disk) (origin : Origin) : Event → Action Unit
  | .value result ns _ => do
    modify (·.withState fun state => { state with lastValue := result })
    append .value result
    if ns.isPresent then modify (·.withState fun state => { state with ns })
  | .output text _ => append .output text
  | .errorOutput text _ => do
    append .errorOutput text
    showDiagnostic disk text origin
  | .completed statuses id => complete statuses id

/-- Add text to the documentation. -/
def addDocumentation (text : Datum) : Action Unit :=
  match text with
  | .text more =>
    modify (·.withState fun state => { state with documentation := state.documentation ++ more })
  | other => throw (.misuse (.notJoinable other.kind))

/-- An event of a request for documentation. -/
def documentationEvent (symbol : String) : Event → Action Unit
  | .value .. => pure ()
  | .output text _ | .errorOutput text _ => addDocumentation text
  | .completed statuses id => do
    complete statuses id
    modify (·.withState fun state =>
      if Text.isBlankText state.documentation then
        { state with documentation := "No documentation found for " ++ symbol }
      else state)

/-- A location of a definition has come back, or that there is none. -/
def setDefinition (engine : Engine) (location : Option Location) : Engine :=
  let definition : Option Definition := location.map fun location => ⟨location, engine.locations⟩
  { engine.withState fun state => { state with definition } with
    locations := engine.locations + 1 }

/-- The source of the definition that came back is shown. -/
def showDefinition (disk : Disk) (symbol : String) (found : Definition) : Action Unit :=
  try
    let location ← visit disk found.location
    modify (·.withState fun state =>
      { state with
        definition := some { found with location }
        status := symbol ++ " -> " ++ location.path ++ ":" ++ toString location.line })
  catch
    | .source problem =>
      modify (·.withState fun state =>
        { state with status := problem.message, definition := none })
    | fault => throw fault

/-- An event of a request for a definition. -/
def definitionEvent (disk : Disk) (symbol : String) : Event → Action Unit
  | .value result _ _ => do
    let location ← (Location.ofDatum? result : Except Fault (Option Location))
    modify (·.setDefinition location)
  | .output .. => pure ()
  | .errorOutput text _ => append .errorOutput text
  | .completed statuses id => do
    complete statuses id
    match (← get).state.definition with
    | none => modify (·.withStatus ("Symbol not found: " ++ symbol))
    | some found => showDefinition disk symbol found

/-- An event of a request for a purpose. -/
def purposeEvent (disk : Disk) (purpose : Purpose) (event : Event) : Action Unit :=
  match purpose with
  | .evaluation origin => evaluationEvent disk origin event
  | .documentation symbol => documentationEvent symbol event
  | .definition symbol => definitionEvent disk symbol event
  | .unheard => pure ()

/-- Do something; a failure becomes the status, and the view is told. -/
def reporting (engine : Engine) (action : Action Unit) : Engine :=
  match engine.perform action with
  | (engine, .ok ()) => engine.notify
  | (engine, .error fault) =>
    (engine.withStatus ("Internal Engine Error: " ++ fault.message)).notify

/-- Take a notice of the session. -/
def takeNotice (disk : Disk) (engine : Engine) : Notice Purpose → Engine
  | .ready identity => (engine.withState fun state => { state with identity }).notify
  | .event .unheard _ => engine
  | .event purpose event => engine.reporting (purposeEvent disk purpose event)

/-- Take an answer to a request. -/
def hear (disk : Disk) (index : Nat) (engine : Engine) (answer : Table) :
    Engine × Option Fault :=
  match engine.session.receive index answer with
  | .error fault => (engine, some fault)
  | .ok (session, notices) => (notices.foldl (takeNotice disk) { engine with session }, none)

/-- Take answers to a request that was sent before; none when no such request was. -/
def deliver (engine : Engine) (disk : Disk) (id : Datum) (answers : List Table) :
    Engine × Option (Option Fault) :=
  match engine.session.talkOf? id with
  | none => (engine, none)
  | some index =>
    match hearAll (hear disk index) engine answers with
    | (engine, fault) => (engine, some fault)

end EvalDesk.Engine
