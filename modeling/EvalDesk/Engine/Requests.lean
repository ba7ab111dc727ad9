import EvalDesk.Engine.Answers

/-!
# What the engine is asked for

Code is evaluated from the source or from elsewhere; every evaluation starts a new cycle, in which
nothing of the one before is shown. Documentation and definitions are asked for by code too, but
are no evaluations: they are not pending and start no cycle.
-/
namespace EvalDesk.Engine

/-- Send a message; the result is the identity of the request. -/
def send (world : World) (message : Message) (topic : Topic Purpose) : Action String :=
  fun engine =>
    let id := engine.session.nextId
    let index := engine.session.talks.length
    let sent := { engine.emit (.sent message) with session := engine.session.record message topic }
    match hearExchange (hear world.disk index) sent (world.transport message) with
    | (engine, some fault) => (.error fault, engine)
    | (engine, none) => (.ok id, engine)

/-- Send a request. -/
def request (world : World) (op : String) (fields : Table) (purpose : Purpose) :
    Action String := do
  send world ((← get).session.message op fields) (.work purpose)

/-- Do something that needs the connection; the status tells when there is none. -/
def connected (engine : Engine) (action : Action Unit) : Engine :=
  match engine.perform action with
  | (engine, .ok ()) => engine
  | (engine, .error fault) => engine.fail fault

/-- Send a request and tell the view. A tracked request is pending until it ends, which it may do
while it is being sent. -/
def dispatch (world : World) (op : String) (fields : Table) (purpose : Purpose) (tracked : Bool)
    (engine : Engine) : Engine :=
  let started := { engine with endedEarly := [], sending := true }
  let sent := started.connected do
    let id ← request world op fields purpose
    if tracked then
      modify fun engine =>
        if engine.endedEarly.contains id then engine
        else engine.withState fun state => { state with pending := some id }
  { sent with sending := false }.notify

/-- Start a new cycle for some code. -/
def beginCycle (code : String) : Action Unit := do
  modify fun engine => { engine with decorations := [] }
  modify (·.withState DeskState.resetCycle)
  append .input (.text code)
  modify (·.withStatus "evaluating")

/-- Evaluate code that comes from an origin. -/
def evaluate (world : World) (code : String) (origin : Origin) : Action Unit := do
  beginCycle code
  modify (dispatch world "eval" (Session.evalFields (.text code) .null .null .null)
    (.evaluation origin) true)

/-- The start of the source as an origin. -/
def sourceOrigin (engine : Engine) : Origin := ⟨engine.buffer.path, 1⟩

/-- The origin of code at an offset of the source. -/
def originAt (engine : Engine) (offset : Int) : Origin :=
  match engine.buffer.topLevelAt offset with
  | some span => ⟨engine.buffer.path, (engine.buffer.position span.start).1⟩
  | none => engine.sourceOrigin

/-- Evaluate code that comes from nowhere in the source. -/
def evaluateCode (world : World) (code : String) : Action Unit := do
  evaluate world code (← get).sourceOrigin

/-- Evaluate a span of the source. -/
def evaluateSpan (world : World) (span : Form.Span) (offset : Int) : Action Unit := do
  let engine ← get
  evaluate world (engine.buffer.spanText span) (engine.originAt offset)

/-- Evaluate the outermost form at an offset. -/
def evaluateTopLevel (world : World) (offset : Int) : Action Unit := do
  match (← get).buffer.topLevelAt offset with
  | none => modify (·.showStatus "No form at point")
  | some span => evaluateSpan world span span.start

/-- Evaluate the expression before an offset. -/
def evaluateLast (world : World) (offset : Int) : Action Unit := do
  match (← get).buffer.lastBefore offset with
  | none => modify (·.showStatus "No expression before point")
  | some span => evaluateSpan world span offset

/-- Evaluate the text between two offsets. -/
def evaluateRegion (world : World) (start stop : Int) : Action Unit := do
  let engine ← get
  let first := min start stop
  let code := engine.buffer.substring first (max start stop)
  if Text.isBlankText code then modify (·.showStatus "Empty region")
  else evaluate world code (engine.originAt first)

/-- Load the whole source; its diagnostics tell lines of it. -/
def evaluateBuffer (world : World) : Action Unit := do
  let buffer := (← get).buffer
  beginCycle ("(load-file \"" ++ buffer.path ++ "\")")
  modify (dispatch world "load-file" (Session.loadFields buffer.text buffer.path)
    (.evaluation ⟨buffer.path, 1⟩) true)

/-- Evaluate in another namespace from now on. -/
def changeNamespace (world : World) (ns : String) : Action Unit :=
  evaluateCode world ("(in-ns '" ++ ns ++ ")")

/-- Evaluate the form that declares the namespace. -/
def evaluateNamespaceForm (world : World) : Action Unit := do
  match (← get).buffer.namespaceForm? with
  | none => modify (·.showStatus "No ns form in buffer")
  | some span => evaluateSpan world span span.start

/-- Stop the evaluation that runs. -/
def interrupt (world : World) (engine : Engine) : Engine :=
  match engine.state.pending with
  | none | some "" => engine.showStatus "Nothing to interrupt"
  | some id =>
    (engine.connected do
      discard (request world "interrupt" (Session.interruptFields (.text id)) .unheard)
      modify (·.withStatus "interrupting")).notify

/-- Remove what the current evaluation has drawn. -/
def clearDecorations (engine : Engine) : Engine :=
  ({ engine with decorations := [] }.withState DeskState.resetCycle).notify

/-- The code that prints the documentation of a symbol. -/
def documentationCode (symbol : String) : String :=
  "(do (require 'clojure.repl) (clojure.repl/doc " ++ symbol ++ "))"

/-- The code whose value tells where a symbol is defined. -/
def definitionCode (symbol : String) : String :=
  "(do (require 'clojure.java.io) (when-let [m (meta (resolve '" ++ symbol ++
    "))] (when-let [f (:file m)] [(str (or (clojure.java.io/resource f) f)) (:line m) " ++
    "(:column m)])))"

/-- Ask by code for something about a symbol. -/
def ask (world : World) (code : String) (purpose : Purpose) (engine : Engine) : Engine :=
  engine.dispatch world "eval" (Session.evalFields (.text code) .null .null .null) purpose false

/-- Ask for the documentation of a symbol. -/
def askDocumentation (world : World) (symbol : String) (engine : Engine) : Engine :=
  (engine.withState fun state => { state with documentation := "", status := "doc " ++ symbol }).ask
    world (documentationCode symbol) (.documentation symbol)

/-- Ask for the definition of a symbol. -/
def askDefinition (world : World) (symbol : String) (engine : Engine) : Engine :=
  (engine.withState fun state =>
    { state with definition := none, status := "locating " ++ symbol }).ask
    world (definitionCode symbol) (.definition symbol)

/-- Start with the source: read it, ask for an identity and watch it. -/
def start (world : World) : Action Unit := do
  loadSource world.disk
  modify fun engine => engine.connected do
    discard (send world engine.session.identityMessage (.identity true))
    modify (·.withState fun state => { state with connected := true, status := "connected" })
  startWatching world.disk (← get).state.sourcePath
  modify notify

/-- End the session. -/
def stop (engine : Engine) : Engine :=
  (engine.stopWatching.emit .closed).withState fun state => { state with connected := false }

/-- The source was saved: it is read again, and loaded if the settings say so. -/
def saved (world : World) : Action Unit := do
  loadSource world.disk
  if ((← get).settings.get "load_on_save" (.bool true)).isPresent then evaluateBuffer world
  else modify notify

/-- Take a change in the directory of the source at a time; the result says whether the source is
watched at all. -/
def takeFileEvent (world : World) (event : FileEvent) (now : Quantity) : Action Bool := do
  match (← get).watch with
  | none => return false
  | some watch =>
    let (watch, told) ← (watch.take world.disk event now : Except Fault (SaveWatch × Bool))
    modify fun engine => { engine with watch := some watch }
    if told then saved world
    return true

end EvalDesk.Engine
