import EvalDesk.Proofs.Engine.Pending
import EvalDesk.Proofs.Engine.Steps

/-!
# Runs of the engine

A run is a sequence of orders, each carried out in a world of its own: evaluations, questions about
symbols, interruptions, saves, and answers that come back later. The main result is that after
every step what is pending is the evaluation that runs.
-/
namespace EvalDesk

/-- What is asked of the engine. -/
inductive Order where
  /-- Start with the source. -/
  | start
  /-- Evaluate code that comes from an origin, or from nowhere in the source. -/
  | code (code : String) (origin : Option Origin)
  /-- Evaluate the outermost form at an offset. -/
  | topLevel (offset : Int)
  /-- Evaluate the expression before an offset. -/
  | last (offset : Int)
  /-- Evaluate the text between two offsets. -/
  | region (first second : Int)
  /-- Load the whole source. -/
  | buffer
  /-- Evaluate in another namespace from now on. -/
  | inNamespace (ns : String)
  /-- Evaluate the form that declares the namespace. -/
  | namespaceForm
  /-- Show the documentation of a symbol. -/
  | documentation (symbol : String)
  /-- Show the definition of a symbol. -/
  | definition (symbol : String)
  /-- Stop the evaluation that runs. -/
  | interrupt
  /-- The source was saved. -/
  | saved
  /-- Something has changed in the directory of the source. -/
  | changed (event : FileEvent) (now : Quantity)
  /-- Answers to a request that was sent before have come. -/
  | answered (id : Datum) (answers : List Table)

/-- An order brings answers that are late, or it does not. -/
theorem Order.late_or_early (order : Order) :
    (∃ id answers, order = .answered id answers) ∨ ∀ id answers, order ≠ .answered id answers := by
  by_cases late : ∃ id answers, order = .answered id answers
  · exact .inl late
  · exact .inr fun id answers same => late ⟨id, answers, same⟩

/-- A datum that is a text. -/
theorem Datum.eq_text_of_text? {datum : Datum} {text : String} (found : datum.text? = some text) :
    datum = .text text := by
  cases datum <;> first | contradiction | exact congrArg Datum.text (Option.some.inj found)

namespace Engine

/-- Carry out an order. -/
def obey (world : World) (engine : Engine) : Order → Engine
  | .start => (engine.perform (start world)).1
  | .code code origin =>
    (engine.perform (evaluate world code (origin.getD engine.sourceOrigin))).1
  | .topLevel offset => (engine.perform (evaluateTopLevel world offset)).1
  | .last offset => (engine.perform (evaluateLast world offset)).1
  | .region first second => (engine.perform (evaluateRegion world first second)).1
  | .buffer => (engine.perform (evaluateBuffer world)).1
  | .inNamespace ns => (engine.perform (changeNamespace world ns)).1
  | .namespaceForm => (engine.perform (evaluateNamespaceForm world)).1
  | .documentation symbol => engine.askDocumentation world symbol
  | .definition symbol => engine.askDefinition world symbol
  | .interrupt => engine.interrupt world
  | .saved => (engine.perform (saved world)).1
  | .changed event now => (engine.perform (takeFileEvent world event now)).1
  | .answered id answers => (engine.deliver world.disk id answers).1

/-- The answers that come back while messages are sent. -/
def answersAtOnce (world : World) (messages : List Message) : List Table :=
  messages.flatMap fun message => (world.transport message).answers

/-- Answers that come later are answers to their request. -/
def Proper (engine : Engine) : Order → Prop
  | .answered id answers => ∀ index, engine.session.talkOf? id = some index →
      ∀ talk, engine.session.talks[index]? = some talk →
        ∀ answer ∈ answers, Event.IsAnswerTo talk.id answer
  | _ => True

variable {world : World}

/-- What runs is sound after what was sent if it was before, with the answers at once. -/
def Follows (world : World) (before after : Tracking) : Prop :=
  ∀ heard, before.Sound heard → ∃ sent, after.messages = before.messages ++ sent ∧
    after.Sound (heard ++ answersAtOnce world sent)

/-- What is not changed stays sound. -/
theorem Follows.of_eq {before after : Tracking} (same : after = before) :
    Follows world before after := by
  intro heard sound
  subst same
  exact ⟨[], (List.append_nil _).symm, by rwa [answersAtOnce, List.flatMap_nil, List.append_nil]⟩

/-- What is sound after one step is sound after another. -/
theorem Follows.trans {before middle after : Tracking} (first : Follows world before middle)
    (second : Follows world middle after) : Follows world before after := by
  intro heard sound
  obtain ⟨sent, messages, between⟩ := first heard sound
  obtain ⟨more, later, final⟩ := second _ between
  refine ⟨sent ++ more, by rw [later, messages, List.append_assoc], ?_⟩
  rw [answersAtOnce, List.flatMap_append, ← List.append_assoc]
  exact final

/-- A talk that is found is one of the session. -/
theorem talkOf?_lt {session : Session Purpose} {id : Datum} {index : Nat}
    (found : session.talkOf? id = some index) : index < session.talks.length := by
  have member := (List.mem_filter.mp (List.mem_of_getLast? found)).1
  exact List.mem_range.mp member

/-- A world without files in which nothing is ever answered. -/
def silentWorld : World := ⟨⟨[], Path.ofText "/"⟩, fun _ => ⟨none, [], none⟩⟩

end Engine
end EvalDesk
