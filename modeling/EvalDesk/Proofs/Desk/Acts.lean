import EvalDesk.Proofs.Desk.Painting
import EvalDesk.Proofs.Engine.Run

/-!
# Acts at the desk

A run of the desk is a sequence of acts: commands, moves of the cursor, texts entered in the prompt,
orders to the engine from outside, and the handling of postings one after another. An act gives an
order to the engine, or it sends the cursor to a line, or it shows a change, or it does few things:
what was drawn is removed, the session is ended, something is asked, noted or posted. So a relation
that holds over each of these holds over every act.
-/
namespace EvalDesk

/-- What the engine does at once when the desk or the world asks for something. -/
inductive Engine.Does (before : Engine) : Engine → Prop where
  /-- An order is carried out. -/
  | order (world : World) (order : Order) : Does before (before.obey world order)
  /-- What was drawn is removed. -/
  | cleared : Does before before.clearDecorations
  /-- The session is ended. -/
  | stopped : Does before before.stop

namespace Desk

open Fallible

/-- Something that is done at the desk. -/
inductive Act where
  /-- A command is given. -/
  | did (command : Command)
  /-- The cursor is sent to a line, and to a column if one is given. -/
  | moved (line : Int) (column : Option Nat)
  /-- A text is entered in the prompt. -/
  | entered (text : String)
  /-- A key is pressed in the prompt. -/
  | pressed (key : String)
  /-- The engine gets an order from outside: it is started, a file has changed, or answers have
  come. -/
  | ordered (order : Order)
  /-- The session is ended. -/
  | ended
  /-- The first of the postings is handled. -/
  | handled

/-- Do it. -/
def act (world : World) (desk : Desk) : Act → Desk
  | .did command => (desk.perform (run world command)).1
  | .moved line column => (desk.perform (moveCursor line (column.map Int.ofNat))).1
  | .entered text => desk.enter text
  | .pressed key => desk.promptKey key
  | .ordered order => (desk.perform (engineChange (·.obey world order))).1
  | .ended => (desk.perform (engineChange Engine.stop)).1
  | .handled => (desk.perform (handleFirst world (desk.postings.take 1))).1

/-- The desk comes to a state by acts, whatever the world does. -/
inductive Run (first : Desk) : Desk → Prop where
  /-- Nothing was done. -/
  | start : Run first first
  /-- One more thing is done. -/
  | step {desk : Desk} (world : World) (deed : Act) :
    Run first desk → Run first (desk.act world deed)

/-- The desk after acts, each in a world of its own. -/
def acted (desk : Desk) : List (World × Act) → Desk
  | [] => desk
  | (world, deed) :: rest => (desk.act world deed).acted rest

/-- Acts are a run. -/
theorem Run.acted {first desk : Desk} (run : Run first desk) (deeds : List (World × Act)) :
    Run first (desk.acted deeds) := by
  induction deeds generalizing desk with
  | nil => exact run
  | cons deed rest ih => exact ih (.step deed.1 deed.2 run)

/-- The first posting is taken away and handled. -/
theorem act_handled (world : World) {desk : Desk} {posting : Posting} {rest : List Posting}
    (waiting : desk.postings = posting :: rest) :
    desk.act world .handled =
      (Desk.perform { desk with postings := rest } (handle world posting)).1 := by
  have taken : desk.postings.take 1 = [posting] := by rw [waiting]; rfl
  have tail : desk.postings.tail = rest := by rw [waiting]; rfl
  simp only [act, taken, handleFirst, perform_eq, perform_bind, perform_modify, tail]
  cases Fallible.perform { desk with postings := rest } (handle world posting) with
  | mk after result => cases result <;> rfl

/-! ## What an act does -/

/-- The symbol at the cursor, if it can be looked for and there is one. -/
def symbol? (desk : Desk) : Option String :=
  match desk.symbolAtCursor with
  | .ok (some "") | .ok none | .error _ => none
  | .ok (some symbol) => some symbol

/-- The order that a command gives to the engine, if it gives one. -/
def Command.order? (desk : Desk) : Command → Option Order
  | .evaluateForm => desk.cursorOffset.toOption.map fun offset => .topLevel offset
  | .evaluateLast => desk.lineEnd.toOption.map fun offset => .last offset
  | .loadSource => some .buffer
  | .evaluateNamespaceForm => some .namespaceForm
  | .documentation => desk.symbol?.map .documentation
  | .definition => desk.symbol?.map .definition
  | .interrupt => some .interrupt
  | .quit | .askExpression | .askNamespace | .clear | .up | .down | .left | .right => none

/-- The order that a posting gives to the engine when it is handled, if it gives one. -/
def Posting.order? : Posting → Option Order
  | .changed => none
  | .entered .ns value => some (.inNamespace value)
  | .entered .expression value => some (.code value none)

/-- The order that an act gives to the engine, if it gives one. -/
def Act.order? (desk : Desk) : Act → Option Order
  | .did command => command.order? desk
  | .ordered order => some order
  | .handled => desk.postings.head?.bind Posting.order?
  | .moved .. | .entered _ | .pressed _ | .ended => none

/-- The cursor is sent to a line, and to no column in front of it. -/
def Moves (before after : Desk) : Prop :=
  ∃ (line : Int) (column : Option Int),
    (0 ≤ before.column → ∀ asked, column = some asked → 0 ≤ asked) ∧
      after = (before.perform (moveCursor line column)).1

/-- What an act does. -/
inductive Does (world : World) (before : Desk) (deed : Act) : Desk → Prop where
  /-- Something is asked or noted. -/
  | asks (prompt : Panel.Prompt) (notes : List Note) :
    Does world before deed { before with prompt, notes }
  /-- What was asked for is answered, and that is posted. -/
  | posts (prompt : Panel.Prompt) (more : List Posting) :
    Does world before deed { before with prompt, postings := before.postings ++ more }
  /-- The engine gets an order. -/
  | gives (order : Order) : deed.order? before = some order →
    Does world before deed { before with engine := before.engine.obey world order }.collect
  /-- A text that was entered is taken away, and the engine gets an order. -/
  | enters (order : Order) {mode : Panel.Prompt.Mode} {value : String} {rest : List Posting} :
    deed.order? before = some order → before.postings = .entered mode value :: rest →
    Does world before deed
      { before with postings := rest, engine := before.engine.obey world order }.collect
  /-- What was drawn is removed. -/
  | clears : Does world before deed { before with engine := before.engine.clearDecorations }.collect
  /-- The session is ended. -/
  | stops : Does world before deed { before with engine := before.engine.stop }.collect
  /-- The cursor is sent to a line. -/
  | moves {after : Desk} : before.Moves after → Does world before deed after
  /-- A change that was posted is shown. -/
  | shows {rest : List Posting} : deed = .handled → before.postings = .changed :: rest →
    Does world before deed (Desk.perform { before with postings := rest } showChange).1

section Does

variable (world : World) (desk : Desk)

/-- Doing something with the symbol at the cursor gives an order, if there is a symbol. -/
theorem does_withSymbol {deed : Act} {ask : String → Order}
    (gives : deed.order? desk = desk.symbol?.map ask) :
    desk.Does world deed (desk.perform (withSymbol fun symbol engine =>
      engine.obey world (ask symbol))).1 := by
  simp only [withSymbol, perform_eq, perform_bind, perform_get, perform_lift]
  rw [symbol?] at gives
  cases found : desk.symbolAtCursor with
  | error fault => exact .asks desk.prompt desk.notes
  | ok symbol =>
    rw [found] at gives
    dsimp only
    split
    · exact .asks desk.prompt _
    · exact .asks desk.prompt _
    · rename_i symbol named
      split at gives
      · rename_i same
        cases same
        exact absurd rfl named
      · rename_i same
        cases same
      · rename_i same
        cases same
      · rename_i same
        cases same
        exact .gives (ask symbol) gives

/-- What a command does. -/
theorem does_run (command : Command) :
    desk.Does world (.did command) (desk.perform (run world command)).1 := by
  cases command with
  | quit => exact .asks desk.prompt desk.notes
  | evaluateForm =>
    simp only [run, perform_eq, perform_bind, perform_get, perform_lift]
    cases found : desk.cursorOffset with
    | error fault => exact .asks desk.prompt desk.notes
    | ok offset =>
      have gives : Act.order? desk (.did .evaluateForm) = some (.topLevel offset) := by
        rw [Act.order?, Command.order?, found]
        rfl
      exact .gives (.topLevel offset) gives
  | evaluateLast =>
    simp only [run, perform_eq, perform_bind, perform_get, perform_lift]
    cases found : desk.lineEnd with
    | error fault => exact .asks desk.prompt desk.notes
    | ok offset =>
      have gives : Act.order? desk (.did .evaluateLast) = some (.last offset) := by
        rw [Act.order?, Command.order?, found]
        rfl
      exact .gives (.last offset) gives
  | loadSource => exact .gives .buffer rfl
  | askExpression => exact .asks _ desk.notes
  | askNamespace => exact .asks _ desk.notes
  | evaluateNamespaceForm => exact .gives .namespaceForm rfl
  | documentation => exact @does_withSymbol world desk _ .documentation rfl
  | definition => exact @does_withSymbol world desk _ .definition rfl
  | interrupt => exact .gives .interrupt rfl
  | clear => exact .clears
  | up =>
    exact .moves ⟨desk.cursor - 1, none, fun _ _ given => absurd given.symm (Option.some_ne_none _),
      rfl⟩
  | down =>
    exact .moves ⟨desk.cursor + 1, none, fun _ _ given => absurd given.symm (Option.some_ne_none _),
      rfl⟩
  | left =>
    refine .moves ⟨desk.cursor, some (max (desk.column - 1) 0), fun _ asked same => ?_, rfl⟩
    cases same
    exact Int.le_max_right _ _
  | right =>
    refine .moves ⟨desk.cursor, some (desk.column + 1), fun behind asked same => ?_, rfl⟩
    cases same
    exact Int.add_nonneg behind (by decide)

/-- What an act does. -/
theorem does_act (deed : Act) : desk.Does world deed (desk.act world deed) := by
  cases deed with
  | did command => exact does_run world desk command
  | moved line column =>
    refine .moves ⟨line, column.map Int.ofNat, fun _ asked same => ?_, rfl⟩
    obtain ⟨column, rfl, rfl⟩ := Option.map_eq_some_iff.mp same
    exact Int.natCast_nonneg column
  | entered text => exact .posts desk.prompt.close _
  | pressed key =>
    rw [act, promptKey]
    split
    · exact .asks desk.prompt.close desk.notes
    · exact .asks desk.prompt desk.notes
  | ordered order => exact .gives order rfl
  | ended => exact .stops
  | handled =>
    cases waiting : desk.postings with
    | nil =>
      have nothing : desk.act world .handled = desk := by
        rw [act, waiting]
        rfl
      rw [nothing]
      exact .asks desk.prompt desk.notes
    | cons posting rest =>
      rw [act_handled world waiting]
      have given : Act.order? desk .handled = posting.order? := by
        rw [Act.order?, waiting]
        rfl
      cases posting with
      | changed => exact .shows rfl waiting
      | entered mode value =>
        cases mode with
        | ns => exact .enters (.inNamespace value) given waiting
        | expression => exact .enters (.code value none) given waiting

end Does

/-! ## What holds over acts -/

/-- A relation that holds over everything that an act does, but for sending the cursor to a line and
for showing a change. -/
structure ActLaw (relation : Desk → Desk → Prop) : Prop where
  /-- It can be put together from steps. -/
  chains : Chains relation
  /-- It holds over what the engine does. -/
  does : ∀ {desk : Desk} {engine : Engine}, desk.engine.Does engine →
    relation desk { desk with engine }.collect
  /-- It holds over what is asked and noted. -/
  asks : ∀ (desk : Desk) prompt notes, relation desk { desk with prompt, notes }
  /-- It holds over what is posted. -/
  posts : ∀ (desk : Desk) more, relation desk { desk with postings := desk.postings ++ more }
  /-- It holds over an entered text that is taken away. -/
  takes : ∀ {desk : Desk} {mode value rest}, desk.postings = .entered mode value :: rest →
    relation desk { desk with postings := rest }

/-- An act either keeps to the relation, or it sends the cursor to a line, or it shows a change that
was posted. -/
theorem ActLaw.act_cases {relation : Desk → Desk → Prop} (law : ActLaw relation) (world : World)
    (desk : Desk) (deed : Act) :
    relation desk (desk.act world deed) ∨ desk.Moves (desk.act world deed) ∨
      ∃ rest, deed = .handled ∧ desk.postings = .changed :: rest ∧
        desk.act world deed = (Desk.perform { desk with postings := rest } showChange).1 := by
  have does := does_act world desk deed
  revert does
  generalize desk.act world deed = after
  intro does
  cases does with
  | asks prompt notes => exact .inl (law.asks desk prompt notes)
  | posts prompt more =>
    exact .inl (law.chains.trans (law.posts desk more) (law.asks _ prompt desk.notes))
  | gives order _ => exact .inl (law.does (.order world order))
  | enters order _ waiting =>
    exact .inl (law.chains.trans (law.takes waiting) (law.does (.order world order)))
  | clears => exact .inl (law.does .cleared)
  | stops => exact .inl (law.does .stopped)
  | moves moves => exact .inr (.inl moves)
  | shows handled waiting => exact .inr (.inr ⟨_, handled, waiting, rfl⟩)

end Desk
end EvalDesk
