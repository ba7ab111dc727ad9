import EvalDesk.Fault

/-!
# Actions that may fail

The engine and the desk act on a state of their own and may fail on the way; what was done by then
stays done. An action leads from every state to a related one when all its steps do, for every
relation that can be put together from steps. So what an action keeps, what it preserves and what
it only adds to are found from its steps in one way. Two runs are compared in the same way: what
does not read where two states differ has the same result in both and leaves them alike. What is
true of every result of an action is found from its last steps.
-/
namespace EvalDesk.Fallible

variable {σ α β : Type}

/-- Something done on a state, which may fail. -/
abbrev Deed (σ α : Type) := ExceptT Fault (StateM σ) α

/-- Do it; the state after a failure is the one at the failure. -/
def perform (state : σ) (deed : Deed σ α) : σ × Except Fault α :=
  let (result, state) := deed.run.run state
  (state, result)

section Perform

variable (state : σ)

/-- A deed that reads the state. -/
theorem perform_get : perform state (get : Deed σ σ) = (state, .ok state) := rfl

/-- A deed that changes the state. -/
theorem perform_modify (change : σ → σ) :
    perform state (modify change : Deed σ PUnit) = (change state, .ok ⟨⟩) := rfl

/-- A deed that takes over a result. -/
theorem perform_lift (result : Except Fault α) :
    perform state (liftM result : Deed σ α) = (state, result) := rfl

/-- One deed after another; the second is not done when the first fails. -/
theorem perform_bind (deed : Deed σ α) (next : α → Deed σ β) :
    perform state (deed >>= next) =
      match perform state deed with
      | (after, .ok result) => perform after (next result)
      | (after, .error fault) => (after, .error fault) := by
  simp only [perform, ExceptT.run_bind, StateT.run_bind]
  cases StateT.run (ExceptT.run deed) state with
  | mk result after => cases result <;> rfl

/-- A deed whose result is not needed. -/
theorem perform_discard (deed : Deed σ α) :
    perform state (discard deed) =
      match perform state deed with
      | (after, .ok _) => (after, .ok ())
      | (after, .error fault) => (after, .error fault) := by
  simp only [discard, Functor.mapConst, Function.comp, ExceptT.map, perform, ExceptT.run,
    ExceptT.mk, StateT.run, bind, StateT.bind]
  cases deed state with
  | mk result after => cases result <;> rfl

/-- A deed whose failure is taken up by another. -/
theorem perform_tryCatch (deed : Deed σ α) (rescue : Fault → Deed σ α) :
    perform state (tryCatch deed rescue) =
      match perform state deed with
      | (after, .ok result) => (after, .ok result)
      | (after, .error fault) => perform after (rescue fault) := by
  simp only [perform, tryCatch, tryCatchThe, MonadExceptOf.tryCatch, ExceptT.tryCatch,
    ExceptT.run, ExceptT.mk, bind, StateT.bind, StateT.run]
  cases deed state with
  | mk result after => cases result <;> rfl

end Perform

/-- Changing a result neither makes nor loses one. -/
theorem exists_map_iff {attempt : Except Fault α} {change : α → β} :
    (∃ result, attempt.map change = .ok result) ↔ ∃ result, attempt = .ok result := by
  cases attempt with
  | error fault => exact ⟨fun ⟨_, made⟩ => (nomatch made), fun ⟨_, made⟩ => (nomatch made)⟩
  | ok result => exact ⟨fun _ => ⟨result, rfl⟩, fun _ => ⟨change result, rfl⟩⟩

/-- Changing a fault neither makes nor loses a result. -/
theorem exists_mapError_iff {ε : Type} {attempt : Except ε α} {change : ε → Fault} :
    (∃ result, attempt.mapError change = .ok result) ↔ ∃ result, attempt = .ok result := by
  cases attempt with
  | error flaw => exact ⟨fun ⟨_, made⟩ => (nomatch made), fun ⟨_, made⟩ => (nomatch made)⟩
  | ok result => exact ⟨fun _ => ⟨result, rfl⟩, fun _ => ⟨result, rfl⟩⟩

/-- Results that exist one by one exist together, and the other way round. -/
theorem exists_mapM_iff {values : List α} {make : α → Except Fault β} :
    (∃ results, values.mapM make = .ok results) ↔
      ∀ value ∈ values, ∃ result, make value = .ok result := by
  induction values with
  | nil => exact ⟨fun _ _ member => absurd member List.not_mem_nil, fun _ => ⟨[], rfl⟩⟩
  | cons value rest ih =>
    rw [List.mapM_cons]
    constructor
    · rintro ⟨results, made⟩ other member
      cases first : make value with
      | error fault =>
        rw [first] at made
        cases made
      | ok result =>
        cases behind : rest.mapM make with
        | error fault =>
          rw [first, behind] at made
          cases made
        | ok others =>
          rcases List.mem_cons.mp member with rfl | later
          · exact ⟨result, first⟩
          · exact ih.mp ⟨others, behind⟩ other later
    · intro each
      obtain ⟨result, made⟩ := each value (.head _)
      obtain ⟨results, others⟩ := ih.mpr fun other member => each other (.tail _ member)
      rw [made, others]
      exact ⟨result :: results, rfl⟩

/-- Results that were made one by one are as many as the values, and in their order. -/
theorem getElem?_of_mapM {values : List α} {make : α → Except Fault β} {results : List β}
    (made : values.mapM make = .ok results) :
    results.length = values.length ∧ ∀ {index : Nat} {value : α}, values[index]? = some value →
      ∃ result, results[index]? = some result ∧ make value = .ok result := by
  induction values generalizing results with
  | nil =>
    cases made
    exact ⟨rfl, fun there => (nomatch there)⟩
  | cons first rest ih =>
    rw [List.mapM_cons] at made
    cases begun : make first with
    | error fault =>
      rw [begun] at made
      cases made
    | ok result =>
      cases behind : rest.mapM make with
      | error fault =>
        rw [begun, behind] at made
        cases made
      | ok others =>
        rw [begun, behind] at made
        cases made
        obtain ⟨count, each⟩ := ih behind
        refine ⟨congrArg (· + 1) count, fun {index value} there => ?_⟩
        cases index with
        | zero =>
          cases there
          exact ⟨result, rfl, begun⟩
        | succ index => exact each there

/-- A relation from a state to later ones that can be put together from steps. -/
structure Chains (relation : σ → σ → Prop) : Prop where
  /-- Nothing has happened. -/
  refl : ∀ state, relation state state
  /-- One thing has happened after another. -/
  trans : ∀ {before middle after}, relation before middle → relation middle after →
    relation before after

/-- Steps for some values in order lead as far as each of them does. -/
theorem Chains.foldl {relation : σ → σ → Prop} (chains : Chains relation) {step : σ → β → σ}
    (each : ∀ state value, relation state (step state value)) (state : σ) (values : List β) :
    relation state (values.foldl step state) := by
  induction values generalizing state with
  | nil => exact chains.refl state
  | cons value rest ih => exact chains.trans (each state value) (ih _)

/-- Views that stay as they are. -/
theorem chains_view (view : σ → β) : Chains fun before after => view after = view before :=
  ⟨fun _ => rfl, fun first second => second.trans first⟩

/-- Properties that stay true. -/
theorem chains_property (property : σ → Prop) :
    Chains fun before after => property before → property after :=
  ⟨fun _ holds => holds, fun first second holds => second (first holds)⟩

/-- The deed leads from every state to a related one, also when it fails. -/
def Leads (relation : σ → σ → Prop) (deed : Deed σ α) : Prop :=
  ∀ state, relation state (perform state deed).1

section Leads

variable {relation : σ → σ → Prop} (chains : Chains relation)
include chains

/-- Doing nothing. -/
theorem leads_pure (result : α) : Leads relation (pure result : Deed σ α) := chains.refl

/-- Failing at once. -/
theorem leads_throw (fault : Fault) : Leads relation (throw fault : Deed σ α) := chains.refl

/-- Reading the state. -/
theorem leads_get : Leads relation (get : Deed σ σ) := chains.refl

/-- Taking over a result. -/
theorem leads_lift (result : Except Fault α) : Leads relation (liftM result : Deed σ α) :=
  chains.refl

/-- A deed leads on from where the deeds before it have led. -/
theorem leads_from {deed : Deed σ α} {next : α → Deed σ β}
    (second : ∀ result, Leads relation (next result)) (state : σ) :
    relation (perform state deed).1 (perform state (deed >>= next)).1 := by
  rw [perform_bind]
  cases perform state deed with
  | mk after result =>
    cases result with
    | error fault => exact chains.refl after
    | ok result => exact second result after

/-- One deed after another. -/
theorem leads_bind {deed : Deed σ α} {next : α → Deed σ β} (first : Leads relation deed)
    (second : ∀ result, Leads relation (next result)) : Leads relation (deed >>= next) :=
  fun state => chains.trans (first state) (leads_from chains second state)

/-- A deed whose failure is taken up by another. -/
theorem leads_tryCatch {deed : Deed σ α} {rescue : Fault → Deed σ α} (first : Leads relation deed)
    (second : ∀ fault, Leads relation (rescue fault)) : Leads relation (tryCatch deed rescue) := by
  intro state
  rw [perform_tryCatch]
  have before := first state
  cases done : perform state deed with
  | mk after result =>
    rw [done] at before
    cases result with
    | error fault => exact chains.trans before (second fault after)
    | ok result => exact before

/-- A deed for each of some values in order. -/
theorem leads_forM {deed : β → Deed σ Unit} (each : ∀ value, Leads relation (deed value))
    (values : List β) : Leads relation (values.forM deed) := by
  induction values with
  | nil => exact leads_pure chains ()
  | cons value rest ih => exact leads_bind chains (each value) fun _ => ih

omit chains

/-- A change of the state. -/
theorem leads_modify {change : σ → σ} (step : ∀ state, relation state (change state)) :
    Leads relation (modify change : Deed σ Unit) := step

/-- Going on from the state as it is. -/
theorem leads_get_bind {next : σ → Deed σ β}
    (step : ∀ state, relation state (perform state (next state)).1) :
    Leads relation (get >>= next) := step

/-- A deed whose result is not needed. -/
theorem leads_discard {deed : Deed σ α} (leads : Leads relation deed) :
    Leads relation (discard deed) := by
  intro state
  have after := leads state
  rw [perform_discard]
  cases done : perform state deed with
  | mk later result =>
    rw [done] at after
    cases result <;> exact after

end Leads

/-- The deed has the same result in related states and leaves related ones, also when it fails. -/
def Tallies (relation : σ → σ → Prop) (deed : Deed σ α) : Prop :=
  ∀ first second, relation first second →
    relation (perform first deed).1 (perform second deed).1 ∧
      (perform first deed).2 = (perform second deed).2

section Tallies

variable {relation : σ → σ → Prop}

/-- Doing nothing. -/
theorem tallies_pure (result : α) : Tallies relation (pure result : Deed σ α) :=
  fun _ _ related => ⟨related, rfl⟩

/-- Failing at once. -/
theorem tallies_throw (fault : Fault) : Tallies relation (throw fault : Deed σ α) :=
  fun _ _ related => ⟨related, rfl⟩

/-- Taking over a result. -/
theorem tallies_lift (result : Except Fault α) : Tallies relation (liftM result : Deed σ α) :=
  fun _ _ related => ⟨related, rfl⟩

/-- A change of the state. -/
theorem tallies_modify {change : σ → σ}
    (step : ∀ first second, relation first second → relation (change first) (change second)) :
    Tallies relation (modify change : Deed σ Unit) :=
  fun first second related => ⟨step first second related, rfl⟩

/-- One deed after another. -/
theorem tallies_bind {deed : Deed σ α} {next : α → Deed σ β} (before : Tallies relation deed)
    (behind : ∀ result, Tallies relation (next result)) : Tallies relation (deed >>= next) := by
  intro first second related
  obtain ⟨still, same⟩ := before first second related
  simp only [perform_bind]
  cases one : perform first deed with
  | mk middle result =>
    cases other : perform second deed with
    | mk twin answer =>
      rw [one, other] at still same
      cases same
      cases result with
      | error fault => exact ⟨still, rfl⟩
      | ok result => exact behind result middle twin still

/-- Going on from the state by nothing in which related states differ. -/
theorem tallies_get_bind {next : σ → Deed σ β}
    (shared : ∀ first second, relation first second → next first = next second)
    (behind : ∀ state, Tallies relation (next state)) : Tallies relation (get >>= next) := by
  intro first second related
  simp only [perform_bind, perform_get]
  rw [← shared first second related]
  exact behind first first second related

/-- A deed whose failure is taken up by another. -/
theorem tallies_tryCatch {deed : Deed σ α} {rescue : Fault → Deed σ α}
    (before : Tallies relation deed) (behind : ∀ fault, Tallies relation (rescue fault)) :
    Tallies relation (tryCatch deed rescue) := by
  intro first second related
  obtain ⟨still, same⟩ := before first second related
  simp only [perform_tryCatch]
  cases one : perform first deed with
  | mk middle result =>
    cases other : perform second deed with
    | mk twin answer =>
      rw [one, other] at still same
      cases same
      cases result with
      | error fault => exact behind fault middle twin still
      | ok result => exact ⟨still, rfl⟩

end Tallies

/-- Every result of the deed has the property. -/
def Gives (property : α → Prop) (deed : Deed σ α) : Prop :=
  ∀ state result, (perform state deed).2 = .ok result → property result

section Gives

variable {property : α → Prop}

/-- One deed after another gives what the last one gives. -/
theorem gives_bind {deed : Deed σ β} {next : β → Deed σ α}
    (last : ∀ result, Gives property (next result)) : Gives property (deed >>= next) := by
  intro state result given
  rw [perform_bind] at given
  cases done : perform state deed with
  | mk after first =>
    rw [done] at given
    cases first with
    | error fault => cases given
    | ok middle => exact last middle after result given

/-- A result that is given at once. -/
theorem gives_pure {result : α} (holds : property result) :
    Gives property (pure result : Deed σ α) := by
  intro state other given
  cases given
  exact holds

/-- A failure gives nothing. -/
theorem gives_throw (fault : Fault) : Gives property (throw fault : Deed σ α) :=
  fun _ _ given => nomatch given

end Gives

end EvalDesk.Fallible
