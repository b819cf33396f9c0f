import Scaffold.Execution.Scope
import Scaffold.Proofs.Execution.Rendering

/-!
# The context of a run is left as it was

`Step.Does` relates a step in a shared scope to the work that it does in a context it only reads: where templates
keep the values that they are handed, the workspace is what the work leaves, and the context is what it was, whether
the step ended or was broken off.  Binding an element keeps this form (`Does.binding`), and so a run in a shared
scope is the run in a fixed context (`always_run`).
-/

namespace Scaffold.Step

/-- Work on the workspace, in a context that is only read. -/
abbrev Work (Answer : Type) := Context → Workspace → Except ActionFault Answer × Workspace

/-- Work that no fault breaks off. -/
abbrev SureWork (Answer : Type) := Context → Workspace → Answer × Workspace

variable {Answer Other : Type} {step : Step Answer} {next : Answer → Step Other} {work : Work Answer}
  {sure : SureWork Answer} {others : Answer → SureWork Other} {options : RunOptions}
  {operation : Operation} {element : Value}

/-- The end of a step that leaves the context. -/
def ended (context : Context) (outcome : Except ActionFault Answer × Workspace) :
    EStateM.Result ActionFault Scope Answer :=
  match outcome with
  | (.ok answer, after) => .ok answer ⟨context, after⟩
  | (.error fault, after) => .error fault ⟨context, after⟩

/-- In every scope whose templates keep contexts a step does some work on the workspace, in the context of the
scope, and leaves this context, and templates of the same sort. -/
def Does (step : Step Answer) (work : Work Answer) : Prop :=
  ∀ context workspace, workspace.renderings.KeepContext →
    step ⟨context, workspace⟩ = ended context (work context workspace)
      ∧ (work context workspace).2.renderings.KeepContext

/-- A step does some work and is never broken off. -/
def Always (step : Step Answer) (sure : SureWork Answer) : Prop :=
  Does step fun context workspace => (.ok (sure context workspace).1, (sure context workspace).2)

/-- Work that goes on with every answer, and ends at a fault. -/
def Work.andThen (work : Work Answer) (onward : Answer → Work Other) : Work Other :=
  fun context workspace =>
    match work context workspace with
    | (.ok answer, after) => onward answer context after
    | (.error fault, after) => (.error fault, after)

/-- Work whose faults are answered. -/
def Work.answered (work : Work Answer) (answer : ActionFault → Answer) : SureWork Answer :=
  fun context workspace =>
    match work context workspace with
    | (.ok given, after) => (given, after)
    | (.error fault, after) => (answer fault, after)

/-! ## Steps in general -/

/-- A step without effect. -/
theorem always_pure (answer : Answer) : Always (pure answer) fun _ workspace => (answer, workspace) :=
  fun _ _ keeps => ⟨rfl, keeps⟩

/-- What may be a fault is one. -/
theorem does_ofExcept (answer : Except ActionFault Answer) :
    Does (MonadExcept.ofExcept answer) fun _ workspace => (answer, workspace) := by
  intro context workspace keeps
  cases answer <;> exact ⟨rfl, keeps⟩

/-- Work on the workspace without renderings leaves the context. -/
theorem does_on {work : Workspace → Except ActionFault Answer × Workspace}
    (same : ∀ workspace, (work workspace).2.renderings = workspace.renderings) :
    Does (on work) fun _ workspace => work workspace := by
  intro context workspace keeps
  exact does_ofExcept (work workspace).1 context (work workspace).2 ((same workspace).symm ▸ keeps)

/-- A step that reads the scope does what it does in each. -/
theorem does_get {inside : Scope → Step Answer}
    (does : ∀ context workspace, workspace.renderings.KeepContext →
      inside ⟨context, workspace⟩ ⟨context, workspace⟩ = ended context (work context workspace)
        ∧ (work context workspace).2.renderings.KeepContext) : Does (get >>= inside) work := does

/-- Steps that are taken one after the other do their work one after the other. -/
theorem Does.bind {onward : Answer → Work Other} (first : Does step work)
    (second : ∀ answer, Does (next answer) (onward answer)) :
    Does (step >>= next) (work.andThen onward) := by
  intro context workspace keeps
  obtain ⟨taken, kept⟩ := first context workspace keeps
  simp only [Bind.bind, EStateM.bind, taken, Work.andThen]
  cases worked : work context workspace with
  | mk answer after =>
      rw [worked] at kept
      cases answer with
      | ok answer => exact second answer context after kept
      | error fault => exact ⟨rfl, kept⟩

/-- Steps that are never broken off are not if they are taken one after the other. -/
theorem Always.bind (first : Always step sure) (second : ∀ answer, Always (next answer) (others answer)) :
    Always (step >>= next) fun context workspace =>
      others (sure context workspace).1 context (sure context workspace).2 :=
  Does.bind first second

/-- A step whose faults are caught is never broken off. -/
theorem Does.caught (does : Does step work) (answer : ActionFault → Answer) :
    Always (tryCatch step fun fault => pure (answer fault)) (work.answered answer) := by
  intro context workspace keeps
  obtain ⟨taken, kept⟩ := does context workspace keeps
  simp only [tryCatch, tryCatchThe, MonadExceptOf.tryCatch, EStateM.tryCatch, taken, Work.answered]
  cases worked : work context workspace with
  | mk answer after =>
      rw [worked] at kept
      cases answer <;> exact ⟨rfl, kept⟩

/-- A step that is taken while an element is bound does its work in the context with the element, and the
context is as it was afterwards, whether the step ended or was broken off. -/
theorem Does.binding (does : Does step work) (element : Value) :
    Does (binding element step) fun context workspace => work (context.withItem element) workspace := by
  intro context workspace keeps
  obtain ⟨taken, kept⟩ := does (context.withItem element) workspace keeps
  simp only [Step.binding, Bind.bind, EStateM.bind, get, getThe, MonadStateOf.get, modify, modifyGet,
    MonadStateOf.modifyGet, tryFinally, tryFinally', Functor.map, EStateM.map]
  delta EStateM.get EStateM.modifyGet
  simp only [taken]
  cases worked : work (context.withItem element) workspace with
  | mk answer after =>
      rw [worked] at kept
      cases answer <;> exact ⟨rfl, kept⟩

/-! ## The steps of a run -/

/-- A template file is rendered; templates keep the context, whose values are handed over. -/
theorem does_render (template : TemplateFile) :
    Does (render template) fun _ workspace =>
      ((workspace.render template).1.answer.mapError (.rendering template), (workspace.render template).2) := by
  intro context workspace keeps
  have same : (workspace.render template).1.context context = context := keeps 0 workspace.tree template context
  have left : (workspace.render template).2.renderings.KeepContext := keeps.of_leaves ⟨1, rfl⟩
  have answered := does_ofExcept ((workspace.render template).1.answer.mapError (.rendering template)) context
    (workspace.render template).2 left
  refine ⟨?_, left⟩
  have unfolded : render template ⟨context, workspace⟩
      = (MonadExcept.ofExcept ((workspace.render template).1.answer.mapError (.rendering template)) : Step String)
        ⟨(workspace.render template).1.context context, (workspace.render template).2⟩ := rfl
  rw [unfolded, same]
  exact answered.1

/-- An operation is planned in the context of the scope. -/
theorem does_plan (options : RunOptions) (operation : Operation) :
    Does (plan options operation) fun context workspace =>
      workspace.plan context options.skipInstall operation := by
  refine does_get fun context workspace keeps => ?_
  cases operation with
  | createFile path source overwrite merge =>
      cases source with
      | content text => exact does_ofExcept _ context workspace keeps
      | template file =>
          have target := does_ofExcept (Target.ofTemplate workspace.tree context .createFile path)
          have creation (found : Target) (text : String) : Does
              (do
                let plan ← MonadExcept.ofExcept (Plan.creation (← get).context found text overwrite merge)
                return some plan)
              fun context workspace => ((Plan.creation context found text overwrite merge).map some, workspace) := by
            refine does_get fun context workspace keeps => ?_
            have planned := (does_ofExcept (Plan.creation context found text overwrite merge)).bind
              (fun plan => always_pure (some plan)) context workspace keeps
            refine Eq.mp ?_ planned
            cases Plan.creation context found text overwrite merge <;> rfl
          have whole := (target.bind fun found =>
            (does_render (.ofName context file)).bind (creation found)) context workspace keeps
          refine Eq.mp ?_ whole
          simp only [Work.andThen, Workspace.plan]
          cases Target.ofTemplate workspace.tree context .createFile path with
          | error fault => rfl
          | ok found =>
              dsimp only
              cases (workspace.render (.ofName context file)).1.answer <;> rfl
  | _ => exact does_ofExcept _ context workspace keeps

/-- What is left to do of an operation when it is planned. -/
def fulfil : Option Plan → Work Effect
  | none => fun _ workspace => (.ok .skipped, workspace)
  | some plan =>
    Work.andThen (fun _ workspace => workspace.editAll plan.edits) fun touched =>
      Work.andThen (fun _ workspace => workspace.launch plan.job) fun _ _ workspace =>
        (.ok (Workspace.effectOf touched), workspace)

/-- An operation is planned, and what is left to do is done. -/
def effort (options : RunOptions) (operation : Operation) : Work Effect :=
  Work.andThen (fun context workspace => workspace.plan context options.skipInstall operation) fulfil

/-- An operation is planned in the context of the scope and then carried out. -/
theorem does_carryOut (options : RunOptions) (operation : Operation) :
    Does (carryOut options operation) (effort options operation) := by
  refine (does_plan options operation).bind fun plan => ?_
  cases plan with
  | none => exact always_pure _
  | some plan =>
      exact (does_on (Workspace.renderings_editAll plan.edits)).bind fun touched =>
        (does_on (Workspace.renderings_launch plan.job)).bind fun _ => always_pure _

/-- A plan is carried out as what is left to do of its operation, with faults as effects. -/
theorem carryOut_eq (plan : Plan) (context : Context) (workspace : Workspace) :
    workspace.carryOut plan
      = (fulfil (some plan)).answered (fun fault => .failed fault.message) context workspace := by
  simp only [Workspace.carryOut, fulfil, Work.answered, Work.andThen]
  cases workspace.editAll plan.edits with
  | mk answer edited =>
      cases answer with
      | error fault => rfl
      | ok touched =>
          dsimp only
          cases edited.launch plan.job with
          | mk answer done => cases answer <;> rfl

/-- An attempt is the effort with its faults as effects. -/
theorem attempt_eq (options : RunOptions) (operation : Operation) :
    (fun context workspace => Execution.attempt options context workspace operation)
      = (effort options operation).answered fun fault => .failed fault.message := by
  funext context workspace
  simp only [Execution.attempt, effort, Work.answered, Work.andThen]
  cases workspace.plan context options.skipInstall operation with
  | mk answer after =>
      rcases answer with fault | none | plan
      · rfl
      · rfl
      · exact carryOut_eq plan context after

/-- An operation whose faults are caught is attempted. -/
theorem always_attempt (options : RunOptions) (operation : Operation) :
    Always (tryCatch (carryOut options operation) fun fault => pure (.failed fault.message))
      fun context workspace => Execution.attempt options context workspace operation := by
  rw [attempt_eq]
  exact (does_carryOut options operation).caught _

/-- An outcome is recorded. -/
theorem always_record (outcome : Outcome) (text : String) :
    Always (record options outcome text) fun _ workspace =>
      Execution.record options workspace outcome text := by
  refine does_on fun workspace => ?_
  simp only [Execution.record]
  split <;> rfl

/-- An operation is applied once. -/
theorem always_applyOnce (options : RunOptions) (index : Nat) (operation : Operation)
    (iteration : Option Nat) :
    Always (applyOnce options index operation iteration) fun context workspace =>
      Execution.applyOnce options context workspace index operation iteration :=
  (always_attempt options operation).bind fun effect =>
    always_record ⟨index, operation.kind, effect, iteration⟩ (Execution.note effect)

/-- An operation is applied to elements, each of which is bound in the shared context while it is. -/
theorem always_applyEach (options : RunOptions) (index : Nat) (operation : Operation) (position : Nat)
    (elements : List Value) :
    Always (applyEach options index operation position elements) fun context workspace =>
      Execution.applyEach options context workspace index operation position elements := by
  induction elements generalizing position with
  | nil => exact always_pure []
  | cons element rest inductionHypothesis =>
      have first := (always_applyOnce options index operation (some position)).binding element
      exact Always.bind first fun outcome =>
        (inductionHypothesis (position + 1)).bind fun others => always_pure (outcome :: others)

/-- An outcome is recorded alone. -/
theorem always_recordOnly (outcome : Outcome) (text : String) :
    Always (do return [← record options outcome text]) fun _ workspace =>
      Execution.recordOnly options workspace outcome text :=
  (always_record outcome text).bind fun recorded => always_pure [recorded]

/-- An action is run. -/
theorem always_runAction (options : RunOptions) (index : Nat) (action : Action) :
    Always (runAction options index action) fun context workspace =>
      Execution.runAction options context workspace index action := by
  refine does_get fun context workspace keeps => ?_
  simp only [Execution.runAction]
  cases Execution.isWanted context action with
  | false => exact always_recordOnly _ _ context workspace keeps
  | true =>
      cases action.forEach with
      | none =>
          exact (always_applyOnce options index action.operation none).bind
            (fun outcome => always_pure [outcome]) context workspace keeps
      | some selector =>
          dsimp only
          cases Execution.elements context selector with
          | error fault => exact always_recordOnly _ _ context workspace keeps
          | ok items =>
              cases items with
              | nil => exact always_recordOnly _ _ context workspace keeps
              | cons => exact always_applyEach _ _ _ _ _ context workspace keeps

/-- Actions are run in order. -/
theorem always_runActions (options : RunOptions) (index : Nat) (actions : List Action) :
    Always (runActions options index actions) fun context workspace =>
      Execution.runActions options context workspace index actions := by
  induction actions generalizing index with
  | nil => exact always_pure []
  | cons action rest inductionHypothesis =>
      exact (always_runAction options index action).bind fun outcomes =>
        (inductionHypothesis (index + 1)).bind fun others => always_pure (outcomes ++ others)

/-- The outcomes are reported for the module of the context. -/
theorem always_report (outcomes : List Outcome) :
    Always (do return Report.ofOutcomes (((← get).context.current.map Module.id).getD "") outcomes)
      fun context workspace =>
        (Report.ofOutcomes ((context.current.map Module.id).getD "") outcomes, workspace) :=
  does_get fun _ _ keeps => ⟨rfl, keeps⟩

/-- A run in a shared scope is never broken off, does what the run in the context does, and leaves the
context. -/
theorem always_run (options : RunOptions) (actions : List Action) :
    Always (run options actions) fun context workspace =>
      Execution.run options context actions workspace :=
  (always_runActions options 0 actions).bind always_report

end Scaffold.Step
