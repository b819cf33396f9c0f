import Scaffold.Execution.Run

/-!
# Running in a shared scope

A run as the program makes it: steps that share one state, the context in which everything is read, and the
workspace.  A repeated action binds each element in that shared context while it is applied, and takes the
binding back when the application is over, be it by a fault.  A template file is rendered with values of the
context and may leave them changed; where no template does, this is the run in a fixed context.
-/

namespace Scaffold

/-- The state that the steps of a run share. -/
structure Scope where
  context : Context
  workspace : Workspace

/-- A step reads and changes the scope.  A fault breaks it off; what it changed before stays changed. -/
abbrev Step (Answer : Type) := EStateM ActionFault Scope Answer

namespace Step

variable {Answer : Type}

/-- Works on the workspace. -/
def on (work : Workspace → Except ActionFault Answer × Workspace) : Step Answer := do
  let scope ← get
  let (answer, workspace) := work scope.workspace
  set { scope with workspace }
  MonadExcept.ofExcept answer

/-- Takes a step while an element is bound.  What was bound before is bound again afterwards, also if a
fault broke the step off. -/
def binding (element : Value) (step : Step Answer) : Step Answer := do
  let previous := (← get).context.item
  modify fun scope => { scope with context := scope.context.withItem element }
  try step
  finally modify fun scope => { scope with context := { scope.context with item := previous } }

/-- Renders a template file.  It is handed values of the context, and may change them. -/
def render (template : TemplateFile) : Step String := do
  let scope ← get
  let (rendering, workspace) := scope.workspace.render template
  set (Scope.mk (rendering.context scope.context) workspace)
  MonadExcept.ofExcept (rendering.answer.mapError (.rendering template))

/-- Plans an operation.  A template file is rendered once the target is known. -/
def plan (options : RunOptions) (operation : Operation) : Step (Option Plan) := do
  let scope ← get
  match operation with
  | .createFile path (.template file) overwrite merge =>
    let target ← MonadExcept.ofExcept
      (Target.ofTemplate scope.workspace.tree scope.context .createFile path)
    let text ← render (.ofName scope.context file)
    let plan ← MonadExcept.ofExcept
      (Plan.creation (← get).context target text overwrite merge)
    return some plan
  | _ =>
    MonadExcept.ofExcept
      (Plan.ofOperation scope.workspace.tree scope.context options.skipInstall operation)

/-- Carries out an operation. -/
def carryOut (options : RunOptions) (operation : Operation) : Step Effect := do
  match ← plan options operation with
  | none => return .skipped
  | some plan =>
    let touched ← on fun workspace => workspace.editAll plan.edits
    on fun workspace => workspace.launch plan.job
    return Workspace.effectOf touched

/-- Records an outcome under a text. -/
def record (options : RunOptions) (outcome : Outcome) (text : String) : Step Outcome :=
  on fun workspace =>
    let (recorded, after) := Execution.record options workspace outcome text
    (.ok recorded, after)

/-- Applies an operation once.  A fault is caught and becomes the effect. -/
def applyOnce (options : RunOptions) (index : Nat) (operation : Operation) (iteration : Option Nat) :
    Step Outcome := do
  let effect ←
    try carryOut options operation
    catch fault => pure (.failed fault.message)
  record options ⟨index, operation.kind, effect, iteration⟩ (Execution.note effect)

/-- Applies an operation to elements, counted from a position. -/
def applyEach (options : RunOptions) (index : Nat) (operation : Operation) (position : Nat) :
    List Value → Step (List Outcome)
  | [] => return []
  | element :: rest => do
    let outcome ← binding element (applyOnce options index operation (some position))
    let others ← applyEach options index operation (position + 1) rest
    return outcome :: others

/-- Runs an action. -/
def runAction (options : RunOptions) (index : Nat) (action : Action) : Step (List Outcome) := do
  let context := (← get).context
  if !Execution.isWanted context action then
    return [← record options ⟨index, action.kind, .skipped, none⟩ "skipped (condition is false)"]
  else
    match action.forEach with
    | none => return [← applyOnce options index action.operation none]
    | some selector =>
      match Execution.elements context selector with
      | .error fault =>
        let effect := Effect.failed fault.message
        return [← record options ⟨index, action.kind, effect, none⟩ (Execution.note effect)]
      | .ok [] => return [← record options ⟨index, action.kind, .skipped, none⟩ "skipped (empty collection)"]
      | .ok items => applyEach options index action.operation 0 items

/-- Runs actions in order, counted from an index. -/
def runActions (options : RunOptions) (index : Nat) : List Action → Step (List Outcome)
  | [] => return []
  | action :: rest => do
    let outcomes ← runAction options index action
    let others ← runActions options (index + 1) rest
    return outcomes ++ others

/-- Runs a blueprint. -/
def run (options : RunOptions) (actions : List Action) : Step Report := do
  let outcomes ← runActions options 0 actions
  let context := (← get).context
  return Report.ofOutcomes ((context.current.map Module.id).getD "") outcomes

end Step

end Scaffold
