import Scaffold.Execution.Workspace
import Scaffold.Template.Condition

/-!
# Running blueprints

The actions of a blueprint are applied in order.  An action whose condition is false is passed over; one
that is repeated is applied to every element of a collection.  A failure is recorded and the run goes on.
-/

namespace Scaffold

/-- How a blueprint is run. -/
structure RunOptions where
  /-- Record packages without installing them. -/
  skipInstall : Bool
  /-- Show every application. -/
  verbose : Bool
  deriving DecidableEq, Repr

namespace Execution

/-- The selector of a collection without the braces that may stand around it. -/
def bareSelector (selector : String) : String :=
  let trimmed := Text.trim selector.toList
  if ['\x7b', '\x7b'].isPrefixOf trimmed && ['\x7d', '\x7d'].isSuffixOf trimmed then
    String.ofList (Text.trim ((trimmed.drop 2).dropLast.dropLast))
  else String.ofList trimmed

/-- The elements that a selector names; a selector without a value names none. -/
def elements (context : Context) (selector : String) : Except ActionFault (List Value) :=
  match context.select (bareSelector selector) with
  | none => .ok []
  | some .null => .ok []
  | some (.list items) => .ok items
  | some _ => .error (.notList selector)

/-- What an effect is shown as. -/
def note : Effect → String
  | .applied paths => shownPaths "applied" paths
  | .unchanged paths => shownPaths "unchanged" paths
  | .skipped => "skipped"
  | .failed message => "[red]failed[/red] " ++ Markup.escape message
where
  /-- A status and paths. -/
  shownPaths (status : String) (paths : List String) : String :=
    String.ofList
      (Text.trimRight (status ++ " " ++ Markup.escape (String.intercalate ", " paths)).toList)

/-- The line that shows an outcome. -/
def line (index : Nat) (iteration : Option Nat) (kind : ActionKind) (text : String) : Shown :=
  let element := match iteration with
    | none => ""
    | some position => "." ++ Decimal.intText position
  .line ("  [dim][" ++ Decimal.intText index ++ element ++ "][/dim] [cyan]" ++ kind.name ++ "[/cyan] "
    ++ text)

/-- Records an outcome under a text. -/
def record (options : RunOptions) (workspace : Workspace) (outcome : Outcome) (text : String) :
    Outcome × Workspace :=
  (outcome,
    if options.verbose then
      workspace.tell [line outcome.index outcome.iteration outcome.kind text]
    else workspace)

/-- Carries out an operation. -/
def attempt (options : RunOptions) (context : Context) (workspace : Workspace)
    (operation : Operation) : Effect × Workspace :=
  match workspace.plan context options.skipInstall operation with
  | (.error fault, after) => (.failed fault.message, after)
  | (.ok none, after) => (.skipped, after)
  | (.ok (some plan), after) => after.carryOut plan

/-- Applies an action once. -/
def applyOnce (options : RunOptions) (context : Context) (workspace : Workspace) (index : Nat)
    (operation : Operation) (iteration : Option Nat) : Outcome × Workspace :=
  let (effect, after) := attempt options context workspace operation
  record options after ⟨index, operation.kind, effect, iteration⟩ (note effect)

/-- Applies an action to elements, counted from a position. -/
def applyEach (options : RunOptions) (context : Context) (workspace : Workspace) (index : Nat)
    (operation : Operation) (position : Nat) : List Value → List Outcome × Workspace
  | [] => ([], workspace)
  | element :: rest =>
    let (outcome, after) :=
      applyOnce options (context.withItem element) workspace index operation (some position)
    let (outcomes, done) := applyEach options context after index operation (position + 1) rest
    (outcome :: outcomes, done)

/-- Whether the condition of an action holds. -/
def isWanted (context : Context) (action : Action) : Bool :=
  match action.condition with
  | none => true
  | some condition => Template.holds condition.toList context

/-- Records one outcome. -/
def recordOnly (options : RunOptions) (workspace : Workspace) (outcome : Outcome) (text : String) :
    List Outcome × Workspace :=
  let (recorded, after) := record options workspace outcome text
  ([recorded], after)

/-- Runs an action. -/
def runAction (options : RunOptions) (context : Context) (workspace : Workspace) (index : Nat)
    (action : Action) : List Outcome × Workspace :=
  if !isWanted context action then
    recordOnly options workspace ⟨index, action.kind, .skipped, none⟩ "skipped (condition is false)"
  else
    match action.forEach with
    | none =>
      let (outcome, after) := applyOnce options context workspace index action.operation none
      ([outcome], after)
    | some selector =>
      match elements context selector with
      | .error fault =>
        let effect := Effect.failed fault.message
        recordOnly options workspace ⟨index, action.kind, effect, none⟩ (note effect)
      | .ok [] =>
        recordOnly options workspace ⟨index, action.kind, .skipped, none⟩
          "skipped (empty collection)"
      | .ok items => applyEach options context workspace index action.operation 0 items

/-- Runs actions in order, counted from an index. -/
def runActions (options : RunOptions) (context : Context) (workspace : Workspace) (index : Nat) :
    List Action → List Outcome × Workspace
  | [] => ([], workspace)
  | action :: rest =>
    let (outcomes, after) := runAction options context workspace index action
    let (others, done) := runActions options context after (index + 1) rest
    (outcomes ++ others, done)

/-- Runs a blueprint. -/
def run (options : RunOptions) (context : Context) (actions : List Action) (workspace : Workspace) :
    Report × Workspace :=
  let (outcomes, done) := runActions options context workspace 0 actions
  (Report.ofOutcomes ((context.current.map Module.id).getD "") outcomes, done)

end Execution

end Scaffold
