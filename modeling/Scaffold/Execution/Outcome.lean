import Scaffold.Action.Basic
import Scaffold.Command.Result

/-!
# Outcomes and reports

What became of every application of an action, and the report of a whole blueprint: the files it named,
the errors, and a summary to show.
-/

namespace Scaffold

/-- What one application of an action did. -/
inductive Effect where
  /-- Some path has new content, or a command ran. -/
  | applied (paths : List String)
  /-- Every path had its content already. -/
  | unchanged (paths : List String)
  | skipped
  | failed (message : String)
  deriving DecidableEq, Repr

namespace Effect

/-- The written name of an effect. -/
def name : Effect → String
  | .applied _ => "applied"
  | .unchanged _ => "unchanged"
  | .skipped => "skipped"
  | .failed _ => "failed"

/-- The paths that an effect names. -/
def paths : Effect → List String
  | .applied paths => paths
  | .unchanged paths => paths
  | .skipped => []
  | .failed _ => []

/-- The paths that have new content. -/
def newPaths : Effect → List String
  | .applied paths => paths
  | _ => []

/-- The message of a failure. -/
def message? : Effect → Option String
  | .failed message => some message
  | _ => none

/-- Only a failure is no success. -/
def isSuccess (effect : Effect) : Bool := effect.message?.isNone

end Effect

/-- The effect of one application. -/
structure Outcome where
  /-- The position of the action in its blueprint. -/
  index : Nat
  kind : ActionKind
  effect : Effect
  /-- The position of the element, for an action that is repeated. -/
  iteration : Option Nat
  deriving DecidableEq, Repr

/-- The error line of an outcome that failed. -/
def Outcome.errorLine? (outcome : Outcome) : Option String :=
  outcome.effect.message?.map fun message =>
    let element := match outcome.iteration with
      | none => ""
      | some position => "item " ++ Decimal.intText position ++ ": "
    "[" ++ Decimal.intText outcome.index ++ "] " ++ outcome.kind.name ++ ": " ++ element ++ message

/-- An outcome as data: its places, its effect, and its error if it has one. -/
def Outcome.toValue (outcome : Outcome) : Value :=
  .list [.int outcome.index, .text outcome.kind.name, .text outcome.effect.name,
    .texts outcome.effect.paths, .optionalText outcome.effect.message?,
    match outcome.iteration with
    | none => .null
    | some position => .int position]

/-- What became of a blueprint. -/
structure Report where
  moduleId : String
  /-- The paths that were named without a failure. -/
  files : List String
  errors : List String
  outcomes : List Outcome
  /-- The seconds it took. -/
  duration : Decimal.Binary64

namespace Report

/-- The report of a list of outcomes. -/
def ofOutcomes (moduleId : String) (outcomes : List Outcome) : Report where
  moduleId
  files := (outcomes.flatMap fun outcome => outcome.effect.paths).eraseDups
  errors := outcomes.filterMap Outcome.errorLine?
  outcomes
  duration := .ofInt 0

/-- A blueprint succeeds if nothing failed. -/
def isSuccess (report : Report) : Bool := report.errors.isEmpty

/-- The files with new content. -/
def changedFiles (report : Report) : List String :=
  (report.outcomes.flatMap fun outcome => outcome.effect.newPaths).eraseDups

/-- The number of errors that a summary shows. -/
def shownErrors : Nat := 5

/-- The summary of a report. -/
def summary (report : Report) : String :=
  let status := if report.isSuccess then "[green]SUCCESS[/green]" else "[red]FAILED[/red]"
  let skipped := report.outcomes.countP fun outcome => outcome.effect == .skipped
  let head :=
    ["Status: " ++ status,
     "Duration: " ++ Decimal.tenthsText report.duration ++ "s",
     "Files touched: " ++ Decimal.intText report.files.length,
     "Actions skipped: " ++ Decimal.intText skipped]
  let detail :=
    if report.isSuccess then []
    else
      ("Errors: " ++ Decimal.intText report.errors.length)
        :: (report.errors.take shownErrors).map fun error => "  - " ++ CommandResult.clipped error
  String.intercalate "\n" (head ++ detail)

/-- A report as data. -/
def toValue (report : Report) : Value :=
  .record [("module_id", .text report.moduleId), ("success", .bool report.isSuccess),
    ("files", .texts report.files), ("errors", .texts report.errors),
    ("changed_files", .texts report.changedFiles), ("summary", .text report.summary),
    ("outcomes", .list (report.outcomes.map Outcome.toValue))]

end Report

end Scaffold
