import Scaffold.Duration
import Scaffold.Execution.Outcome
import Scaffold.Resolution.Basic

/-!
# Installation reports

What became of every module of an installation, in the order of the resolution.  Which modules were
installed, failed or were skipped, and all errors, are views of that one list.
-/

namespace Scaffold

/-- What became of a module. -/
inductive ModuleOutcome where
  /-- Its blueprint ran. -/
  | ran (report : Report)
  /-- Required parameters have no value. -/
  | incomplete (parameters : List String)
  /-- Dependencies were not installed. -/
  | blocked (dependencies : List String)
  /-- An earlier module failed and ended the installation. -/
  | unreached

namespace ModuleOutcome

/-- Whether a module is installed: its blueprint ran without errors. -/
def isInstalled : ModuleOutcome → Bool
  | .ran report => report.isSuccess
  | _ => false

/-- Whether a module failed. -/
def isFailed : ModuleOutcome → Bool
  | .ran report => !report.isSuccess
  | .incomplete _ => true
  | _ => false

/-- Whether a module was not tried. -/
def isSkipped : ModuleOutcome → Bool
  | .blocked _ => true
  | .unreached => true
  | _ => false

/-- Every outcome is of exactly one of the three sorts. -/
theorem isSkipped_eq (outcome : ModuleOutcome) :
    outcome.isSkipped = !(outcome.isInstalled || outcome.isFailed) := by
  cases outcome <;> simp [isSkipped, isInstalled, isFailed]

/-- The report of a blueprint that ran. -/
def report? : ModuleOutcome → Option Report
  | .ran report => some report
  | _ => none

/-- The errors of the parameters. -/
def parameterErrors : ModuleOutcome → List String
  | .incomplete parameters =>
    parameters.map fun name => "Missing required parameter '" ++ name ++ "'"
  | _ => []

/-- The errors of the blueprint. -/
def runErrors (outcome : ModuleOutcome) : List String := (outcome.report?.map Report.errors).getD []

/-- The word that is shown for an outcome. -/
def status (outcome : ModuleOutcome) : String :=
  if outcome.isInstalled then Markup.styled "green" "installed"
  else if outcome.isFailed then Markup.styled "red" "failed"
  else Markup.styled "yellow" "skipped"

/-- The number of files that is shown for an outcome. -/
def fileCount (outcome : ModuleOutcome) : String :=
  match outcome.report? with
  | none => "-"
  | some report => Decimal.intText report.files.length

/-- The number of errors of an outcome. -/
def errorCount (outcome : ModuleOutcome) : Nat :=
  (outcome.parameterErrors ++ outcome.runErrors).length

end ModuleOutcome

/-- The outcomes of the modules that were looked at, each under its id. -/
abbrev ModuleOutcomes := List (String × ModuleOutcome)

namespace ModuleOutcomes

/-- The ids of the outcomes of a sort. -/
def idsWhere (outcomes : ModuleOutcomes) (sort : ModuleOutcome → Bool) : List String :=
  (outcomes.filter fun entry => sort entry.2).map (·.1)

/-- Errors behind the id of their module. -/
def errorsBy (outcomes : ModuleOutcomes) (errors : ModuleOutcome → List String) : List String :=
  outcomes.flatMap fun (id, outcome) => (errors outcome).map fun error => id ++ ": " ++ error

end ModuleOutcomes

/-- What became of an installation. -/
structure InstallReport where
  resolution : Resolution
  outcomes : ModuleOutcomes

namespace InstallReport

/-- An installation whose resolution has defects tries nothing. -/
def isAborted (report : InstallReport) : Bool := !report.resolution.isOk

/-- The ids of the installed modules. -/
def installed (report : InstallReport) : List String :=
  report.outcomes.idsWhere ModuleOutcome.isInstalled

/-- The ids of the modules that failed. -/
def failed (report : InstallReport) : List String := report.outcomes.idsWhere ModuleOutcome.isFailed

/-- The ids of the modules that were not tried. -/
def skipped (report : InstallReport) : List String := report.outcomes.idsWhere ModuleOutcome.isSkipped

/-- An installation succeeds if every module is installed. -/
def isSuccess (report : InstallReport) : Bool :=
  !report.isAborted && report.failed.isEmpty && report.skipped.isEmpty

/-- All errors, those of parameters first. -/
def errors (report : InstallReport) : List String :=
  report.outcomes.errorsBy ModuleOutcome.parameterErrors
    ++ report.outcomes.errorsBy ModuleOutcome.runErrors

/-- The row of the summary table for a module. -/
def row : String × ModuleOutcome → List String
  | (id, outcome) =>
    [Markup.escape id, outcome.status, outcome.fileCount, Decimal.intText outcome.errorCount]

/-- The summary of an installation whose state is kept in a file. -/
def shown (report : InstallReport) (stateFile : Path) : List Shown :=
  let (color, verdict) :=
    if report.isSuccess then ("bold green", "INSTALL SUCCEEDED") else ("bold red", "INSTALL FAILED")
  let names := if report.installed.isEmpty then "none" else String.intercalate ", " report.installed
  [.table "Modules" ["Module", "Status", "Files", "Errors"] (report.outcomes.map row),
   .panel
    (String.intercalate "\n"
      [Markup.styled color verdict, "", "Duration  : " ++ Duration.ofInt 0, "Installed : " ++ names,
       "State     : " ++ stateFile.text])
    color]

/-- A report as data. -/
def toValue (report : InstallReport) : Value :=
  let problems := report.outcomes.filterMap fun (id, outcome) =>
    if outcome.parameterErrors.isEmpty then none
    else some (id, Value.texts outcome.parameterErrors)
  let results := report.outcomes.filterMap fun (id, outcome) =>
    outcome.report?.map fun result => (id, result.toValue)
  .record [("success", .bool report.isSuccess), ("aborted", .bool report.isAborted),
    ("installed", .texts report.installed), ("failed", .texts report.failed),
    ("skipped", .texts report.skipped), ("errors", .texts report.errors),
    ("validation", .record problems), ("order", .texts report.resolution.order),
    ("results", .record results)]

end InstallReport

end Scaffold
