import Scaffold.Execution.Run
import Scaffold.Install.State
import Scaffold.Resolution.Walk

/-!
# Installing modules

A request is resolved, and every module of the order is installed in turn: its dependencies must be
installed and its required parameters must have values before its blueprint runs.  What was done is
remembered in the state file.
-/

namespace Scaffold

/-- What installations of one project share. -/
structure Session where
  context : Context
  workspace : Workspace

namespace Session

/-- Shows lines on the console. -/
def tell (session : Session) (lines : List Shown) : Session :=
  { session with workspace := session.workspace.tell lines }

end Session

namespace Install

/-- The dependencies of a module that were looked at and are not installed. -/
def blockers (done : ModuleOutcomes) (descriptor : Module) : List String :=
  descriptor.dependencies.filter fun id =>
    done.any fun (other, outcome) => other == id && !outcome.isInstalled

/-- What is shown of an outcome. -/
def notes (id : String) : ModuleOutcome → List Shown
  | .ran report =>
    if report.isSuccess then
      [.success (id ++ ": " ++ Decimal.intText report.files.length ++ " file(s) touched")]
    else
      .error (id ++ ": " ++ Decimal.intText report.errors.length ++ " action(s) failed")
        :: report.errors.map fun error => .line ("  [red]-[/red] " ++ Markup.escape error)
  | .incomplete parameters =>
    [.error (id ++ ": missing required parameter(s) " ++ String.intercalate ", " parameters)]
  | .blocked dependencies =>
    [.warning ("Skipping " ++ id ++ ": dependency " ++ String.intercalate ", " dependencies
      ++ " did not install")]
  | .unreached => []

/-- Runs the blueprint of a module with values for its parameters. -/
def runModule (config : Config) (descriptor : Module) (values : Entries) (session : Session) :
    Report × Session :=
  let context := session.context.enter descriptor values
  let workspace :=
    session.workspace.tell (Shown.sectionHeading ("Installing " ++ descriptor.displayName))
  let (report, done) :=
    Execution.run ⟨config.skipInstall, config.verbose⟩ context descriptor.blueprint workspace
  (report, ⟨context, done⟩)

/-- Installs a module, unless something stands against it. -/
def installModule (config : Config) (values : List (String × Entries)) (done : ModuleOutcomes)
    (descriptor : Module) (session : Session) : ModuleOutcome × Session :=
  let supplied := (values.lookup descriptor.id).getD []
  match blockers done descriptor, descriptor.missingRequired supplied with
  | [], [] =>
    let (report, after) := runModule config descriptor supplied session
    (.ran report, after)
  | [], missing => (.incomplete missing, session)
  | dependencies, _ => (.blocked dependencies, session)

/-- Installs modules in order; `done` holds the outcomes so far.  Unless the settings say otherwise, the
first module that fails ends the installation. -/
def installEach (config : Config) (values : List (String × Entries)) (done : ModuleOutcomes)
    (session : Session) : List Module → ModuleOutcomes × Session
  | [] => (done, session)
  | descriptor :: rest =>
    let (outcome, after) := installModule config values done descriptor session
    let told := after.tell (notes descriptor.id outcome)
    let recorded := done ++ [(descriptor.id, outcome)]
    if outcome.isFailed && !config.continueOnFailure then
      (recorded ++ rest.map fun unseen => (unseen.id, .unreached), told)
    else installEach config values recorded told rest

/-- Remembers an installation. -/
def remember (config : Config) (now : String) (registry : Registry) (report : InstallReport)
    (session : Session) : Except StateFault Unit × Session :=
  let tree := session.workspace.tree
  let (loaded, shown) := InstallState.load tree config.statePath
  let told := session.tell shown
  match loaded.bind fun state => state.after now registry session.context report with
  | .error fault => (.error fault, told)
  | .ok state =>
    let (saved, written) := state.save tree config.statePath
    (saved, { told with workspace := { told.workspace with tree := written } })

/-- Installs the requested modules, and those they need, at a time.  A request that cannot be resolved
changes nothing. -/
def run (config : Config) (registry : Registry) (now : String) (requested : List String)
    (values : List (String × Entries)) (session : Session) : Except StateFault InstallReport × Session :=
  let resolution := registry.resolve requested
  let resolved := session.tell (Shown.sectionHeading "Resolving modules" ++ resolution.shown)
  if resolution.isOk then
    let modules := resolution.order.filterMap registry.get?
    let (outcomes, installed) := installEach config values [] resolved modules
    let report : InstallReport := ⟨resolution, outcomes⟩
    match remember config now registry report installed with
    | (.error fault, after) => (.error fault, after)
    | (.ok (), after) => (.ok report, after.tell (report.shown config.statePath))
  else
    (.ok ⟨resolution, []⟩,
      resolved.tell [.error "Installation aborted: resolve the problems above and try again."])

end Install

end Scaffold
