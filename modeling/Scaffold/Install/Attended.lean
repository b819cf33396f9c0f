import Scaffold.Execution.Scope
import Scaffold.Install.Run

/-!
# Installing under a console

An installation as the program makes it.  Lines that are shown are markup, and the ids and names of modules
stand in them as they are.  What a console makes of markup is no part of this program: it may refuse a line
(`Console`), and that ends the installation where it stands.  The lines of blueprints and of commands are
markup around texts that are escaped, and are shown as they come.
-/

namespace Scaffold

/-- A console shows a thing, or refuses it with a message. -/
abbrev Console := Shown → Except String Unit

namespace Console

/-- Whether a console shows all that was told. -/
def Shows (console : Console) (told : List Shown) : Prop := ∀ line ∈ told, console line = .ok ()

/-- Shows lines, up to the first that is refused. -/
def present (console : Console) (workspace : Workspace) : List Shown → Except String Unit × Workspace
  | [] => (.ok (), workspace)
  | line :: rest =>
    match console line with
    | .error message => (.error message, workspace)
    | .ok () => present console (workspace.tell [line]) rest

end Console

/-- Why an installation ends without a report. -/
inductive InstallFault where
  | state (fault : StateFault)
  /-- The console refuses a line. -/
  | console (message : String)
  /-- A blueprint is broken off. -/
  | action (fault : ActionFault)

/-- The wording of a fault. -/
def InstallFault.message : InstallFault → String
  | .state fault => fault.message
  | .console message => message
  | .action fault => fault.message

/-- A part of an installation: it reads and changes the session.  A fault breaks it off; what it changed
before stays changed. -/
abbrev Attended (Answer : Type) := EStateM InstallFault Session Answer

namespace Attended

variable {Answer : Type}

/-- Shows lines. -/
def tell (console : Console) (lines : List Shown) : Attended Unit := fun session =>
  match console.present session.workspace lines with
  | (.ok (), workspace) => .ok () { session with workspace }
  | (.error message, workspace) => .error (.console message) { session with workspace }

/-- What may be a fault of the state. -/
def ofState (answer : Except StateFault Answer) : Attended Answer :=
  MonadExcept.ofExcept (answer.mapError .state)

/-- Runs a blueprint. -/
def execute (options : RunOptions) (actions : List Action) : Attended Report := fun session =>
  match Step.run options actions ⟨session.context, session.workspace⟩ with
  | .ok report scope => .ok report ⟨scope.context, scope.workspace⟩
  | .error fault scope => .error (.action fault) ⟨scope.context, scope.workspace⟩

/-- Runs the blueprint of a module with values for its parameters. -/
def runModule (console : Console) (config : Config) (descriptor : Module) (values : Entries) :
    Attended Report := do
  tell console (Shown.sectionHeading ("Installing " ++ descriptor.displayName))
  modify fun session => { session with context := session.context.enter descriptor values }
  execute ⟨config.skipInstall, config.verbose⟩ descriptor.blueprint

/-- Installs a module, unless something stands against it. -/
def installModule (console : Console) (config : Config) (values : List (String × Entries))
    (done : ModuleOutcomes) (descriptor : Module) : Attended ModuleOutcome := do
  let supplied := (values.lookup descriptor.id).getD []
  match Install.blockers done descriptor, descriptor.missingRequired supplied with
  | [], [] => return .ran (← runModule console config descriptor supplied)
  | [], missing => return .incomplete missing
  | dependencies, _ => return .blocked dependencies

/-- Installs modules in order; `done` holds the outcomes so far. -/
def installEach (console : Console) (config : Config) (values : List (String × Entries))
    (done : ModuleOutcomes) : List Module → Attended ModuleOutcomes
  | [] => return done
  | descriptor :: rest => do
    let outcome ← installModule console config values done descriptor
    tell console (Install.notes descriptor.id outcome)
    let recorded := done ++ [(descriptor.id, outcome)]
    if outcome.isFailed && !config.continueOnFailure then
      return recorded ++ rest.map fun unseen => (unseen.id, .unreached)
    else installEach console config values recorded rest

/-- Saves a state. -/
def save (config : Config) (state : InstallState) : Attended Unit := fun session =>
  let (saved, written) := state.save session.workspace.tree config.statePath
  ofState saved { session with workspace := { session.workspace with tree := written } }

/-- Remembers an installation. -/
def remember (console : Console) (config : Config) (now : String) (registry : Registry)
    (report : InstallReport) : Attended Unit := do
  let session ← get
  let (loaded, shown) := InstallState.load session.workspace.tree config.statePath
  tell console shown
  let next ← ofState (loaded.bind fun state => state.after now registry session.context report)
  save config next

/-- Installs the requested modules, and those they need, at a time.  A request that cannot be resolved
changes nothing. -/
def run (console : Console) (config : Config) (registry : Registry) (now : String)
    (requested : List String) (values : List (String × Entries)) : Attended InstallReport := do
  let resolution := registry.resolve requested
  tell console (Shown.sectionHeading "Resolving modules" ++ resolution.shown)
  if resolution.isOk then
    let outcomes ← installEach console config values [] (resolution.order.filterMap registry.get?)
    let report : InstallReport := ⟨resolution, outcomes⟩
    remember console config now registry report
    tell console (report.shown config.statePath)
    return report
  else
    tell console [.error "Installation aborted: resolve the problems above and try again."]
    return ⟨resolution, []⟩

end Attended

end Scaffold
