import Scaffold.CommandLine.Arguments
import Scaffold.Install.Attended
import Scaffold.Install.Override
import Scaffold.Registry.Source

/-!
# Running a command line

The modules of a registry are listed or installed into a project.  What the world has to offer is given:
the files, the environment, the answers of commands and of servers, and the time.  So are the libraries that
the program is run with.
-/

namespace Scaffold.CommandLine

/-- What the program leaves to libraries. -/
structure Libraries where
  schema : Schema
  documents : Documents
  attributes : Attributes
  renderings : Renderings
  console : Console

/-- What a command line finds. -/
structure World where
  libraries : Libraries
  environment : List (String × String)
  tree : Tree
  answers : List CommandAnswer
  /-- The answer of the server at an address. -/
  reply : String → Registry.IndexReply
  now : String

/-- Faults that a command line does not report itself. -/
inductive Crash where
  | config (fault : Config.EnvFault)
  | load (fault : LoadFault)
  | override (fault : OverrideFault)
  | file (error : FileError)
  | project (issues : List Issue)
  /-- The console refuses a line. -/
  | console (message : String)
  | install (fault : InstallFault)

/-- The wording of a crash. -/
def Crash.message : Crash → String
  | .config (.notInteger text) => Config.notIntegerMessage text
  | .config (.invalid issues) => String.intercalate "\n" (issues.map Issue.text)
  | .load fault => fault.message
  | .override fault => fault.message
  | .file error => error.message
  | .project issues => String.intercalate "\n" (issues.map Issue.text)
  | .console message => message
  | .install fault => fault.message

/-- How a command line ends. -/
inductive Ending where
  | done
  /-- Help is shown. -/
  | help
  /-- The registry is broken, or an installation did not succeed. -/
  | failed
  | usage (fault : UsageFault)
  | crash (crash : Crash)

/-- The name of the program. -/
def programName : String := "stackforge"

namespace Ending

/-- The exit code, for an ending that sets one. -/
def exitCode? : Ending → Option Nat
  | .done => none
  | .help => some 0
  | .failed => some 1
  | .usage _ => some 2
  | .crash _ => none

/-- The last line of the error output. -/
def lastErrorLine : Ending → String
  | .usage fault =>
    let message := programName ++ ": error: " ++ fault.message
    ((Text.linesOf message).getLast?).getD ""
  | _ => ""

end Ending

/-- What a command line leaves behind. -/
structure Aftermath where
  ending : Ending
  workspace : Workspace

/-- The settings of the environment with those of the command line over them. -/
def settingsOf (arguments : Arguments) (config : Config) : Config :=
  { config with
    registryDir :=
      if arguments.registry.isEmpty then config.registryDir else Path.ofText arguments.registry
    projectRoot :=
      if arguments.project.isEmpty then config.projectRoot else Path.ofText arguments.project
    skipInstall := arguments.skipInstall || config.skipInstall
    continueOnFailure := arguments.continueOnFailure || config.continueOnFailure
    verbose := arguments.verbose || config.verbose }

/-- Where the registry is, as it is written. -/
def sourceOf (arguments : Arguments) (config : Config) : String :=
  if arguments.registry.isEmpty then config.registryDir.text else arguments.registry

/-- Whether a source is an address. -/
def isAddress (source : String) : Bool :=
  Text.startsWith source "http://" || Text.startsWith source "https://"

/-- The registry of a source, and what is shown while it is read. -/
def loadRegistry (world : World) (source : String) : Except LoadFault Registry × List Shown :=
  let libraries := world.libraries
  if isAddress source then
    Registry.ofReply libraries.documents libraries.schema source (world.reply source)
  else Registry.ofFolder libraries.documents libraries.schema world.tree (Path.ofText source)

/-- Whether a module comes before another in a list of all modules: by category, then by id. -/
def listedBefore (first second : Module) : Bool :=
  if first.category.name == second.category.name then decide (first.id ≤ second.id)
  else decide (first.category.name ≤ second.category.name)

/-- The row of a module in a list of all modules. -/
def listedRow (descriptor : Module) : List String :=
  [Markup.escape descriptor.id, descriptor.category.name,
   Markup.escape (String.intercalate ", " descriptor.dependencies),
   Markup.escape (String.intercalate ", " descriptor.conflicts)]

/-- A list of all modules, with their number by category. -/
def listing (registry : Registry) : List Shown :=
  .table "Available modules" ["Id", "Category", "Depends on", "Conflicts with"]
      ((registry.modules.mergeSort listedBefore).map listedRow)
    :: Shown.summaryTable "Statistics"
      (registry.statistics.map fun (name, count) => (name, Decimal.intText count))

/-- Faults of overrides that are reported as wrong usage. -/
def isUsageFault : OverrideFault → Bool
  | .malformed _ => true
  | .value (.value _) => true
  | .value _ => false

/-- How a fault of an override ends a command line. -/
def endingOf (fault : OverrideFault) : Ending :=
  if isUsageFault fault then .usage (.override fault.message) else .crash (.override fault)

/-- The name of a project when none is given: that of the folder where it really is. -/
def folderName (tree : Tree) (root : Path) : String :=
  match tree.resolve root with
  | .ok location => (location.getLast?).getD ""
  | .error _ => root.name

/-- The project that a command line is about. -/
def projectOf (schema : Schema) (arguments : Arguments) (tree : Tree) (root : Path) :
    Except Crash ProjectMetadata :=
  let name := if arguments.name.isEmpty then folderName tree root else arguments.name
  (ProjectMetadata.ofEntries schema
    [(.text "name", .text name), (.text "root", .text root.text),
     (.text "framework", .text arguments.framework)]).toExcept.mapError .project

/-- The context of an installation into a project. -/
def contextOf (world : World) (arguments : Arguments) (tree : Tree) (root : Path) :
    Except Crash Context := do
  let project ← projectOf world.libraries.schema arguments tree root
  let layout ← (ProjectLayout.forProject tree root []).mapError .file
  return ⟨project, [], none, some layout, Context.visibleEnv world.environment, none,
    world.libraries.attributes⟩

/-- Installs modules of a registry. -/
def install (world : World) (arguments : Arguments) (config : Config) (registry : Registry)
    (workspace : Workspace) : Aftermath :=
  match Override.collect world.libraries.documents arguments.params with
  | .error fault => ⟨endingOf fault, workspace⟩
  | .ok values =>
    let (made, tree) := workspace.tree.makeFolders config.projectRoot
    let ready := { workspace with tree }
    match made with
    | .error error => ⟨.crash (.file error), ready⟩
    | .ok () =>
      match contextOf world arguments tree config.projectRoot with
      | .error crash => ⟨.crash crash, ready⟩
      | .ok context =>
        match Attended.run world.libraries.console config registry world.now arguments.modules values
            ⟨context, ready⟩ with
        | .error fault session => ⟨.crash (.install fault), session.workspace⟩
        | .ok report session => ⟨if report.isSuccess then .done else .failed, session.workspace⟩

/-- Shows lines before the end. -/
def showing (world : World) (workspace : Workspace) (lines : List Shown) (ending : Ending) : Aftermath :=
  match world.libraries.console.present workspace lines with
  | (.error message, after) => ⟨.crash (.console message), after⟩
  | (.ok (), after) => ⟨ending, after⟩

/-- Does what the arguments ask for. -/
def serve (world : World) (arguments : Arguments) (config : Config) : Aftermath :=
  let (loaded, shown) := loadRegistry world (sourceOf arguments config)
  let workspace : Workspace :=
    ⟨world.tree, .start config.runner config.verbose world.answers, shown, world.libraries.renderings⟩
  match loaded with
  | .error (.registry fault) =>
    showing world workspace [.error ("Error: " ++ fault.message)] .failed
  | .error fault => ⟨.crash (.load fault), workspace⟩
  | .ok registry =>
    if arguments.list then showing world workspace (listing registry) .done
    else if arguments.modules.isEmpty then ⟨.usage .noModules, workspace⟩
    else install world arguments config registry workspace

/-- Runs a command line. -/
def run (world : World) (words : List String) : Aftermath :=
  let untouched : Workspace :=
    ⟨world.tree, .start .default false world.answers, [], world.libraries.renderings⟩
  match parse words with
  | .error .help => ⟨.help, untouched⟩
  | .error (.fault fault) => ⟨.usage fault, untouched⟩
  | .ok arguments =>
    match Config.ofEnv world.libraries.schema world.environment with
    | .error fault => ⟨.crash (.config fault), untouched⟩
    | .ok config => serve world arguments (settingsOf arguments config)

end Scaffold.CommandLine
