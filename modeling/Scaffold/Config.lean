import Scaffold.Decimal.Text
import Scaffold.Json.Printer
import Scaffold.Json.Reader
import Scaffold.Package.Manager
import Scaffold.Schema.Basic
import Scaffold.Text.Blank
import Scaffold.Text.Case
import Scaffold.Tree.Basic

/-!
# Configuration

The settings of a run, read from data, from a JSON file or from environment variables.
-/

namespace Scaffold

/-- Settings of external commands. -/
structure RunnerConfig where
  /-- The package manager; none to detect it from lock files. -/
  packageManager : Option PackageManager
  /-- The seconds that a command may take, at least one. -/
  timeout : Int
  deriving DecidableEq, Repr

/-- The settings of a run. -/
structure Config where
  registryDir : Path
  projectRoot : Path
  skipInstall : Bool
  continueOnFailure : Bool
  verbose : Bool
  stateDir : String
  runner : RunnerConfig
  deriving DecidableEq, Repr

namespace RunnerConfig

/-- The settings when nothing is given. -/
def default : RunnerConfig := ⟨none, 300⟩

/-- The choices of a package manager by name. -/
def managerOptions : List (String × Option PackageManager) :=
  ("auto", none) :: [PackageManager.npm, .pnpm, .yarn, .bun].map fun manager =>
    (manager.name, some manager)

/-- The written name of a choice. -/
def managerName : Option PackageManager → String
  | none => "auto"
  | some manager => manager.name

/-- Reads settings from the entries of a mapping. -/
def ofEntries (schema : Schema) (entries : Entries) : Checked RunnerConfig :=
  RunnerConfig.mk <$> schema.optional entries ["package_manager"] none (schema.oneOf managerOptions)
    <*> schema.optional entries ["command_timeout"] 300 (schema.integerFrom 1)

end RunnerConfig

namespace Config

/-- Reads settings from the entries of a mapping. -/
def ofEntries (schema : Schema) (entries : Entries) : Checked Config :=
  Config.mk <$> schema.optional entries ["registry_dir"] (Path.ofText "./modules") schema.path
    <*> schema.optional entries ["project_root"] (Path.ofText ".") schema.path
    <*> schema.optional entries ["skip_install"] false schema.boolean
    <*> schema.optional entries ["continue_on_failure"] false schema.boolean
    <*> schema.optional entries ["verbose"] false schema.boolean
    <*> schema.optional entries ["state_dir"] ".stackforge" schema.text
    <*> schema.optional entries ["runner"] RunnerConfig.default
      (schema.record "RunnerConfig" (RunnerConfig.ofEntries schema))

/-- Reads settings from data. -/
def ofValue (schema : Schema) : Value → Checked Config := schema.record "Config" (ofEntries schema)

/-- The settings as data, for writing. -/
def toValue (config : Config) : Value :=
  .record [("registry_dir", .text config.registryDir.text),
    ("project_root", .text config.projectRoot.text),
    ("skip_install", .bool config.skipInstall),
    ("continue_on_failure", .bool config.continueOnFailure),
    ("verbose", .bool config.verbose),
    ("state_dir", .text config.stateDir),
    ("runner", .record
      [("package_manager", .text (RunnerConfig.managerName config.runner.packageManager)),
       ("command_timeout", .int config.runner.timeout)])]

/-- The folder of the state files. -/
def stateFolder (config : Config) : Path := config.projectRoot.child config.stateDir

/-- The file that remembers what was installed. -/
def statePath (config : Config) : Path := config.stateFolder.child "install-state.json"

/-- Why environment variables give no settings. -/
inductive EnvFault where
  | notInteger (text : String)
  | invalid (issues : List Issue)
  deriving DecidableEq, Repr

/-- The wording of a text that is no integer. -/
def notIntegerMessage (text : String) : String :=
  "invalid literal for int() with base 10: " ++ Text.quoted text

/-- Whether a variable says yes. -/
def flag (environment : List (String × String)) (name : String) : Bool :=
  ["1", "true", "yes", "on"].contains
    (Text.lowered (Text.trimmed ((environment.lookup name).getD "")))

/-- The value of a variable that is set and not empty. -/
def setting? (environment : List (String × String)) (name : String) : Option String :=
  (environment.lookup name).filter fun value => !value.isEmpty

/-- The entry for the package manager. -/
def managerEntry (environment : List (String × String)) : Entries :=
  match setting? environment "STACKFORGE_PACKAGE_MANAGER" with
  | none => []
  | some name => [(.text "package_manager", .text name)]

/-- The entry for the time limit. -/
def timeoutEntry (environment : List (String × String)) : Except EnvFault Entries :=
  match setting? environment "STACKFORGE_COMMAND_TIMEOUT" with
  | none => .ok []
  | some written =>
    match Decimal.readInteger? Text.decimalDigit? (Text.trim written.toList) with
    | none => .error (.notInteger written)
    | some seconds => .ok [(.text "command_timeout", .int seconds)]

/-- The settings that environment variables give. -/
def ofEnv (schema : Schema) (environment : List (String × String)) : Except EnvFault Config := do
  let timeout ← timeoutEntry environment
  let runner ←
    (RunnerConfig.ofEntries schema (managerEntry environment ++ timeout)).toExcept.mapError .invalid
  let folder (name fallback : String) := Path.ofText ((environment.lookup name).getD fallback)
  return {
    registryDir := folder "STACKFORGE_REGISTRY_DIR" "./modules"
    projectRoot := folder "STACKFORGE_PROJECT_ROOT" "."
    skipInstall := flag environment "STACKFORGE_SKIP_INSTALL"
    continueOnFailure := flag environment "STACKFORGE_CONTINUE_ON_FAILURE"
    verbose := flag environment "STACKFORGE_VERBOSE"
    stateDir := ".stackforge"
    runner }

end Config

end Scaffold

/-! ## Configuration files

Settings are kept as a JSON object.  Reading reports what is wrong with the data in the same way as
reading from other sources.
-/

namespace Scaffold.Config

/-- Where the settings of a project are kept when no other place is given. -/
def defaultFile (config : Config) : Path := config.stateFolder.child "config.json"

/-- Writes settings to a file; the answer is its path. -/
def save (config : Config) (target : Option Path) (tree : Tree) : Except FileError Path × Tree :=
  let path := target.getD config.defaultFile
  match tree.writeBelow path (String.ofList (Json.print .tree 0 config.toValue)) with
  | (.ok (), written) => (.ok path, written)
  | (.error error, grown) => (.error error, grown)

/-- Reads settings from a file, with checks of JSON texts and of what was read from them. -/
def load (schema : Schema) (readJson : String → Checked Value) (tree : Tree) (path : Path) :
    Except Tree.ReadFailure (Checked Config) :=
  (tree.readText path).map fun text => (readJson text).andThen (ofValue schema)

end Scaffold.Config
