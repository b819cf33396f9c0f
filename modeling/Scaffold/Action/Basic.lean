import Scaffold.Value.Basic
import Scaffold.Merge.Strategy

/-!
# Actions

The steps of a blueprint.  Every action may have a condition and may be repeated for the elements of a
collection; what it does is one of a closed set of kinds.
-/

namespace Scaffold

/-- The kinds of actions. -/
inductive ActionKind where
  | installPackages
  | addScript
  | addEnvVar
  | createFile
  | appendToFile
  | prependToFile
  | runCommand
  | mergeJson
  | mergeConfig
  | extendSchema
  | enhanceFile
  deriving DecidableEq, Repr

namespace ActionKind

/-- The kinds in order. -/
def all : List ActionKind :=
  [.installPackages, .addScript, .addEnvVar, .createFile, .appendToFile, .prependToFile, .runCommand,
   .mergeJson, .mergeConfig, .extendSchema, .enhanceFile]

/-- The written name of a kind. -/
def name : ActionKind → String
  | .installPackages => "INSTALL_PACKAGES"
  | .addScript => "ADD_SCRIPT"
  | .addEnvVar => "ADD_ENV_VAR"
  | .createFile => "CREATE_FILE"
  | .appendToFile => "APPEND_TO_FILE"
  | .prependToFile => "PREPEND_TO_FILE"
  | .runCommand => "RUN_COMMAND"
  | .mergeJson => "MERGE_JSON"
  | .mergeConfig => "MERGE_CONFIG"
  | .extendSchema => "EXTEND_SCHEMA"
  | .enhanceFile => "ENHANCE_FILE"

/-- The kind with a written name. -/
def ofName? (name : String) : Option ActionKind := all.find? fun kind => kind.name == name

theorem ofName?_name (kind : ActionKind) : ofName? kind.name = some kind := by
  cases kind <;> decide

end ActionKind

/-- Where the content of a new file comes from. -/
inductive FileSource where
  | content (text : String)
  | template (path : String)
  deriving DecidableEq, Repr

/-- What is merged into a JSON file. -/
inductive JsonPayload where
  | mapping (entries : Entries)
  /-- A template for a JSON text. -/
  | template (text : String)

/-- A table appended to a schema file. -/
structure SchemaTable where
  name : String
  definition : String
  deriving DecidableEq, Repr

/-- What to do when the file to be changed is missing, or the modifier is unknown. -/
inductive Fallback where
  | error
  | skip
  | create
  deriving DecidableEq, Repr

/-- The written name of a fallback. -/
def Fallback.name : Fallback → String
  | .error => "error"
  | .skip => "skip"
  | .create => "create"

/-- What an action does. -/
inductive Operation where
  | installPackages (packages : List String) (dev : Bool)
  | addScript (name command : String)
  | addEnvVar (key value : String) (description path : Option String)
  | createFile (path : String) (source : FileSource) (overwrite : Bool) (merge : Option MergeStrategy)
  | appendToFile (path content : String)
  | prependToFile (path content : String)
  | runCommand (command : String) (workingDir : Option String)
  | mergeJson (path : String) (content : JsonPayload)
  | mergeConfig (path : String) (config : Entries) (mode : MergeMode)
  | extendSchema (path : String) (tables : List SchemaTable) (imports : List String)
  | enhanceFile (path modifier : String) (params : Entries) (fallback : Fallback)

/-- A step of a blueprint. -/
structure Action where
  condition : Option String
  forEach : Option String
  operation : Operation

namespace Operation

/-- The kind of an operation. -/
def kind : Operation → ActionKind
  | installPackages .. => .installPackages
  | addScript .. => .addScript
  | addEnvVar .. => .addEnvVar
  | createFile .. => .createFile
  | appendToFile .. => .appendToFile
  | prependToFile .. => .prependToFile
  | runCommand .. => .runCommand
  | mergeJson .. => .mergeJson
  | mergeConfig .. => .mergeConfig
  | extendSchema .. => .extendSchema
  | enhanceFile .. => .enhanceFile

/-- The unrendered path of the file that an operation names, if it names one. -/
def target : Operation → Option String
  | addEnvVar _ _ _ path => path
  | createFile path .. => some path
  | appendToFile path _ => some path
  | prependToFile path _ => some path
  | mergeJson path _ => some path
  | mergeConfig path .. => some path
  | extendSchema path .. => some path
  | enhanceFile path .. => some path
  | _ => none

/-- The fields that belong to the kind of an operation, each under its full name. -/
def fields : Operation → List (String × Value)
  | installPackages packages dev => [("packages", .texts packages), ("dev", .bool dev)]
  | addScript name command => [("name", .text name), ("command", .text command)]
  | addEnvVar key value description path =>
    [("key", .text key), ("value", .text value), ("description", .optionalText description),
     ("path", .optionalText path)]
  | createFile path source overwrite merge =>
    let (content, template) := match source with
      | .content given => (Value.text given, Value.null)
      | .template given => (Value.null, Value.text given)
    [("path", .text path), ("content", content), ("template", template), ("overwrite", .bool overwrite),
     ("merge", .optionalText (merge.map MergeStrategy.name))]
  | appendToFile path content => [("path", .text path), ("content", .text content)]
  | prependToFile path content => [("path", .text path), ("content", .text content)]
  | runCommand command workingDir =>
    [("command", .text command), ("working_dir", .optionalText workingDir)]
  | mergeJson path content =>
    let payload := match content with
      | .mapping entries => Value.mapping entries
      | .template given => Value.text given
    [("path", .text path), ("content", payload)]
  | mergeConfig path config mode =>
    [("path", .text path), ("config", .mapping config), ("strategy", .text mode.name)]
  | extendSchema path tables imports =>
    [("path", .text path),
     ("tables", .list (tables.map fun table =>
        .record [("name", .text table.name), ("definition", .text table.definition)])),
     ("imports", .texts imports)]
  | enhanceFile path modifier params fallback =>
    [("path", .text path), ("modifier", .text modifier), ("params", .mapping params),
     ("fallback", .text fallback.name)]

end Operation

namespace Action

/-- The kind of an action. -/
def kind (action : Action) : ActionKind := action.operation.kind

/-- The full form of an action: its kind, the file that it names, and every field under its full name,
defaults filled in. -/
def toValue (action : Action) : Value :=
  .record
    ([("kind", .text action.kind.name), ("target", .optionalText action.operation.target),
      ("condition", .optionalText action.condition),
      ("for_each", .optionalText action.forEach), ("type", .text action.kind.name)]
      ++ action.operation.fields)

end Action

end Scaffold
