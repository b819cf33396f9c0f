import Scaffold.Action.Basic
import Scaffold.Schema.Basic

/-!
# Reading actions

The shape of each kind of action.  The field `type` decides the kind; each kind accepts its own fields
and the two common ones, and no others.  Some fields have a second name; of two names that are both
given the first counts and the second is unexpected.
-/

namespace Scaffold.Action

/-- The names of the common fields. -/
def conditionNames : List String := ["condition"]

/-- The names under which the repeated collection may be given. -/
def forEachNames : List String := ["for_each", "forEach"]

/-- The names of the fields of a table. -/
def tableNames : List (List String) := [["name"], ["definition"]]

/-- The names of the fields of a kind; each field is a list of names. -/
def fieldNames : ActionKind → List (List String)
  | .installPackages => [["packages"], ["dev", "isDev"]]
  | .addScript => [["name"], ["command"]]
  | .addEnvVar => [["key"], ["value"], ["description"], ["path"]]
  | .createFile => [["path"], ["content"], ["template"], ["overwrite"], ["merge"]]
  | .appendToFile => [["path"], ["content"]]
  | .prependToFile => [["path"], ["content"]]
  | .runCommand => [["command"], ["working_dir", "workingDir"]]
  | .mergeJson => [["path"], ["content"]]
  | .mergeConfig => [["path"], ["config"], ["strategy"]]
  | .extendSchema => [["path"], ["tables"], ["imports"]]
  | .enhanceFile => [["path"], ["modifier"], ["params"], ["fallback"]]

/-- The fallbacks by name. -/
def fallbackOptions : List (String × Fallback) :=
  [("error", .error), ("skip", .skip), ("create", .create)]

/-- The kinds by name. -/
def kindOptions : List (String × ActionKind) := ActionKind.all.map fun kind => (kind.name, kind)

/-- The strategies by name. -/
def strategyOptions : List (String × MergeStrategy) :=
  MergeStrategy.all.map fun strategy => (strategy.name, strategy)

/-- The modes of a merge by name. -/
def modeOptions : List (String × MergeMode) := MergeMode.all.map fun mode => (mode.name, mode)

/-- The payload of a JSON merge. -/
def payloadOf : Entries ⊕ String → JsonPayload
  | .inl entries => .mapping entries
  | .inr text => .template text

/-- The fields of a new file before its source is settled. -/
structure FileDraft where
  path : String
  content : Option String
  template : Option String
  overwrite : Bool
  merge : Option MergeStrategy

variable (schema : Schema)

/-- An environment value: numbers and truth values stand for their text. -/
def envValue : Value → Checked String
  | .bool flag => .accepted (if flag then "true" else "false")
  | .int number => .accepted (Decimal.intText number)
  | .float number => .accepted (Decimal.FloatNotation.plain.write number)
  | value => schema.text value

/-- A table of a schema file. -/
def schemaTable : Value → Checked SchemaTable :=
  schema.record "SchemaTable" fun entries =>
    (SchemaTable.mk <$> schema.requiredText entries "name"
      <*> schema.requiredText entries "definition").followedBy
        (schema.onlyFields entries tableNames)

/-- The source of a new file: exactly one of content and template. -/
def fileSource (content template : Option String) : Checked FileSource :=
  match content, template with
  | none, none => schema.rejected "CREATE_FILE requires 'content' or 'template'"
  | some given, none => .accepted (.content given)
  | none, some given => .accepted (.template given)
  | some _, some _ => schema.rejected "CREATE_FILE accepts only one of 'content' and 'template'"

/-- The operation of a draft. -/
def FileDraft.settle (draft : FileDraft) : Checked Operation :=
  (fun source => Operation.createFile draft.path source draft.overwrite draft.merge)
    <$> fileSource schema draft.content draft.template

/-- The fields of a kind; a new file is settled only when everything else fits. -/
def operationFields (entries : Entries) : ActionKind → Checked (Checked Operation)
  | .installPackages => done <$>
      (Operation.installPackages
        <$> schema.required entries "packages" (schema.nonemptyListOf schema.text)
        <*> schema.optional entries ["dev", "isDev"] false schema.boolean)
  | .addScript => done <$>
      (Operation.addScript <$> schema.requiredText entries "name"
        <*> schema.requiredText entries "command")
  | .addEnvVar => done <$>
      (Operation.addEnvVar <$> schema.requiredText entries "key"
        <*> schema.optional entries ["value"] "" (envValue schema)
        <*> schema.optionalText entries ["description"] <*> schema.optionalText entries ["path"])
  | .createFile => FileDraft.settle schema <$>
      (FileDraft.mk <$> schema.requiredText entries "path" <*> schema.optionalText entries ["content"]
        <*> schema.optionalText entries ["template"]
        <*> schema.optional entries ["overwrite"] true schema.boolean
        <*> schema.optional entries ["merge"] none (schema.orNull (schema.oneOf strategyOptions)))
  | .appendToFile => done <$>
      (Operation.appendToFile <$> schema.requiredText entries "path"
        <*> schema.requiredText entries "content")
  | .prependToFile => done <$>
      (Operation.prependToFile <$> schema.requiredText entries "path"
        <*> schema.requiredText entries "content")
  | .runCommand => done <$>
      (Operation.runCommand <$> schema.requiredText entries "command"
        <*> schema.optionalText entries ["working_dir", "workingDir"])
  | .mergeJson => done <$>
      (Operation.mergeJson <$> schema.requiredText entries "path"
        <*> schema.required entries "content" fun given => payloadOf <$> schema.mappingOrText given)
  | .mergeConfig => done <$>
      (Operation.mergeConfig <$> schema.requiredText entries "path"
        <*> schema.required entries "config" schema.mapping
        <*> schema.optional entries ["strategy"] .deep (schema.oneOf modeOptions))
  | .extendSchema => done <$>
      (Operation.extendSchema <$> schema.requiredText entries "path"
        <*> schema.required entries "tables" (schema.nonemptyListOf (schemaTable schema))
        <*> schema.optional entries ["imports"] [] (schema.listOf schema.text))
  | .enhanceFile => done <$>
      (Operation.enhanceFile <$> schema.requiredText entries "path"
        <*> schema.requiredText entries "modifier"
        <*> schema.optional entries ["params"] [] schema.mapping
        <*> schema.optional entries ["fallback"] .error (schema.oneOf fallbackOptions))
where
  /-- A kind without a further condition on the whole. -/
  done (operation : Operation) : Checked Operation := .accepted operation

/-- The fields of an action of a kind. -/
def allNames (kind : ActionKind) : List (List String) :=
  conditionNames :: forEachNames :: ["type"] :: fieldNames kind

/-- An action of a known kind. -/
def ofEntries (kind : ActionKind) (entries : Entries) : Checked Action :=
  let common := (fun condition forEach => (condition, forEach))
    <$> schema.optionalText entries conditionNames
    <*> schema.optionalText entries forEachNames
  let fields := (fun shared operation => (shared, operation))
    <$> common <*> operationFields schema entries kind
  (fields.followedBy (schema.onlyFields entries (allNames kind))).andThen
    fun (shared, settled) => (fun operation => ⟨shared.1, shared.2, operation⟩) <$> settled

/-- One action. -/
def ofValue : Value → Checked Action := schema.tagged "type" kindOptions (ofEntries schema)

/-- A list of actions. -/
def listOfValue : Value → Checked (List Action) := schema.listOf (ofValue schema)

end Scaffold.Action
