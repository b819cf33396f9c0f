import Scaffold.Project.Layout
import Scaffold.Module.Basic
import Scaffold.Text.Blank
import Scaffold.Schema.Basic

/-!
# Project context

What a run knows: facts about the project, the parameter values of each module, the module whose
blueprint is running, the layout, the environment, and the element of the current repetition.
References name single values of it; `lookup` says what a reference stands for.
-/

namespace Scaffold

/-! ## Facts about the project, and the tokens that name them -/

/-- Facts about a project. -/
structure ProjectMetadata where
  name : String
  root : Path
  framework : String
  description : String
  author : String
  version : String
  license : String

namespace ProjectMetadata

/-- Reads metadata; only the name must be given. -/
def ofEntries (schema : Schema) (entries : Entries) : Checked ProjectMetadata :=
  ProjectMetadata.mk <$> schema.required entries "name" schema.nonemptyText
    <*> schema.optional entries ["root"] (Path.ofText ".") schema.path
    <*> schema.optional entries ["framework"] "" schema.text
    <*> schema.optional entries ["description"] "" schema.text
    <*> schema.optional entries ["author"] "" schema.text
    <*> schema.optional entries ["version"] "0.1.0" schema.text
    <*> schema.optional entries ["license"] "MIT" schema.text

/-- The value of a token; `path` is another word for the root. -/
def token (metadata : ProjectMetadata) (key : String) : Option String :=
  if key == "root" || key == "path" then some metadata.root.text
  else if key == "name" then some metadata.name
  else if key == "framework" then some metadata.framework
  else if key == "description" then some metadata.description
  else if key == "author" then some metadata.author
  else if key == "version" then some metadata.version
  else if key == "license" then some metadata.license
  else none

/-- The facts under their names, in order. -/
def fields (metadata : ProjectMetadata) : List (String × String) :=
  [("name", metadata.name), ("root", metadata.root.text), ("framework", metadata.framework),
   ("description", metadata.description), ("author", metadata.author),
   ("version", metadata.version), ("license", metadata.license)]

end ProjectMetadata

/-! ## Contexts -/

/-- What references find inside of a value that is no mapping: the attributes that the language gives
it.  Which there are is no matter of this program. -/
structure Attributes where
  /-- What a path of names leads to. -/
  find? : Value → List String → Option Value
  /-- No attribute has an empty name. -/
  unnamed : ∀ value rest, find? value ("" :: rest) = none

/-- Values without attributes. -/
def Attributes.none : Attributes := ⟨fun _ _ => .none, fun _ _ => rfl⟩

/-- The state of one run. -/
structure Context where
  project : ProjectMetadata
  /-- The values supplied for each module id. -/
  parameters : List (String × Entries)
  /-- The module whose blueprint is running. -/
  current : Option Module
  layout : Option ProjectLayout
  env : List (String × String)
  /-- The element that a repeated action is applied to. -/
  item : Option Value
  attributes : Attributes

namespace Context

/-- Environment variables that every reference may use. -/
def envDefaults : List (String × String) := [("NODE_ENV", "development"), ("USER", "user")]

/-- The variables of the process that a run may see. -/
def visibleEnv (environment : List (String × String)) : List (String × String) :=
  envDefaults.filterMap fun known =>
    (environment.lookup known.1).map fun value => (known.1, value)

/-- The values supplied for a module id. -/
def supplied (context : Context) (id : String) : Entries := (context.parameters.lookup id).getD []

/-- Puts the values of a module id: at its place if it is present, else at the end. -/
def putValues : List (String × Entries) → String → Entries → List (String × Entries)
  | [], id, values => [(id, values)]
  | (present, old) :: rest, id, values =>
    if present == id then (present, values) :: rest else (present, old) :: putValues rest id values

/-- Makes a module current and lays values over those supplied for it before. -/
def enter (context : Context) (descriptor : Module) (values : Entries) : Context :=
  { context with
    parameters := putValues context.parameters descriptor.id
      (Entries.overlay (context.supplied descriptor.id) values)
    current := some descriptor }

/-- The context of one element of a repetition. -/
def withItem (context : Context) (element : Value) : Context := { context with item := some element }

/-- The values of a module's parameters: what was supplied and is not null, over the defaults. -/
def valuesFor (context : Context) (descriptor : Module) : Entries :=
  Entries.overlay descriptor.defaults
    ((context.supplied descriptor.id).filter fun entry => !entry.2.isNull)

/-- The values of the current module's parameters. -/
def moduleParameters (context : Context) : Entries :=
  match context.current with
  | none => []
  | some descriptor => context.valuesFor descriptor

/-- The part that a sequence of names leads to: in a mapping by its entries, in any other value by its
attributes. -/
def dig (attributes : Attributes) : Value → List String → Option Value
  | value, [] => some value
  | .mapping entries, name :: rest =>
    (Entries.field? entries name).bind fun part => dig attributes part rest
  | value, name :: rest => attributes.find? value (name :: rest)

/-- The text before the first dot and the text after it. -/
def splitDot (reference : String) : String × String :=
  let (head, rest) := Text.partitionAt '.' reference.toList
  (String.ofList head, String.ofList rest)

/-- The start of references to parameters. -/
def parameterStart : String := "module.parameters."

/-- The name behind the start of a reference to a parameter. -/
def parameterName? (reference : String) : Option String :=
  if Text.startsWith reference parameterStart then
    some (String.ofList (reference.toList.drop parameterStart.length))
  else none

/-- What a parameter of the current module stands for.  A declared parameter without a value is found
and null. -/
def parameter? (context : Context) (name : String) : Option Value :=
  match context.current with
  | none => none
  | some descriptor =>
    let (key, nested) := splitDot name
    match Entries.field? (context.valuesFor descriptor) key with
    | some value => if nested.isEmpty then some value
        else dig context.attributes value (Text.splitOnChar '.' nested)
    | none =>
      if nested.isEmpty && (descriptor.parameter? key).isSome then some .null else none

/-- What a fact about the current module stands for. -/
def moduleFact? (descriptor : Module) (name : String) : Option String :=
  if name == "category" then some descriptor.category.name
  else if name == "id" then some descriptor.id
  else if name == "name" then some descriptor.name
  else if name == "version" then some descriptor.version
  else if name == "description" then some descriptor.description
  else none

/-- What an environment variable stands for. -/
def envValue? (context : Context) (name : String) : Option String :=
  context.env.lookup name <|> envDefaults.lookup name

/-- What a reference stands for. -/
def lookup (context : Context) (reference : String) : Option Value :=
  let (head, rest) := splitDot reference
  if head == "paths" && !rest.isEmpty then
    (context.layout.bind fun layout => layout.get? rest).map Value.text
  else if head == "project" && !rest.isEmpty then (context.project.token rest).map Value.text
  else
    match parameterName? reference with
    | some name => context.parameter? name
    | none =>
      if head == "module" && !rest.isEmpty then
        (context.current.bind fun descriptor => moduleFact? descriptor rest).map Value.text
      else if reference == "framework" then some (.text context.project.framework)
      else if head == "env" && !rest.isEmpty then (context.envValue? rest).map Value.text
      else if head == "item" then
        context.item.bind fun element =>
          if rest.isEmpty then some element
          else dig context.attributes element (Text.splitOnChar '.' rest)
      else none

/-- What a selector with blanks around it stands for. -/
def select (context : Context) (selector : String) : Option Value :=
  context.lookup (Text.trimmed selector)

/-- A mapping of texts. -/
def textEntries (pairs : List (String × String)) : Value :=
  .record (pairs.map fun pair => (pair.1, .text pair.2))

/-- The facts about the current module. -/
def moduleFacts (context : Context) : Value :=
  match context.current with
  | none => .mapping []
  | some descriptor =>
    textEntries [("id", descriptor.id), ("name", descriptor.displayName),
      ("category", descriptor.category.name), ("version", descriptor.version)]

/-- The whole context as named values, for template files. -/
def facts (context : Context) : List (String × Value) :=
  [("project", textEntries (context.project.fields ++ [("path", context.project.root.text)])),
   ("module", context.moduleFacts),
   ("params", .mapping context.moduleParameters),
   ("item", context.item.getD .null),
   ("paths", textEntries ((context.layout.map ProjectLayout.paths).getD [])),
   ("env", textEntries context.env),
   ("framework", .text context.project.framework)]

end Context

end Scaffold
