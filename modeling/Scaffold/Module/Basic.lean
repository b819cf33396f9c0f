import Scaffold.Action.Basic

/-!
# Modules

A module is a selectable unit of technology: its identity, the modules it needs or cannot stand beside,
the parameters it accepts and the blueprint that installs it.
-/

namespace Scaffold

/-- The broad category of a module. -/
inductive ModuleCategory where
  | framework
  | database
  | auth
  | ui
  | deployment
  | testing
  | email
  | payment
  | observability
  | state
  | content
  | other
  deriving DecidableEq, Repr

namespace ModuleCategory

/-- The categories in order. -/
def all : List ModuleCategory :=
  [.framework, .database, .auth, .ui, .deployment, .testing, .email, .payment, .observability, .state,
   .content, .other]

/-- The written name of a category. -/
def name : ModuleCategory → String
  | .framework => "framework"
  | .database => "database"
  | .auth => "auth"
  | .ui => "ui"
  | .deployment => "deployment"
  | .testing => "testing"
  | .email => "email"
  | .payment => "payment"
  | .observability => "observability"
  | .state => "state"
  | .content => "content"
  | .other => "other"

/-- The category with a written name. -/
def ofName? (name : String) : Option ModuleCategory := all.find? fun category => category.name == name

theorem ofName?_name (category : ModuleCategory) : ofName? category.name = some category := by
  cases category <;> decide

end ModuleCategory

/-- A parameter that a module accepts.  A default that is null is no default. -/
structure Parameter where
  name : String
  description : String
  default : Value
  isRequired : Bool

namespace Parameter

/-- Whether a value is used when none is supplied. -/
def hasDefault (parameter : Parameter) : Bool := !parameter.default.isNull

/-- A parameter as data. -/
def toValue (parameter : Parameter) : Value :=
  .record [("name", .text parameter.name), ("description", .text parameter.description),
    ("default", parameter.default), ("required", .bool parameter.isRequired)]

end Parameter

/-- A module and its blueprint. -/
structure Module where
  id : String
  name : String
  description : String
  category : ModuleCategory
  version : String
  tags : List String
  dependencies : List String
  conflicts : List String
  parameters : List Parameter
  blueprint : List Action
  /-- The folder of the manifest, where template files are looked up. -/
  sourceDir : Option Path

namespace Module

/-- The name shown to people. -/
def displayName (descriptor : Module) : String :=
  if descriptor.name.isEmpty then descriptor.id else descriptor.name

/-- The parameter of a name; of several the first. -/
def parameter? (descriptor : Module) (name : String) : Option Parameter :=
  descriptor.parameters.find? fun parameter => parameter.name == name

/-- The defaults of the parameters that have one; of a repeated name the last default counts. -/
def defaults (descriptor : Module) : Entries :=
  Entries.ofPairs ((descriptor.parameters.filter Parameter.hasDefault).map fun parameter =>
    (.text parameter.name, parameter.default))

/-- The value of a name is absent or null. -/
def isUnset (values : Entries) (name : String) : Bool :=
  ((values.field? name).map Value.isNull).getD true

/-- The required parameters that have neither a value nor a default. -/
def missingRequired (descriptor : Module) (values : Entries) : List String :=
  (descriptor.parameters.filter fun parameter =>
    parameter.isRequired && isUnset values parameter.name && !parameter.hasDefault).map (·.name)

/-- A module as data, its actions in full form. -/
def toValue (descriptor : Module) : Value :=
  .record [("id", .text descriptor.id), ("name", .text descriptor.name),
    ("description", .text descriptor.description), ("category", .text descriptor.category.name),
    ("version", .text descriptor.version), ("tags", .texts descriptor.tags),
    ("dependencies", .texts descriptor.dependencies), ("conflicts", .texts descriptor.conflicts),
    ("parameters", .list (descriptor.parameters.map Parameter.toValue)),
    ("blueprint", .list (descriptor.blueprint.map Action.toValue)),
    ("source_dir", .optionalText (descriptor.sourceDir.map Path.text))]

end Module

end Scaffold
