import Scaffold.Module.Basic
import Scaffold.Action.Schema
import Scaffold.Text.Blank

/-!
# Reading manifests

A manifest describes one module.  Unknown fields are ignored; every other mismatch is reported with its
place.
-/

namespace Scaffold

/-- Why data is no manifest. -/
inductive ManifestFault where
  | notMapping (kind : String)
  | invalid (issues : List Issue)

/-- The wording of a fault. -/
def ManifestFault.message : ManifestFault → String
  | .notMapping kind => "manifest must be a mapping, got " ++ kind
  | .invalid issues =>
    "invalid manifest (" ++ String.intercalate "; " (issues.map Issue.text) ++ ")"

namespace Module

variable (schema : Schema)

/-- An id: a text that is not blank, without blanks around it. -/
def idText (value : Value) : Checked String :=
  (schema.nonemptyText value).andThen fun written =>
    let trimmed := Text.trimmed written
    if trimmed.isEmpty then schema.rejected "module id must not be blank" else .accepted trimmed

/-- A parameter. -/
def parameterOfValue : Value → Checked Parameter :=
  schema.record "ParameterSpec" fun entries =>
    Parameter.mk <$> schema.requiredText entries "name"
      <*> schema.optional entries ["description"] "" schema.text
      <*> schema.optional entries ["default"] .null .accepted
      <*> schema.optional entries ["required"] false schema.boolean

/-- The categories by name. -/
def categoryOptions : List (String × ModuleCategory) :=
  ModuleCategory.all.map fun category => (category.name, category)

/-- The fields of a manifest. -/
def ofEntries (entries : Entries) : Checked Module :=
  Module.mk <$> schema.required entries "id" (idText schema)
    <*> schema.optional entries ["name"] "" schema.text
    <*> schema.optional entries ["description"] "" schema.text
    <*> schema.optional entries ["category"] .other (schema.oneOf categoryOptions)
    <*> schema.optional entries ["version"] "0.1.0" schema.text
    <*> schema.optional entries ["tags"] [] (schema.listOf schema.text)
    <*> schema.optional entries ["dependencies"] [] (schema.listOf schema.text)
    <*> schema.optional entries ["conflicts"] [] (schema.listOf schema.text)
    <*> schema.optional entries ["parameters"] [] (schema.listOf (parameterOfValue schema))
    <*> schema.optional entries ["blueprint"] [] (Action.listOfValue schema)
    <*> schema.optional entries ["source_dir"] none (schema.orNull schema.path)

/-- Reads a manifest.  A folder that is given replaces one that the manifest names. -/
def ofManifest (data : Value) (sourceDir : Option Path) : Except ManifestFault Module :=
  match data with
  | .mapping entries =>
    let payload := match sourceDir with
      | none => entries
      | some folder => Entries.insert entries (.text "source_dir") (.text folder.text)
    (ofEntries schema payload).toExcept.mapError .invalid
  | value => .error (.notMapping value.kindName)

end Module

end Scaffold
