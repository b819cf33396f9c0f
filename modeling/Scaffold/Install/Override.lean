import Scaffold.Project.Context
import Scaffold.Document

/-!
# Parameter overrides

A parameter value may be given as a text `module.key=value`, whose value is read as a document: `true`,
`3` and `[a, b]` are a truth value, a number and a list.  What is no document is taken as it stands.
-/

namespace Scaffold

/-- A value for a parameter of a module. -/
structure Override where
  moduleId : String
  key : String
  value : Value

/-- Why a text is no override. -/
inductive OverrideFault where
  | malformed (text : String)
  /-- The value cannot be read. -/
  | value (fault : DocumentFault)

/-- The wording of a fault. -/
def OverrideFault.message : OverrideFault → String
  | .malformed text => "Expected module.key=value, got " ++ Text.quoted text
  | .value fault => fault.message

namespace Override

/-- The module, the key and the written value of an override. -/
def split? (text : List Char) : Option (List Char × List Char × List Char) :=
  match Text.cutAt? ['='] text with
  | none => none
  | some (target, written) =>
    match Text.cutAt? ['.'] target with
    | none => none
    | some (moduleId, key) =>
      if moduleId.isEmpty || key.isEmpty then none else some (moduleId, key, written)

/-- The value that is written. -/
def valueOf (documents : Documents) (written : List Char) : Except OverrideFault Value :=
  if written.isEmpty then .ok (.text "")
  else
    match documents (String.ofList written) with
    | .ok value => .ok value
    | .error (.malformed _) => .ok (.text (String.ofList written))
    | .error fault => .error (.value fault)

/-- Reads an override. -/
def ofText (documents : Documents) (text : String) : Except OverrideFault Override :=
  match split? text.toList with
  | none => .error (.malformed text)
  | some (moduleId, key, written) =>
    (valueOf documents written).map fun value =>
      ⟨String.ofList moduleId, String.ofList key, value⟩

/-- Adds an override to values by module. -/
def addTo (values : List (String × Entries)) (override : Override) : List (String × Entries) :=
  Context.putValues values override.moduleId
    (Entries.insert ((values.lookup override.moduleId).getD []) (.text override.key) override.value)

/-- The values by module of several overrides; of repeated keys the last value counts. -/
def collect (documents : Documents) (texts : List String) :
    Except OverrideFault (List (String × Entries)) := do
  let overrides ← texts.mapM (ofText documents)
  return overrides.foldl addTo []

end Override

end Scaffold
