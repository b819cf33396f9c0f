import Scaffold.Modifier.Fault
import Scaffold.Text.Search

/-!
# Merging into an object of a file

Properties are merged into the object at a key path of a structured file.  Missing objects on the way are
made; a value on the way that is no object is a fault.
-/

namespace Scaffold.ObjectMerge

/-- How the properties meet the object. -/
inductive Style where
  | deep
  | shallow
  | replace
  deriving DecidableEq, Repr

/-- The styles by name. -/
def styles : List (String × Style) := [("deep", .deep), ("shallow", .shallow), ("replace", .replace)]

/-- The object after the properties are merged into it. -/
def Style.combine : Style → Entries → Entries → Entries
  | .deep, object, properties => deepMerge object properties
  | .shallow, object, properties => Entries.overlay object properties
  | .replace, _, properties => properties

/-- The keys of a target: a list of non-empty texts, or a text with dots between them. -/
def targetKeys? : Value → Option (List String)
  | .text dotted => some ((Text.splitOnChar '.' dotted).filter fun key => !key.isEmpty)
  | .list items => items.mapM fun item =>
      match item with
      | .text key => if key.isEmpty then none else some key
      | _ => none
  | _ => none

/-- Changes the object at a key path.  `before` are the keys that lead to the given object. -/
def updateAt (change : Entries → Entries) (before : List String) :
    List String → Entries → Except ModifierFault Entries
  | [], object => .ok (change object)
  | key :: rest, object => do
    let child ← match Entries.field? object key with
      | none => pure []
      | some .null => pure []
      | some (.mapping entries) => pure entries
      | some _ => throw (.notObject (String.intercalate "." (before ++ [key])))
    let changed ← updateAt change (before ++ [key]) rest child
    return Entries.insert object (.text key) (.mapping changed)

/-- The content after the merge. -/
def run (content : String) (arguments : Entries) : Except ModifierFault String := do
  let target := (argument? arguments ["target_path", "targetPath"]).getD (.list [])
  let some keys := targetKeys? target | throw .targetNotKeys
  let some (.mapping properties) := argument? arguments ["properties", "propertiesToMerge"]
    | throw .propertiesNotMapping
  let named := (argument? arguments ["strategy", "mergeStrategy"]).getD (.text "deep")
  let style ← match named with
    | .text name =>
      match styles.lookup name with
      | some style => pure style
      | none => throw (.unknownStrategy named.inspect)
    | _ => throw (.unknownStrategy named.inspect)
  let object ← (parseStructured content).mapError .notStructured
  let merged ← updateAt (fun inner => style.combine inner properties) [] keys object
  (dumpStructured merged).mapError .unwritable

end Scaffold.ObjectMerge
