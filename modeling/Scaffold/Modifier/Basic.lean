import Scaffold.Modifier.ObjectMerge
import Scaffold.Modifier.ExportWrap

/-!
# Modifiers

A modifier makes a new content from the content of a file and its arguments.
-/

namespace Scaffold

/-- Turns the content of a file into its new content. -/
abbrev Modifier := String → Entries → Except ModifierFault String

namespace Modifier

/-- The modifiers by name. -/
def known : List (String × Modifier) :=
  [("json-object-merger", ObjectMerge.run), ("ts-import-adder", ImportAdd.run),
   ("export-wrapper", ExportWrap.run)]

/-- The modifier of a name. -/
def named (name : String) : Except ModifierFault Modifier :=
  match known.lookup name with
  | some modifier => .ok modifier
  | none => .error (.unknownModifier name)

end Modifier

end Scaffold
