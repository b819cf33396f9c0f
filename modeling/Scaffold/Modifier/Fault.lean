import Scaffold.Merge.Structured

/-!
# Faults of modifiers

Why a modifier cannot transform a text, or is no modifier at all.
-/

namespace Scaffold

/-- Why a modifier has no result. -/
inductive ModifierFault where
  | unknownModifier (name : String)
  | targetNotKeys
  | propertiesNotMapping
  | unknownStrategy (shown : String)
  | notStructured (fault : StructuredFault)
  | notObject (location : String)
  | importsNotList
  | importNotMapping
  | importWithoutModule
  | wrapperNotText
  | noDefaultExport
  /-- The name for the default export or for the whole source is no text. -/
  | nameNotText (kind : String)
  /-- The names to add to a list are no collection. -/
  | namesNotCollection (kind : String)
  /-- The names of a new statement are no collection. -/
  | namesNotJoined
  /-- One of several names is no text. -/
  | nameInList (position : Nat) (kind : String)
  | unwritable (fault : Json.WriteFault)
  deriving DecidableEq, Repr

/-- The names of the modifiers, in alphabetical order. -/
def modifierNames : List String := ["export-wrapper", "json-object-merger", "ts-import-adder"]

/-- The wording of a fault. -/
def ModifierFault.message : ModifierFault → String
  | .unknownModifier name =>
    "Unknown modifier '" ++ name ++ "' (available: " ++ String.intercalate ", " modifierNames ++ ")"
  | .targetNotKeys => "json-object-merger: 'target_path' must be a list of keys"
  | .propertiesNotMapping => "json-object-merger: 'properties' must be a mapping"
  | .unknownStrategy shown => "json-object-merger: unknown strategy " ++ shown
  | .notStructured fault =>
    match fault with
    | .longNumber _ => fault.message
    | _ => "json-object-merger input: " ++ fault.message
  | .notObject location => "json-object-merger: '" ++ location ++ "' is not an object"
  | .importsNotList => "ts-import-adder: 'imports' must be a list"
  | .importNotMapping => "ts-import-adder: each import must be a mapping"
  | .importWithoutModule => "ts-import-adder: every import needs a 'module'"
  | .wrapperNotText => "export-wrapper: 'wrapper' must be a non-empty string"
  | .noDefaultExport => "export-wrapper: no default export expression found"
  | .nameNotText kind => "decoding to str: need a bytes-like object, " ++ kind ++ " found"
  | .namesNotCollection kind => "'" ++ kind ++ "' object is not iterable"
  | .namesNotJoined => "can only join an iterable"
  | .nameInList position kind =>
    "sequence item " ++ Decimal.intText position ++ ": expected str instance, " ++ kind ++ " found"
  | .unwritable fault => fault.message

/-- The fault of a text that is there but has lone halves. -/
def ModifierFault.lateFault? : ModifierFault → Option Json.WriteFault
  | .unwritable fault => if fault.isLate then some fault else none
  | _ => none

/-- The value of an argument under the first of its names that is present. -/
def argument? (arguments : Entries) (names : List String) : Option Value :=
  names.findSome? fun name => Entries.field? arguments name

/-- Whether a value is neither nothing, false, zero nor empty. -/
def Value.isFilled : Value → Bool
  | .null => false
  | .bool value => value
  | .int value => value != 0
  | .float value => !value.isZero
  | .text value => !value.isEmpty
  | .torn _ => true
  | .moment _ => true
  | .list items => !items.isEmpty
  | .mapping entries => !entries.isEmpty

/-- The argument under the first of its names that is present, if it is filled. -/
def filled? (arguments : Entries) (names : List String) : Option Value :=
  (argument? arguments names).filter Value.isFilled

end Scaffold
