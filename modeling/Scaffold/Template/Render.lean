import Scaffold.Template.Condition
import Scaffold.Template.Node
import Scaffold.Action.Basic
import Scaffold.Json.Printer

/-!
# Rendering templates

References are replaced by the values they stand for; unknown ones stay as they are written, and what is
filled in is not scanned again.  A required parameter without a value is a fault.

Where a template refers to a list, its items are written with spaces between them, or as a list of quoted
items where the text goes to a source file (`formatValue`).
-/

namespace Scaffold.Template

/-- Where rendered text goes. -/
structure Destination where
  /-- The path of the file, or an empty text. -/
  path : String
  /-- The kind of the action that asks for the text. -/
  kind : Option ActionKind
  deriving Repr

/-- The suffixes of source files in which lists are written as list expressions. -/
def sourceSuffixes : List String := [".ts", ".tsx", ".js", ".jsx", ".mjs", ".cjs"]

/-- Whether lists are written as list expressions. -/
def Destination.quotesItems (destination : Destination) : Bool :=
  destination.kind != some .runCommand
    && sourceSuffixes.contains (Path.ofText destination.path).suffix

/-- A single value.  A text with a lone half of a character is refused: no file takes it. -/
def formatItem : Value → Except Json.WriteFault String
  | .null => .ok ""
  | .bool value => .ok (if value then "true" else "false")
  | .torn value => .error (.unencodable (.inText value))
  | .mapping entries => Json.write .compact (.mapping entries)
  | value => .ok value.display

/-- A value. -/
def formatValue (destination : Destination) : Value → Except Json.WriteFault String
  | .list items => do
    let texts ← items.mapM formatItem
    if destination.quotesItems then
      return "[" ++ String.intercalate ", " (texts.map fun text => "'" ++ text ++ "'") ++ "]"
    else return String.intercalate " " texts
  | value => formatItem value

/-- Why a template has no rendered form. -/
inductive RenderFault where
  | missingParameter (parameter module : String)
  | unwritable (fault : Json.WriteFault)
  deriving DecidableEq, Repr

/-- The wording of a fault. -/
def RenderFault.message : RenderFault → String
  | .missingParameter parameter module =>
    "Required parameter '" ++ parameter ++ "' of module '" ++ module ++ "' has no value"
  | .unwritable fault => fault.message

/-- The parameter of the current module that a reference names. -/
def namedParameter? (context : Context) (reference : String) : Option (Parameter × Module) := do
  let name ← Context.parameterName? reference
  let descriptor ← context.current
  let parameter ← descriptor.parameter? (Context.splitDot name).1
  return (parameter, descriptor)

/-- Refuses a reference to a required parameter that has neither a value nor a default. -/
def checkRequired (context : Context) (reference : String) : Except RenderFault Unit :=
  match namedParameter? context reference with
  | some (parameter, descriptor) =>
    if parameter.isRequired && !parameter.hasDefault then
      .error (.missingParameter parameter.name descriptor.id)
    else .ok ()
  | none => .ok ()

/-- A leaf. -/
def renderLeaf (context : Context) (destination : Destination) :
    Leaf → Except RenderFault (List Char)
  | .text raw => .ok raw
  | .variable reference raw => do
    let name := String.ofList reference
    let found := context.lookup name
    if (found.map Value.isNull).getD true then checkRequired context name
    match found with
    | none => return raw
    | some value => return (← (formatValue destination value).mapError .unwritable).toList

/-- Leaves in order. -/
def renderLeaves (context : Context) (destination : Destination) :
    List Leaf → Except RenderFault (List Char)
  | [] => .ok []
  | leaf :: rest =>
    return (← renderLeaf context destination leaf) ++ (← renderLeaves context destination rest)

/-- A node; a block whose condition does not hold is left out. -/
def renderNode (context : Context) (destination : Destination) :
    Node → Except RenderFault (List Char)
  | .leaf leaf => renderLeaf context destination leaf
  | .conditional condition _ body =>
    if holds condition context then renderLeaves context destination body else .ok []

/-- Nodes in order. -/
def renderNodes (context : Context) (destination : Destination) :
    List Node → Except RenderFault (List Char)
  | [] => .ok []
  | node :: rest =>
    return (← renderNode context destination node) ++ (← renderNodes context destination rest)

/-- A template. -/
def render (context : Context) (destination : Destination) (template : List Char) :
    Except RenderFault (List Char) :=
  renderNodes context destination (parse template)

/-- `render` on strings. -/
def renderText (context : Context) (destination : Destination) (template : String) :
    Except RenderFault String :=
  (render context destination template.toList).map String.ofList

mutual

/-- Renders every text inside a value; keys are left alone. -/
def renderData (context : Context) (destination : Destination) : Value → Except RenderFault Value
  | .text template => (renderText context destination template).map Value.text
  | .scalar content => .ok (.scalar content)
  | .list items => (renderItems context destination items).map Value.list
  | .mapping entries => (renderEntries context destination entries).map Value.mapping
termination_by structural value => value

/-- The items of a list. -/
def renderItems (context : Context) (destination : Destination) :
    List Value → Except RenderFault (List Value)
  | [] => .ok []
  | item :: rest =>
    return (← renderData context destination item) :: (← renderItems context destination rest)
termination_by structural items => items

/-- The entries of a mapping. -/
def renderEntries (context : Context) (destination : Destination) :
    List (Scalar × Value) → Except RenderFault Entries
  | [] => .ok []
  | (key, value) :: rest =>
    return (key, ← renderData context destination value)
      :: (← renderEntries context destination rest)
termination_by structural entries => entries

end

end Scaffold.Template
