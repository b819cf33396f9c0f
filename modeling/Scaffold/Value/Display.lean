import Scaffold.Value.Basic
import Scaffold.Text.Quoted

/-!
# Values in plain text

A scalar is shown as itself; inside a list or a mapping texts are quoted and dates are shown in their
constructor form.
-/

namespace Scaffold

open Scaffold.Decimal

namespace TornText

/-- A lone half as an escape. -/
def escapeHalf (lone : Half) : List Char := '\\' :: 'u' :: Text.hexDigits 4 lone.code

/-- A part of a torn text: its characters as a rule shows them, lone halves as escapes. -/
def showPiece (rule : Char → List Char) : Piece → List Char
  | .whole c => rule c
  | .half lone => escapeHalf lone

/-- The characters of a torn text. -/
def characters (torn : TornText) : List Char :=
  torn.pieces.filterMap fun piece =>
    match piece with
    | .whole c => some c
    | .half _ => none

/-- A torn text between quotes. -/
def quoted (torn : TornText) : String :=
  let mark := Text.quoteFor torn.characters
  String.ofList (mark :: torn.pieces.flatMap (showPiece (Text.quotedChar mark)) ++ [mark])

/-- A torn text on its own. -/
def display (torn : TornText) : String := String.ofList (torn.pieces.flatMap (showPiece ([·])))

end TornText

/-- A scalar as it appears inside a collection. -/
def Scalar.inspect : Scalar → String
  | .null => "None"
  | .bool value => if value then "True" else "False"
  | .int value => intText value
  | .float value => FloatNotation.plain.write value
  | .text value => Text.quoted value
  | .torn value => value.quoted
  | .moment value => value.inspect

/-- A scalar on its own. -/
def Scalar.display : Scalar → String
  | .text value => value
  | .torn value => value.display
  | .moment value => value.text
  | scalar => scalar.inspect

mutual

/-- A value as it appears inside a collection. -/
def Value.inspect : Value → String
  | .scalar content => content.inspect
  | .list items => "[" ++ String.intercalate ", " (inspectItems items) ++ "]"
  | .mapping entries => "\x7b" ++ String.intercalate ", " (inspectEntries entries) ++ "\x7d"
termination_by structural value => value

/-- The items of a list, each as it appears inside it. -/
def inspectItems : List Value → List String
  | [] => []
  | item :: rest => item.inspect :: inspectItems rest
termination_by structural items => items

/-- The entries of a mapping, each as key and value. -/
def inspectEntries : List (Scalar × Value) → List String
  | [] => []
  | (key, value) :: rest => (key.inspect ++ ": " ++ value.inspect) :: inspectEntries rest
termination_by structural entries => entries

end

/-- A value on its own. -/
def Value.display : Value → String
  | .scalar content => content.display
  | value => value.inspect

/-- The word for the kind of a value. -/
def Value.kindName : Value → String
  | .null => "NoneType"
  | .bool _ => "bool"
  | .int _ => "int"
  | .float _ => "float"
  | .text _ => "str"
  | .torn _ => "str"
  | .moment value => if value.time.isSome then "datetime" else "date"
  | .list _ => "list"
  | .mapping _ => "dict"

/-- The word for the kind of a value that does not fit where it is used; of a date it names the family
too. -/
def Value.operandKind : Value → String
  | .moment value => "datetime." ++ (Value.moment value).kindName
  | value => value.kindName

end Scaffold
