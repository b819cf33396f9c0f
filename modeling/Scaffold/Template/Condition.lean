import Scaffold.Project.Context
import Scaffold.Template.Token
import Scaffold.Text.Case

/-!
# Conditions

A condition is one of the words `true` and `false` or a reference to a parameter of the current module,
optionally written as a tag.  Anything else is false.
-/

namespace Scaffold

/-- The texts that count as false, blanks and letter case aside. -/
def falseTexts : List String := ["", "false", "0"]

/-- Whether a value counts as true. -/
def Value.isTruthy : Value → Bool
  | .null => false
  | .bool value => value
  | .int value => value != 0
  | .float value => !value.isZero
  | .text value => !falseTexts.contains (Text.lowered (Text.trimmed value))
  | .torn _ => true
  | .moment _ => true
  | .list items => !items.isEmpty
  | .mapping entries => !entries.isEmpty

namespace Template

/-- The inside of a text that is written as a tag, trimmed. -/
def tagInside? (text : List Char) : Option (List Char) :=
  let length := tagStart.length + tagEnd.length
  if length < text.length && tagStart.isPrefixOf text && tagEnd.isSuffixOf text then
    some (Text.trim ((text.drop tagStart.length).take (text.length - length)))
  else none

/-- A condition without the tag around it. -/
def unwrapCondition (condition : List Char) : List Char :=
  let trimmed := Text.trim condition
  match tagInside? trimmed with
  | none => trimmed
  | some inside => (conditionOf? inside).getD inside

/-- Whether a condition holds. -/
def holds (condition : List Char) (context : Context) : Bool :=
  let expression := unwrapCondition condition
  if expression == ['t', 'r', 'u', 'e'] then true
  else
    let reference := String.ofList expression
    if (Context.parameterName? reference).isSome && isReference expression then
      ((context.lookup reference).map Value.isTruthy).getD false
    else false

end Template

end Scaffold
