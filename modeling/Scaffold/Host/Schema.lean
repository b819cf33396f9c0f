import Scaffold.Schema.Basic
import Scaffold.Text.Blank

/-!
# Checks of fields

The checks with which the program is run, and how they word what does not fit.
-/

namespace Scaffold.Host

/-- What is wrong with a piece of data. -/
inductive Mismatch where
  | required
  | unexpected
  | text
  | list
  | mapping
  /-- A record is wanted, which may also be given as an instance of the named kind. -/
  | record (kind : String)
  /-- A JSON object is wanted. -/
  | object
  /-- The text is no JSON. -/
  | invalidJson (reason : String)
  /-- A record with a tag is wanted. -/
  | taggedRecord
  | boolean
  | booleanWord
  | integer
  | integerText
  | integerFraction
  | integerSize
  | finiteNumber
  | path
  | keyText
  | atLeast (bound : Int)
  | emptyText
  | emptyList
  | choice (options : List String)
  | missingTag (field : String)
  | unknownTag (tag field : String) (options : List String)
  /-- A condition on the whole that has its own wording. -/
  | rejected (reason : String)
  deriving DecidableEq, Repr

/-- Alternatives in quotes, the last one behind `or`. -/
def orList (options : List String) : String :=
  let quotedOptions := options.map fun option => "'" ++ option ++ "'"
  match quotedOptions.reverse with
  | [] => ""
  | [only] => only
  | last :: before => String.intercalate ", " before.reverse ++ " or " ++ last

/-- The wording of a mismatch. -/
def Mismatch.message : Mismatch → String
  | .required => "Field required"
  | .unexpected => "Extra inputs are not permitted"
  | .text => "Input should be a valid string"
  | .list => "Input should be a valid list"
  | .mapping => "Input should be a valid dictionary"
  | .record kind => "Input should be a valid dictionary or instance of " ++ kind
  | .object => "Input should be an object"
  | .invalidJson reason => "Invalid JSON: " ++ reason
  | .taggedRecord => "Input should be a valid dictionary or object to extract fields from"
  | .boolean => "Input should be a valid boolean"
  | .booleanWord => "Input should be a valid boolean, unable to interpret input"
  | .integer => "Input should be a valid integer"
  | .integerText => "Input should be a valid integer, unable to parse string as an integer"
  | .integerFraction => "Input should be a valid integer, got a number with a fractional part"
  | .integerSize => "Unable to parse input string as an integer, exceeded maximum size"
  | .finiteNumber => "Input should be a finite number"
  | .path => "Input is not a valid path for <class 'pathlib.Path'>"
  | .keyText => "Keys should be strings"
  | .atLeast bound => "Input should be greater than or equal to " ++ Decimal.intText bound
  | .emptyText => "String should have at least 1 character"
  | .emptyList => "List should have at least 1 item after validation, not 0"
  | .choice options => "Input should be " ++ orList options
  | .missingTag field => "Unable to extract tag using discriminator '" ++ field ++ "'"
  | .unknownTag tag field options =>
    "Input tag '" ++ tag ++ "' found using '" ++ field ++ "' does not match any of the expected tags: "
      ++ String.intercalate ", " (options.map fun option => "'" ++ option ++ "'")
  | .rejected reason => "Value error, " ++ reason

/-- A check that does not fit. -/
def refuse {α : Type} (mismatch : Mismatch) : Checked α := .fail mismatch.message

/-- The checks of a list, their issues in order. -/
def allOf {α : Type} : List (Checked α) → Checked (List α)
  | [] => .accepted []
  | check :: rest => List.cons <$> check <*> allOf rest

/-- The checks of the items of a list, each under its position. -/
def allUnder {α : Type} (start : Nat) : List (Checked α) → Checked (List α)
  | [] => .accepted []
  | check :: rest =>
    List.cons <$> check.under (Decimal.intText start) <*> allUnder (start + 1) rest

/-- A text. -/
def text : Value → Checked String
  | .text value => .accepted value
  | _ => refuse .text

/-- A text with at least one character. -/
def nonemptyText (value : Value) : Checked String :=
  (text value).andThen fun content => if content.isEmpty then refuse .emptyText else .accepted content

/-- Something, or nothing. -/
def orNull {α : Type} (check : Value → Checked α) : Value → Checked (Option α)
  | .null => .accepted none
  | value => some <$> check value

/-- A list whose items pass a check. -/
def listOf {α : Type} (item : Value → Checked α) : Value → Checked (List α)
  | .list items => allUnder 0 (items.map item)
  | _ => refuse .list

/-- A list with at least one item. -/
def nonemptyListOf {α : Type} (item : Value → Checked α) (value : Value) : Checked (List α) :=
  (listOf item value).andThen fun items =>
    if items.isEmpty then refuse .emptyList else .accepted items

/-- The place of an entry whose key is no text; a truth value counts as a number there. -/
def keyPlace : Scalar → String
  | .bool value => if value then "1" else "0"
  | key => key.inspect

/-- A mapping with text keys and any values. -/
def mapping : Value → Checked Entries
  | .mapping entries =>
    (allOf (entries.map fun entry =>
      match entry.1 with
      | .text _ => Checked.accepted entry
      | key => ((refuse Mismatch.text).under "[key]").under (keyPlace key)))
  | _ => refuse .mapping

/-- A mapping with text keys, or else a text.  When neither fits, both reasons are given. -/
def mappingOrText : Value → Checked (Entries ⊕ String)
  | .text given => .accepted (.inr given)
  | value =>
    match mapping value with
    | .accepted entries => .accepted (.inl entries)
    | .refused first others =>
      ((Checked.refused first others).under "dict[str,any]").followedBy ((refuse .text).under "str")

/-- The size that a double precision number stays below when it stands for an integer. -/
def floatBound : Nat := 9223372036854775808

/-- The words for true. -/
def trueWords : List String := ["1", "t", "y", "on", "yes", "true"]

/-- The words for false. -/
def falseWords : List String := ["0", "f", "n", "no", "off", "false"]

/-- A truth value, or a word or number that stands for one. -/
def boolean : Value → Checked Bool
  | .bool value => .accepted value
  | .text word =>
    let lower := String.ofList (word.toList.map Char.toLower)
    if falseWords.contains lower then .accepted false
    else if trueWords.contains lower then .accepted true
    else refuse .booleanWord
  | .int number =>
    if number == 0 then .accepted false
    else if number == 1 then .accepted true
    else refuse .booleanWord
  | .float number =>
    match number.toInt? with
    | some 0 => .accepted false
    | some 1 => .accepted true
    | some whole => refuse (if whole.natAbs < floatBound then .booleanWord else .boolean)
    | none => refuse .boolean
  | _ => refuse .boolean

/-- One of several words. -/
def oneOf {α : Type} (options : List (String × α)) : Value → Checked α
  | .text word =>
    match options.lookup word with
    | some meant => .accepted meant
    | none => refuse (.choice (options.map (·.1)))
  | _ => refuse (.choice (options.map (·.1)))

/-- A path. -/
def path : Value → Checked Path
  | .text written => .accepted (Path.ofText written)
  | _ => refuse .path

/-- The value of a field under the first of its names that is present, with that name. -/
def findField (entries : Entries) (names : List String) : Option (String × Value) :=
  names.findSome? fun name => (entries.field? name).map fun value => (name, value)

/-- A field that must be present. -/
def required {α : Type} (entries : Entries) (name : String) (check : Value → Checked α) : Checked α :=
  match entries.field? name with
  | some value => (check value).under name
  | none => (refuse .required).under name

/-- A field with several names that may be absent. -/
def optional {α : Type} (entries : Entries) (names : List String) (missing : α)
    (check : Value → Checked α) : Checked α :=
  match findField entries names with
  | some (name, value) => (check value).under name
  | none => .accepted missing

/-- The names that are in use: of each field the first name that is present. -/
def usedNames (entries : Entries) (fields : List (List String)) : List String :=
  fields.filterMap fun names => (findField entries names).map (·.1)

/-- Refuses every entry that is no field under the name that is in use, in order. -/
def onlyFields (entries : Entries) (fields : List (List String)) : Checked Unit :=
  (fun _ => ()) <$> allOf (entries.map fun entry =>
    match entry.1 with
    | .text name =>
      if (usedNames entries fields).contains name then Checked.accepted ()
      else (refuse .unexpected).under name
    | key => (refuse .keyText).under (keyPlace key))

/-- A record; `mismatch` tells how anything else is reported. -/
def record {α : Type} (mismatch : Mismatch) (check : Entries → Checked α) : Value → Checked α
  | .mapping entries => check entries
  | _ => refuse mismatch

/-- A record whose kind is told by a field. -/
def tagged {κ α : Type} (field : String) (kinds : List (String × κ)) (check : κ → Entries → Checked α) :
    Value → Checked α
  | .mapping entries =>
    match Entries.field? entries field with
    | none => refuse (.missingTag field)
    | some (.text word) =>
      match kinds.lookup word with
      | some kind => (check kind entries).under word
      | none => refuse (.unknownTag word field (kinds.map (·.1)))
    | some tag => refuse (.unknownTag tag.display field (kinds.map (·.1)))
  | _ => refuse .taggedRecord

/-- An integer behind a text, zeros behind a point aside. -/
def integerOfText? (text : List Char) : Option Int :=
  let trimmed := Text.trim text
  let whole := trimmed.takeWhile (· != '.')
  if ((trimmed.drop whole.length).drop 1).all (· == '0') then
    Decimal.readInteger? Text.asciiDigit? whole
  else none

/-- An integer, or a value that stands for one. -/
def integer : Value → Checked Int
  | .int number => .accepted number
  | .bool flag => .accepted (if flag then 1 else 0)
  | .float number =>
    match number.toInt?, number with
    | some whole, _ =>
      if whole.natAbs < floatBound then .accepted whole else refuse .integerSize
    | none, .finite _ _ => refuse .integerFraction
    | none, _ => refuse .finiteNumber
  | .text content =>
    match integerOfText? content.toList with
    | some number => .accepted number
    | none => refuse .integerText
  | _ => refuse .integer

/-- An integer that is not below a bound. -/
def integerFrom (bound : Int) (value : Value) : Checked Int :=
  (integer value).andThen fun number =>
    if number < bound then refuse (.atLeast bound) else .accepted number

/-- The checks; `notRecord` tells how a value that is no record is reported. -/
def schemaWith (notRecord : String → Mismatch) : Schema where
  text
  nonemptyText
  boolean
  integerFrom
  path
  orNull
  mapping
  mappingOrText
  oneOf
  listOf
  nonemptyListOf
  record name := record (notRecord name)
  tagged
  required
  optional
  onlyFields
  rejected reason := refuse (.rejected reason)

/-- The checks of values. -/
def schema : Schema := schemaWith .record

/-- The checks of what was read as JSON. -/
def jsonSchema : Schema := schemaWith fun _ => .object

end Scaffold.Host
