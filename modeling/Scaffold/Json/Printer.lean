import Scaffold.Json.Token
import Scaffold.Value.Display
import Scaffold.Text.Quoted

/-!
# Writing JSON

A printer that is total on all values, and the check that says which values have a JSON form at all.
Only `"`, `\` and the control characters below the space are escaped.  Keys that are no texts are
written as the text of their JSON form.

A document with a lone half of a character is no text that a file can hold (`encoded`); it is printed with
the replacement character in place of its lone halves.
-/

namespace Scaffold.Json

open Scaffold.Decimal

/-- Lone halves in a row: the number of characters before them, the code of the first one, and how many
follow it. -/
structure Lost where
  position : Nat
  code : Nat
  others : Nat
  deriving DecidableEq, Repr

/-- The first lone halves of a torn text. -/
def Lost.inText (torn : TornText) : Lost :=
  let isHalf (piece : Piece) : Bool :=
    match piece with
    | .half _ => true
    | .whole _ => false
  ⟨torn.before.length, torn.half.code, (torn.rest.takeWhile isHalf).length⟩

/-- The wording that names the halves. -/
def Lost.message (lost : Lost) : String :=
  let place :=
    if lost.others == 0 then
      "character '" ++ String.ofList ('\\' :: 'u' :: Text.hexDigits 4 lost.code) ++ "' in position "
        ++ intText lost.position
    else "characters in position " ++ intText lost.position ++ "-" ++ intText (lost.position + lost.others)
  "'utf-8' codec can't encode " ++ place ++ ": surrogates not allowed"

/-- Why a value has no JSON form. -/
inductive WriteFault where
  /-- A key is a date. -/
  | key (kind : String)
  /-- A date stands where no plain text may take its place. -/
  | value (kind : String)
  /-- An integer has more digits than are ever written. -/
  | longInteger
  /-- The document has lone halves.  That shows only when it is encoded into its file. -/
  | unencodable (lost : Lost)
  deriving DecidableEq, Repr

/-- The wording of a fault. -/
def WriteFault.message : WriteFault → String
  | .key kind => "keys must be str, int, float, bool or None, not " ++ kind
  | .value kind => "Object of type " ++ kind ++ " is not JSON serializable"
  | .longInteger =>
    "Exceeds the limit (4300 digits) for integer string conversion; use sys.set_int_max_str_digits() "
      ++ "to increase the limit"
  | .unencodable lost => lost.message

/-- Whether a fault shows only when the file is open, and empty. -/
def WriteFault.isLate : WriteFault → Bool
  | .unencodable _ => true
  | _ => false

/-- The layout of a document. -/
structure Layout where
  /-- The spaces of one level, or none for a document on one line. -/
  indent : Option Nat
  itemSeparator : List Char
  keySeparator : List Char
  deriving Repr

/-- One line without spaces. -/
def Layout.compact : Layout := ⟨none, [','], [':']⟩

/-- One line with spaces after the separators. -/
def Layout.spaced : Layout := ⟨none, [',', ' '], [':', ' ']⟩

/-- A line for every item, two spaces a level. -/
def Layout.tree : Layout := ⟨some 2, [','], [':', ' ']⟩

/-- One character of a text. -/
def escapeChar (c : Char) : List Char :=
  if c == '"' then ['\\', '"']
  else if c == '\\' then ['\\', '\\']
  else if c == '\n' then ['\\', 'n']
  else if c == '\r' then ['\\', 'r']
  else if c == '\t' then ['\\', 't']
  else if c == '\x0c' then ['\\', 'f']
  else if c == '\x08' then ['\\', 'b']
  else if c.toNat < 0x20 then ['\\', 'u'] ++ Text.hexDigits 4 c.toNat
  else [c]

/-- A text between double quotes. -/
def printText (text : String) : List Char := '"' :: text.toList.flatMap escapeChar ++ ['"']

/-- A scalar in its JSON form; a date is written as its text. -/
def printScalar : Scalar → List Char
  | .null => "null".toList
  | .bool value => if value then "true".toList else "false".toList
  | .int value => (intText value).toList
  | .float value => (FloatNotation.json.write value).toList
  | .text value => printText value
  | .torn value => printText (value.filled '\ufffd')
  | .moment value => printText value.text

/-- A key: texts as they are, other scalars as the text of their JSON form. -/
def printKey : Scalar → List Char
  | .text name => printText name
  | .torn name => printText (name.filled '\ufffd')
  | .moment value => printText value.text
  | key => printText (String.ofList (printScalar key))

/-- The start of a line at a depth; nothing in a one-line document. -/
def Layout.newLine (layout : Layout) (depth : Nat) : List Char :=
  match layout.indent with
  | none => []
  | some width => '\n' :: List.replicate (width * depth) ' '

mutual

/-- A value at a depth. -/
def print (layout : Layout) : Nat → Value → List Char
  | _, .scalar content => printScalar content
  | _, .list [] => ['[', ']']
  | depth, .list (item :: rest) =>
    '[' :: layout.newLine (depth + 1) ++ print layout (depth + 1) item
      ++ printItems layout (depth + 1) rest ++ layout.newLine depth ++ [']']
  | _, .mapping [] => ['\x7b', '\x7d']
  | depth, .mapping ((key, value) :: rest) =>
    '\x7b' :: layout.newLine (depth + 1) ++ printKey key ++ layout.keySeparator
      ++ print layout (depth + 1) value ++ printEntries layout (depth + 1) rest
      ++ layout.newLine depth ++ ['\x7d']
termination_by structural _ value => value

/-- The items after the first, each behind its separator. -/
def printItems (layout : Layout) : Nat → List Value → List Char
  | _, [] => []
  | depth, item :: rest =>
    layout.itemSeparator ++ layout.newLine depth ++ print layout depth item
      ++ printItems layout depth rest
termination_by structural _ items => items

/-- The entries after the first, each behind its separator. -/
def printEntries (layout : Layout) : Nat → List (Scalar × Value) → List Char
  | _, [] => []
  | depth, (key, value) :: rest =>
    layout.itemSeparator ++ layout.newLine depth ++ printKey key ++ layout.keySeparator
      ++ print layout depth value ++ printEntries layout depth rest
termination_by structural _ entries => entries

end

/-- Whether an integer has more digits than are ever written. -/
def isLong (value : Int) : Bool := Nat.pow 10 maxDigits ≤ value.natAbs

/-- Why a scalar is no key. -/
def keyFault? : Scalar → Option WriteFault
  | .moment value => some (.key (Value.moment value).kindName)
  | .int value => if isLong value then some .longInteger else none
  | _ => none

mutual

/-- The first part, in document order, that has no JSON form.  With `plainDates` a date is no fault as
a value, only as a key. -/
def writeFault? (plainDates : Bool) : Value → Option WriteFault
  | .moment value => if plainDates then none else some (.value (Value.moment value).kindName)
  | .int value => if isLong value then some .longInteger else none
  | .scalar _ => none
  | .list items => writeFaultItems? plainDates items
  | .mapping entries => writeFaultEntries? plainDates entries
termination_by structural value => value

/-- The first fault of a list of values. -/
def writeFaultItems? (plainDates : Bool) : List Value → Option WriteFault
  | [] => none
  | item :: rest => writeFault? plainDates item <|> writeFaultItems? plainDates rest
termination_by structural items => items

/-- The first fault of a list of entries; a key comes before its value. -/
def writeFaultEntries? (plainDates : Bool) : List (Scalar × Value) → Option WriteFault
  | [] => none
  | (key, value) :: rest =>
    keyFault? key <|> writeFault? plainDates value <|> writeFaultEntries? plainDates rest
termination_by structural entries => entries

end

/-- The number of places at which two texts begin alike. -/
def commonLength : List Char → List Char → Nat
  | first :: rest, second :: others => if first == second then commonLength rest others + 1 else 0
  | _, _ => 0

/-- The number of places at which two texts begin unlike. -/
def unlikeLength : List Char → List Char → Nat
  | first :: rest, second :: others => if first == second then 0 else unlikeLength rest others + 1
  | _, _ => 0

/-- The first lone halves of a document: two prints with different characters in place of lone halves differ
first where the first of them stands. -/
def Lost.inDocument (layout : Layout) (value : Value) (first : Half) : Lost :=
  let one := print layout 0 (value.filled 'a')
  let other := print layout 0 (value.filled 'b')
  let position := commonLength one other
  ⟨position, first.code, unlikeLength (one.drop position) (other.drop position) - 1⟩

/-- A document as the text of a file. -/
def encoded (layout : Layout) (value : Value) : Except WriteFault String :=
  match value.half? with
  | some first => .error (.unencodable (.inDocument layout value first))
  | none => .ok (String.ofList (print layout 0 value))

/-- A document in which dates are written as plain texts. -/
def write (layout : Layout) (value : Value) : Except WriteFault String :=
  match writeFault? true value with
  | some fault => .error fault
  | none => encoded layout value

/-- A document that may hold no dates. -/
def writeStrict (layout : Layout) (value : Value) : Except WriteFault String :=
  match writeFault? false value with
  | some fault => .error fault
  | none => encoded layout value

/-- A character of a document in ASCII: any other one is written as its UTF-16 code units. -/
def asciiChar (c : Char) : List Char :=
  let code := c.toNat
  if code < 0x7f then [c]
  else if code < 0x10000 then '\\' :: 'u' :: Text.hexDigits 4 code
  else
    let rest := code - 0x10000
    '\\' :: 'u' :: Text.hexDigits 4 (0xD800 + rest / 0x400) ++ '\\' :: 'u'
      :: Text.hexDigits 4 (0xDC00 + rest % 0x400)

/-- A document on one line in ASCII. -/
def printAscii (value : Value) : String := String.ofList ((print .compact 0 value).flatMap asciiChar)

end Scaffold.Json
