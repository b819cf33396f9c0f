import Scaffold.Json.Token

/-!
# Reading JSON

A document is read by a machine with a stack: each token either continues the innermost open collection
or is a fault.  Because the machine takes one token at a time, reading is a fold over the tokens, and it
recurses into nothing.
-/

namespace Scaffold.Json

/-- A collection that is still open. -/
inductive Frame where
  /-- The items read so far, last first. -/
  | items (done : List Value)
  /-- The entries read so far, after a complete entry or before the first. -/
  | entries (done : Entries)
  /-- The entries read so far and the name whose value is next. -/
  | entry (done : Entries) (name : Scalar)

/-- What must come next. -/
inductive Mode where
  | value
  | firstItem
  | firstName
  | name
  | colon (name : Scalar)
  | comma
  | done (value : Value)

/-- The open collections, innermost first, and what must come next. -/
structure Machine where
  stack : List Frame
  mode : Mode

/-- The machine before the first token. -/
def Machine.start : Machine := ⟨[], .value⟩

/-- Hands a complete value to the innermost open collection. -/
def Machine.deliver (stack : List Frame) (value : Value) : Machine :=
  match stack with
  | [] => ⟨[], .done value⟩
  | .items done :: outer => ⟨.items (value :: done) :: outer, .comma⟩
  | .entry done name :: outer => ⟨.entries (done.insert name value) :: outer, .comma⟩
  | .entries done :: outer => ⟨.entries done :: outer, .comma⟩

/-- A fault at the current token, or at a place of its own. -/
structure Misfit where
  fault : Fault
  remaining : Option Nat

/-- A fault at the current token. -/
def misfit (fault : Fault) : Except Misfit Machine := .error ⟨fault, none⟩

/-- A value is next. -/
def Machine.takeValue (stack : List Frame) : Token → Except Misfit Machine
  | .openMapping => .ok ⟨.entries [] :: stack, .firstName⟩
  | .openList => .ok ⟨.items [] :: stack, .firstItem⟩
  | .text content => .ok (deliver stack (.text content))
  | .torn content => .ok (deliver stack (.torn content))
  | .scalar content => .ok (deliver stack (.scalar content))
  | .brokenText fault remaining => .error ⟨fault, some remaining⟩
  | .tooLong digits => misfit (.tooManyDigits digits)
  | _ => misfit .expectedValue

/-- The name of an entry is next. -/
def Machine.takeName (stack : List Frame) : Token → Except Misfit Machine
  | .text name => .ok ⟨stack, .colon (.text name)⟩
  | .torn name => .ok ⟨stack, .colon (.torn name)⟩
  | .brokenText fault remaining => .error ⟨fault, some remaining⟩
  | _ => misfit .expectedName

/-- One token. -/
def Machine.step (machine : Machine) (token : Token) : Except Misfit Machine :=
  match machine.mode, token, machine.stack with
  | .value, _, stack => takeValue stack token
  | .firstItem, .closeList, .items _ :: outer => .ok (deliver outer (.list []))
  | .firstItem, _, stack => takeValue stack token
  | .firstName, .closeMapping, .entries _ :: outer => .ok (deliver outer (.mapping []))
  | .firstName, _, stack => takeName stack token
  | .name, _, stack => takeName stack token
  | .colon name, .colon, .entries done :: outer => .ok ⟨.entry done name :: outer, .value⟩
  | .colon _, _, _ => misfit .expectedColon
  | .comma, .comma, .items done :: outer => .ok ⟨.items done :: outer, .value⟩
  | .comma, .comma, .entries done :: outer => .ok ⟨.entries done :: outer, .name⟩
  | .comma, .closeList, .items done :: outer => .ok (deliver outer (.list done.reverse))
  | .comma, .closeMapping, .entries done :: outer => .ok (deliver outer (.mapping done))
  | .comma, _, _ => misfit .expectedComma
  | .done _, _, _ => misfit .extraData

/-- A fault and the number of characters before its place. -/
structure ReadError where
  fault : Fault
  position : Nat
  deriving DecidableEq, Repr

/-- What is missing when the tokens end. -/
def Machine.finish (machine : Machine) : Except Fault Value :=
  match machine.mode with
  | .done value => .ok value
  | .value | .firstItem => .error .expectedValue
  | .firstName | .name => .error .expectedName
  | .colon _ => .error .expectedColon
  | .comma => .error .expectedComma

/-- Runs the machine over the tokens of a document of a given length. -/
def Machine.run (length : Nat) (machine : Machine) : List Placed → Except ReadError Value
  | [] => machine.finish.mapError fun fault => ⟨fault, length⟩
  | ⟨token, remaining⟩ :: rest =>
    match machine.step token with
    | .ok next => run length next rest
    | .error misfit => .error ⟨misfit.fault, length - misfit.remaining.getD remaining⟩

/-- Reads a document. -/
def parse (text : List Char) : Except ReadError Value :=
  match text with
  | '\ufeff' :: _ => .error ⟨.byteOrderMark, 0⟩
  | _ => Machine.start.run text.length (tokens text)

/-- The line of a position, counted from one. -/
def lineOf (text : List Char) (position : Nat) : Nat := (text.take position).count '\n' + 1

/-- The column of a position, counted from one. -/
def columnOf (text : List Char) (position : Nat) : Nat :=
  ((text.take position).reverse.takeWhile (· != '\n')).length + 1

/-- The wording of a fault. -/
def Fault.message : Fault → String
  | .expectedValue => "Expecting value"
  | .expectedName => "Expecting property name enclosed in double quotes"
  | .expectedColon => "Expecting ':' delimiter"
  | .expectedComma => "Expecting ',' delimiter"
  | .extraData => "Extra data"
  | .unterminatedText => "Unterminated string starting at"
  | .controlCharacter => "Invalid control character at"
  | .unknownEscape => "Invalid \\escape"
  | .badCodeEscape => "Invalid \\uXXXX escape"
  | .byteOrderMark => "Unexpected UTF-8 BOM (decode using utf-8-sig)"
  | .tooManyDigits count =>
    "Exceeds the limit (4300 digits) for integer string conversion: value has "
      ++ Decimal.intText count ++ " digits; use sys.set_int_max_str_digits() to increase the limit"

/-- The wording of an error in a text, with its place. -/
def ReadError.message (error : ReadError) (text : List Char) : String :=
  match error.fault with
  | .tooManyDigits _ => error.fault.message
  | fault =>
    fault.message ++ ": line " ++ Decimal.intText (lineOf text error.position) ++ " column "
      ++ Decimal.intText (columnOf text error.position) ++ " (char "
      ++ Decimal.intText error.position ++ ")"

end Scaffold.Json
