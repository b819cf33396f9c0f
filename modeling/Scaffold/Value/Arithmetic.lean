import Scaffold.Value.Display
import Scaffold.Text.Search

/-!
# Arithmetic and comparison of values

The operators of expressions.  Truth values count as one and zero, integers are exact, and an operation
with a double precision operand is carried out in double precision.
-/

namespace Scaffold

open Scaffold.Decimal

/-- Why an operator has no result. -/
inductive OperandFault where
  | mismatch (reason : String)
  | divisionByZero (reason : String)
  deriving DecidableEq, Repr

/-- The wording of a fault. -/
def OperandFault.message : OperandFault → String
  | .mismatch reason => reason
  | .divisionByZero reason => reason

/-- A number: exact, or in double precision. -/
inductive Number where
  | whole (value : Int)
  | double (value : Binary64)
  deriving DecidableEq, Repr

namespace Number

/-- A number in double precision. -/
def toDouble : Number → Binary64
  | .whole value => Binary64.ofInt value
  | .double value => value

/-- A number as a value. -/
def toValue : Number → Value
  | .whole value => .int value
  | .double value => .float value

/-- The number that a value is. -/
def ofValue? : Value → Option Number
  | .bool value => some (.whole (if value then 1 else 0))
  | .int value => some (.whole value)
  | .float value => some (.double value)
  | _ => none

/-- Whether a number is zero. -/
def isZero : Number → Bool
  | .whole value => value == 0
  | .double value => value.isZero

/-- Combines two numbers exactly if both are exact, else in double precision. -/
def combine (exact : Int → Int → Int) (double : Binary64 → Binary64 → Binary64) :
    Number → Number → Number
  | .whole left, .whole right => .whole (exact left right)
  | left, right => .double (double left.toDouble right.toDouble)

/-- The quotient, in double precision. -/
def quotient : Number → Number → Number
  | .whole left, .whole right =>
    .double (Binary64.ofSignedRatio false (left * right.sign) right.natAbs)
  | left, right => .double (left.toDouble.div right.toDouble)

/-- Whether a number is below another. -/
def lt : Number → Number → Bool
  | .whole left, .whole right => left < right
  | left, right => left.toDouble.lt right.toDouble

end Number

namespace Value

mutual

/-- Whether two values are equal; the order of the entries of a mapping does not count. -/
def agrees : Value → Value → Bool
  | .scalar left, other =>
    match other with
    | .scalar right => left.sameKey right
    | _ => false
  | .list left, other =>
    match other with
    | .list right => agreesItems left right
    | _ => false
  | .mapping left, other =>
    match other with
    | .mapping right => left.length == right.length && agreesEntries left right
    | _ => false
termination_by structural value => value

/-- Whether two lists are equal item by item. -/
def agreesItems : List Value → List Value → Bool
  | [], others => others.isEmpty
  | item :: rest, others =>
    match others with
    | other :: more => item.agrees other && agreesItems rest more
    | [] => false
termination_by structural items => items

/-- Whether every entry has an equal one in another mapping. -/
def agreesEntries : List (Scalar × Value) → List (Scalar × Value) → Bool
  | [], _ => true
  | (key, value) :: rest, others =>
    (match Entries.get? others key with
      | some other => value.agrees other
      | none => false) && agreesEntries rest others
termination_by structural entries => entries

end

/-- The fault of an operator that the kinds of its operands do not allow. -/
def unsupported (operator : String) (left right : Value) : OperandFault :=
  .mismatch ("unsupported operand type(s) for " ++ operator ++ ": '" ++ left.operandKind ++ "' and '"
    ++ right.operandKind ++ "'")

/-- Applies an operator on numbers. -/
def arithmetic (operator : String) (apply : Number → Number → Number) (left right : Value) :
    Except OperandFault Value :=
  match Number.ofValue? left, Number.ofValue? right with
  | some first, some second => .ok (apply first second).toValue
  | _, _ => .error (unsupported operator left right)

/-- Applies an operator that divides.  The reasons against a zero are those of exact numbers and of
numbers in double precision. -/
def division (operator exactReason doubleReason : String) (apply : Number → Number → Number)
    (left right : Value) : Except OperandFault Value :=
  match Number.ofValue? left, Number.ofValue? right with
  | some (.whole _), some (.whole 0) => .error (.divisionByZero exactReason)
  | some first, some second =>
    if second.isZero then .error (.divisionByZero doubleReason) else .ok (apply first second).toValue
  | _, _ => .error (unsupported operator left right)

/-- The sum; texts and lists are joined. -/
def add : Value → Value → Except OperandFault Value
  | .text left, .text right => .ok (.text (left ++ right))
  | .text _, right => .error (.mismatch ("can only concatenate str (not \"" ++ right.operandKind
      ++ "\") to str"))
  | .list left, .list right => .ok (.list (left ++ right))
  | .list _, right => .error (.mismatch ("can only concatenate list (not \"" ++ right.operandKind
      ++ "\") to list"))
  | left, right =>
    arithmetic "+" (Number.combine (· + ·) Binary64.add) left right

/-- The difference. -/
def subtract : Value → Value → Except OperandFault Value :=
  arithmetic "-" (Number.combine (· - ·) Binary64.sub)

/-- The product; a text or list times a number is repeated. -/
def multiply : Value → Value → Except OperandFault Value
  | .text left, .int count => .ok (.text (String.join (List.replicate count.toNat left)))
  | .int count, .text right => .ok (.text (String.join (List.replicate count.toNat right)))
  | .list left, .int count => .ok (.list (List.replicate count.toNat left).flatten)
  | .int count, .list right => .ok (.list (List.replicate count.toNat right).flatten)
  | left, right => arithmetic "*" (Number.combine (· * ·) Binary64.mul) left right

/-- The quotient. -/
def divide : Value → Value → Except OperandFault Value :=
  division "/" "division by zero" "float division by zero" Number.quotient

/-- The quotient rounded down. -/
def floorDivide : Value → Value → Except OperandFault Value :=
  division "//" "integer division or modulo by zero" "float floor division by zero"
    (Number.combine Int.fdiv Binary64.floorDiv)

/-- The remainder, with the sign of the divisor. -/
def remainder : Value → Value → Except OperandFault Value :=
  division "%" "integer modulo by zero" "float modulo" (Number.combine Int.fmod Binary64.mod)

/-- Whether a value is below another: numbers by size, texts by code points. -/
def isBelow (operator : String) (left right : Value) : Except OperandFault Bool :=
  match left, right with
  | .text first, .text second => .ok (first < second)
  | _, _ =>
    match Number.ofValue? left, Number.ofValue? right with
    | some first, some second => .ok (first.lt second)
    | _, _ => .error (.mismatch ("'" ++ operator ++ "' not supported between instances of '"
        ++ left.operandKind ++ "' and '" ++ right.operandKind ++ "'"))

/-- Whether a collection holds a value: a list an item, a mapping a key, a text a part. -/
def holds (collection value : Value) : Except OperandFault Bool :=
  match collection, value with
  | .list items, _ => .ok (items.any fun item => item.agrees value)
  | .mapping entries, .scalar key => .ok (Entries.has entries key)
  | .mapping _, other => .error (.mismatch ("unhashable type: '" ++ other.operandKind ++ "'"))
  | .text whole, .text part => .ok (Text.contains whole part)
  | .text _, other => .error (.mismatch ("'in <string>' requires string as left operand, not "
      ++ other.operandKind))
  | other, _ => .error (.mismatch ("argument of type '" ++ other.operandKind ++ "' is not iterable"))

end Value

end Scaffold
