import Scaffold.Modifier.Fault
import Scaffold.Host.Stencil.Expr
import Scaffold.Text.CaseStyle
import Scaffold.Value.Arithmetic

/-!
# Evaluating expressions of template files

An unknown name stands for nothing: it is written as no text, counts as false and as an empty collection,
and has no parts; any other use of it is a fault.
-/

namespace Scaffold.Host.Stencil

/-- What an expression stands for. -/
inductive Datum where
  | present (value : Value)
  | absent
  deriving Repr, Inhabited

namespace Datum

/-- The written form. -/
def display : Datum → String
  | .present value => value.display
  | .absent => ""

/-- Whether it counts as true. -/
def isFilled : Datum → Bool
  | .present value => value.isFilled
  | .absent => false

/-- The value, which must be there. -/
def demand : Datum → Except Fault Value
  | .present value => .ok value
  | .absent => .error .broken

/-- A truth value. -/
def ofBool (value : Bool) : Datum := .present (.bool value)

/-- A text. -/
def ofText (value : String) : Datum := .present (.text value)

end Datum

/-- The fault of an operator as a fault of a template. -/
def operandFault : OperandFault → Fault
  | .mismatch reason => .operands reason
  | .divisionByZero reason => .divisionByZero reason

/-- The names that an expression may use. -/
structure Scope where
  names : List (String × Datum)
  /-- What the block has in the file that is extended. -/
  inherited : Option (Except Fault String)

/-- Gives a name a value. -/
def Scope.assign (scope : Scope) (name : String) (datum : Datum) : Scope :=
  { scope with names := (name, datum) :: scope.names }

/-- The items of a value: those of a list, the keys of a mapping, the characters of a text. -/
def itemsOf : Datum → Except Fault (List Value)
  | .absent => .ok []
  | .present (.list items) => .ok items
  | .present (.mapping entries) => .ok (entries.map fun entry => Value.scalar entry.1)
  | .present (.text content) =>
    .ok (content.toList.map fun c => Value.text (String.singleton c))
  | .present value => .error (.operands ("'" ++ value.operandKind ++ "' object is not iterable"))

/-- The number of items of a value. -/
def sizeOf : Datum → Except Fault Int
  | .absent => .ok 0
  | .present (.list items) => .ok items.length
  | .present (.mapping entries) => .ok entries.length
  | .present (.text content) => .ok content.length
  | .present value => .error (.operands ("object of type '" ++ value.operandKind ++ "' has no len()"))

/-- The text that a filter of names works on. -/
def nameText (reason : String → Fault) : Datum → Except Fault (List Char)
  | .absent => .error .broken
  | .present (.text content) => .ok content.toList
  | .present value => .error (reason value.operandKind)

/-- The fault of a filter that looks for parts of a text. -/
def notSearchable (kind : String) : Fault :=
  .operands ("expected string or bytes-like object, got '" ++ kind ++ "'")

/-- The fault of a filter that changes the letters of a text. -/
def notLetters (kind : String) : Fault :=
  .noPart ("'" ++ kind ++ "' object has no attribute 'lower'")

/-- The value of a filter. -/
def applyFilter (name : String) (operand : Datum) (arguments : List Datum) : Except Fault Datum := do
  match name with
  | "upper" => return .ofText (Text.uppered operand.display)
  | "lower" => return .ofText (Text.lowered operand.display)
  | "trim" => return .ofText (Text.trimmed operand.display)
  | "join" =>
    let items ← itemsOf operand
    let separator := (arguments.head?.map Datum.display).getD ""
    return .ofText (String.intercalate separator (items.map Value.display))
  | "length" => return .present (.int (← sizeOf operand))
  | "count" => return .present (.int (← sizeOf operand))
  | "default" =>
    let fallback := arguments.head?.getD (.ofText "")
    let forFalse := ((arguments.drop 1).head?.map Datum.isFilled).getD false
    match operand with
    | .absent => return fallback
    | .present value => return if forFalse && !value.isFilled then fallback else operand
  | "first" => return ((← itemsOf operand).head?.map Datum.present).getD .absent
  | "last" => return ((← itemsOf operand).getLast?.map Datum.present).getD .absent
  | "slugify" => return .ofText (String.ofList (Text.slug (← nameText notLetters operand)))
  | "pascal_case" => return .ofText (String.ofList (Text.pascal (← nameText notSearchable operand)))
  | "snake_case" => return .ofText (String.ofList (Text.snake (← nameText notSearchable operand)))
  | "camel_case" => return .ofText (String.ofList (Text.camel (← nameText notSearchable operand)))
  | _ => throw .broken

/-- The answer of a test. -/
def applyTest (name : String) (operand : Datum) : Except Fault Bool :=
  match name, operand with
  | "defined", .absent => .ok false
  | "defined", .present _ => .ok true
  | "undefined", .absent => .ok true
  | "undefined", .present _ => .ok false
  | "none", .present .null => .ok true
  | "none", _ => .ok false
  | "string", .present (.text _) => .ok true
  | "string", _ => .ok false
  | "mapping", .present (.mapping _) => .ok true
  | "mapping", _ => .ok false
  | "number", .present value => .ok (Number.ofValue? value).isSome
  | "number", .absent => .ok false
  | "boolean", .present (.bool _) => .ok true
  | "boolean", _ => .ok false
  | "iterable", datum => .ok (match itemsOf datum with
      | .ok _ => true
      | .error _ => false)
  | _, _ => .error .broken

/-- The part of a value under a name. -/
def partOf (owner : Datum) (name : String) : Except Fault Datum :=
  match owner with
  | .absent => .error .broken
  | .present (.mapping entries) =>
    .ok (((Entries.field? entries name).map Datum.present).getD .absent)
  | .present _ => .ok .absent

/-- The item of a list at an index; a negative index counts from the end. -/
def itemAt {α : Type} (items : List α) (index : Int) : Option α :=
  if index < 0 then
    if items.length < index.natAbs then none else items[items.length - index.natAbs]?
  else items[index.toNat]?

/-- The item of a value under an index. -/
def itemUnder (owner index : Datum) : Except Fault Datum :=
  match owner, index with
  | .absent, _ => .error .broken
  | .present (.mapping entries), .present (.scalar key) =>
    .ok (((Entries.get? entries key).map Datum.present).getD .absent)
  | .present (.list items), .present (.int position) =>
    .ok (((itemAt items position).map Datum.present).getD .absent)
  | .present (.text content), .present (.int position) =>
    .ok (((itemAt content.toList position).map fun c => Datum.ofText (String.singleton c)).getD .absent)
  | _, _ => .ok .absent

/-- The value of a method. -/
def callMethod (owner : Datum) (method : String) (arguments : List Datum) : Except Fault Datum :=
  match owner, method, arguments with
  | .present (.mapping entries), "items", [] =>
    .ok (.present (.list (entries.map fun entry => Value.list [.scalar entry.1, entry.2])))
  | .present (.mapping entries), "keys", [] =>
    .ok (.present (.list (entries.map fun entry => Value.scalar entry.1)))
  | .present (.mapping entries), "values", [] => .ok (.present (.list (entries.map (·.2))))
  | .present (.mapping entries), "get", .present (.scalar key) :: rest =>
    .ok (((Entries.get? entries key).map Datum.present).getD (rest.head?.getD (.present .null)))
  | .present (.text content), "upper", [] => .ok (.ofText (Text.uppered content))
  | .present (.text content), "lower", [] => .ok (.ofText (Text.lowered content))
  | .present (.text content), "strip", [] => .ok (.ofText (Text.trimmed content))
  | _, _, _ => .error .broken

/-- The value of an operator. -/
def applyOperator (operator : BinaryOperator) (left right : Datum) : Except Fault Datum :=
  match operator with
  | .join => .ok (.ofText (left.display ++ right.display))
  | .add => strict Value.add
  | .subtract => strict Value.subtract
  | .multiply => strict Value.multiply
  | .divide => strict Value.divide
  | .floorDivide => strict Value.floorDivide
  | .remainder => strict Value.remainder
where
  /-- Applies an operator whose operands must be there. -/
  strict (apply : Value → Value → Except OperandFault Value) : Except Fault Datum := do
    let result ← (apply (← left.demand) (← right.demand)).mapError operandFault
    return .present result

/-- Whether two data are equal. -/
def agree : Datum → Datum → Bool
  | .present left, .present right => left.agrees right
  | .absent, .absent => true
  | _, _ => false

/-- Whether one datum is below another; the sign is the one that was written. -/
def isBelow (sign : String) (left right : Datum) : Except Fault Bool := do
  (Value.isBelow sign (← left.demand) (← right.demand)).mapError operandFault

/-- Whether a collection holds a datum. -/
def isInside (value collection : Datum) : Except Fault Bool := do
  match collection with
  | .absent => return false
  | .present whole =>
    match value with
    | .present part => (whole.holds part).mapError operandFault
    | .absent =>
      match whole with
      | .text _ => throw (.operands "'in <string>' requires string as left operand, not Undefined")
      | _ => return false

/-- The answer of a comparison. -/
def applyComparison (comparison : Comparison) (left right : Datum) : Except Fault Bool :=
  match comparison with
  | .equal => .ok (agree left right)
  | .different => .ok (!agree left right)
  | .below => isBelow "<" left right
  | .above => isBelow ">" right left
  | .atMost => (isBelow "<=" right left).map not
  | .atLeast => (isBelow ">=" left right).map not
  | .inside => isInside left right
  | .outside => (isInside left right).map not

/-- The number with the other sign. -/
def negated (operand : Datum) : Except Fault Datum := do
  match Number.ofValue? (← operand.demand) with
  | some (.whole value) => return .present (.int (-value))
  | some (.double value) => return .present (.float value.negate)
  | none => throw (.operands "bad operand type for unary -")

/-- A number as it is. -/
def unsigned (operand : Datum) : Except Fault Datum := do
  match Number.ofValue? (← operand.demand) with
  | some number => return .present number.toValue
  | none => throw (.operands "bad operand type for unary +")

/-- The whole numbers from zero up to a bound. -/
def rangeTo (bound : Int) : Datum :=
  .present (.list ((List.range bound.toNat).map fun index => Value.int (Int.ofNat index)))

/-- A key of a mapping expression. -/
def keyOf (datum : Datum) : Except Fault Scalar := do
  match (← datum.demand) with
  | .scalar key => return key
  | other => throw (.operands ("unhashable type: '" ++ other.operandKind ++ "'"))

mutual

/-- The value of an expression. -/
def eval (scope : Scope) : Expr → Except Fault Datum
  | .constant value => .ok (.present value)
  | .name word => .ok ((scope.names.lookup word).getD .absent)
  | .list items => do
    let data ← evalAll scope items
    return .present (.list (← data.mapM Datum.demand))
  | .mapping entries => do return .present (.mapping (Entries.ofPairs (← evalEntries scope entries)))
  | .attribute owner word => do partOf (← eval scope owner) word
  | .item owner index => do itemUnder (← eval scope owner) (← eval scope index)
  | .call function arguments => do
    let data ← evalAll scope arguments
    match function with
    | .name "super" =>
      match scope.inherited with
      | some rendered => return .ofText (← rendered)
      | none => throw .broken
    | .name "range" =>
      match data with
      | [.present (.int bound)] => return rangeTo bound
      | _ => throw .broken
    | .attribute owner method => callMethod (← eval scope owner) method data
    | _ => throw .broken
  | .filter operand word arguments => do
    applyFilter word (← eval scope operand) (← evalAll scope arguments)
  | .test operand word => do return .ofBool (← applyTest word (← eval scope operand))
  | .negative operand => do negated (← eval scope operand)
  | .positive operand => do unsigned (← eval scope operand)
  | .negation operand => do return .ofBool (!(← eval scope operand).isFilled)
  | .binary operator left right => do
    applyOperator operator (← eval scope left) (← eval scope right)
  | .compare first rest => do evalComparisons scope (← eval scope first) rest
  | .both left right => do
    let datum ← eval scope left
    if datum.isFilled then eval scope right else return datum
  | .either left right => do
    let datum ← eval scope left
    if datum.isFilled then return datum else eval scope right
  | .choose first condition otherwise => do
    if (← eval scope condition).isFilled then eval scope first
    else
      match otherwise with
      | some other => eval scope other
      | none => return .absent
termination_by structural expression => expression

/-- The values of expressions. -/
def evalAll (scope : Scope) : List Expr → Except Fault (List Datum)
  | [] => .ok []
  | first :: rest => do return (← eval scope first) :: (← evalAll scope rest)
termination_by structural expressions => expressions

/-- The entries of a mapping expression. -/
def evalEntries (scope : Scope) : List (Expr × Expr) → Except Fault (List (Scalar × Value))
  | [] => .ok []
  | (key, value) :: rest => do
    let name ← keyOf (← eval scope key)
    let content ← (← eval scope value).demand
    return (name, content) :: (← evalEntries scope rest)
termination_by structural entries => entries

/-- The answer of comparisons one after the other; the first that fails ends them. -/
def evalComparisons (scope : Scope) (left : Datum) :
    List (Comparison × Expr) → Except Fault Datum
  | [] => .ok (.ofBool true)
  | (comparison, operand) :: rest => do
    let right ← eval scope operand
    if ← applyComparison comparison left right then evalComparisons scope right rest
    else return .ofBool false
termination_by structural comparisons => comparisons

end

end Scaffold.Host.Stencil
