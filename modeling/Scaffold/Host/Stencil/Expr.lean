import Scaffold.Host.Stencil.Token

/-!
# Expressions of template files

Names, constants, collections, attributes, filters, tests and operators.  The operators bind, from
loosest to tightest: choice, or, and, not, comparison, sum, joining, product, power, sign.
-/

namespace Scaffold.Host.Stencil

/-- The operators between two operands that are always both evaluated. -/
inductive BinaryOperator where
  | add
  | subtract
  | multiply
  | divide
  | floorDivide
  | remainder
  | join
  deriving DecidableEq, Repr

/-- The comparisons. -/
inductive Comparison where
  | equal
  | different
  | below
  | atMost
  | above
  | atLeast
  | inside
  | outside
  deriving DecidableEq, Repr

/-- An expression. -/
inductive Expr where
  | constant (value : Value)
  | name (name : String)
  | list (items : List Expr)
  | mapping (entries : List (Expr × Expr))
  | attribute (owner : Expr) (name : String)
  | item (owner index : Expr)
  | call (function : Expr) (arguments : List Expr)
  | filter (operand : Expr) (name : String) (arguments : List Expr)
  | test (operand : Expr) (name : String)
  | negative (operand : Expr)
  | positive (operand : Expr)
  | negation (operand : Expr)
  | binary (operator : BinaryOperator) (left right : Expr)
  | compare (first : Expr) (rest : List (Comparison × Expr))
  | both (left right : Expr)
  | either (left right : Expr)
  /-- The first part is chosen if the condition holds. -/
  | choose (first condition : Expr) (otherwise : Option Expr)
  deriving Repr, Inhabited

namespace Expr

/-- Takes a sign that must be there. -/
def expect (sign : String) : List Token → Except Fault (List Token)
  | .sign found :: rest => if found == sign then .ok rest else .error .broken
  | _ => .error .broken

/-- The words that stand for constants. -/
def constantWords : List (String × Value) :=
  [("true", .bool true), ("True", .bool true), ("false", .bool false), ("False", .bool false),
   ("none", .null), ("None", .null)]

/-- The operators of one level of binding. -/
def operatorsAt : Nat → List (String × BinaryOperator)
  | 0 => [("+", .add), ("-", .subtract)]
  | 1 => [("~", .join)]
  | _ => [("*", .multiply), ("/", .divide), ("//", .floorDivide), ("%", .remainder)]

/-- The number of levels of operators. -/
def operatorLevels : Nat := 3

/-- The comparison at the start of the tokens. -/
def comparison? : List Token → Option (Comparison × List Token)
  | .sign "==" :: rest => some (.equal, rest)
  | .sign "!=" :: rest => some (.different, rest)
  | .sign "<" :: rest => some (.below, rest)
  | .sign "<=" :: rest => some (.atMost, rest)
  | .sign ">" :: rest => some (.above, rest)
  | .sign ">=" :: rest => some (.atLeast, rest)
  | .name "in" :: rest => some (.inside, rest)
  | .name "not" :: .name "in" :: rest => some (.outside, rest)
  | _ => none

/-- The text constants at the start of the tokens, joined. -/
def joinedTexts : List Token → String × List Token
  | .constant (.text more) :: rest =>
    let (joined, after) := joinedTexts rest
    (more ++ joined, after)
  | tokens => ("", tokens)

mutual

/-- A whole expression.  `fuel` bounds the depth of the parse. -/
def parseChoice (fuel : Nat) (tokens : List Token) :
    Except Fault (Expr × List Token) := do
  match fuel with
  | 0 => throw .broken
  | left + 1 =>
    let (first, rest) ← parseEither left tokens
    parseChoices left first rest
termination_by structural fuel

/-- The conditions behind an expression. -/
def parseChoices (fuel : Nat) (first : Expr) (tokens : List Token) :
    Except Fault (Expr × List Token) := do
  match fuel with
  | 0 => throw .broken
  | left + 1 =>
    match tokens with
    | .name "if" :: rest =>
      let (condition, rest) ← parseEither left rest
      match rest with
      | .name "else" :: rest =>
        let (otherwise, rest) ← parseChoice left rest
        parseChoices left (.choose first condition (some otherwise)) rest
      | _ => parseChoices left (.choose first condition none) rest
    | _ => return (first, tokens)
termination_by structural fuel

/-- Operands with `or` between them. -/
def parseEither (fuel : Nat) (tokens : List Token) :
    Except Fault (Expr × List Token) := do
  match fuel with
  | 0 => throw .broken
  | left + 1 =>
    let (first, rest) ← parseBoth left tokens
    parseEitherRest left first rest
termination_by structural fuel

/-- The operands behind an `or`. -/
def parseEitherRest (fuel : Nat) (first : Expr) (tokens : List Token) :
    Except Fault (Expr × List Token) := do
  match fuel with
  | 0 => throw .broken
  | left + 1 =>
    match tokens with
    | .name "or" :: rest =>
      let (second, rest) ← parseBoth left rest
      parseEitherRest left (.either first second) rest
    | _ => return (first, tokens)
termination_by structural fuel

/-- Operands with `and` between them. -/
def parseBoth (fuel : Nat) (tokens : List Token) :
    Except Fault (Expr × List Token) := do
  match fuel with
  | 0 => throw .broken
  | left + 1 =>
    let (first, rest) ← parseNegation left tokens
    parseBothRest left first rest
termination_by structural fuel

/-- The operands behind an `and`. -/
def parseBothRest (fuel : Nat) (first : Expr) (tokens : List Token) :
    Except Fault (Expr × List Token) := do
  match fuel with
  | 0 => throw .broken
  | left + 1 =>
    match tokens with
    | .name "and" :: rest =>
      let (second, rest) ← parseNegation left rest
      parseBothRest left (.both first second) rest
    | _ => return (first, tokens)
termination_by structural fuel

/-- An operand with or without `not` before it. -/
def parseNegation (fuel : Nat) (tokens : List Token) :
    Except Fault (Expr × List Token) := do
  match fuel with
  | 0 => throw .broken
  | left + 1 =>
    match tokens with
    | .name "not" :: rest =>
      let (operand, rest) ← parseNegation left rest
      return (.negation operand, rest)
    | _ =>
      let (first, rest) ← parseOperators left 0 tokens
      let (others, rest) ← parseComparisons left rest
      return (if others.isEmpty then first else .compare first others, rest)
termination_by structural fuel

/-- Comparisons behind an operand. -/
def parseComparisons (fuel : Nat) (tokens : List Token) :
    Except Fault (List (Comparison × Expr) × List Token) := do
  match fuel with
  | 0 => throw .broken
  | left + 1 =>
    match comparison? tokens with
    | none => return ([], tokens)
    | some (comparison, rest) =>
      let (operand, rest) ← parseOperators left 0 rest
      let (others, rest) ← parseComparisons left rest
      return ((comparison, operand) :: others, rest)
termination_by structural fuel

/-- Operands with the operators of a level, or of a tighter one, between them. -/
def parseOperators (fuel level : Nat) (tokens : List Token) :
    Except Fault (Expr × List Token) := do
  match fuel with
  | 0 => throw .broken
  | left + 1 =>
    if operatorLevels ≤ level then parseSigned left true tokens
    else
      let (first, rest) ← parseOperators left (level + 1) tokens
      parseOperatorsRest left level first rest
termination_by structural fuel

/-- The operands behind an operator of a level. -/
def parseOperatorsRest (fuel level : Nat) (first : Expr) (tokens : List Token) :
    Except Fault (Expr × List Token) := do
  match fuel with
  | 0 => throw .broken
  | left + 1 =>
    match tokens with
    | .sign sign :: rest =>
      match (operatorsAt level).lookup sign with
      | some operator =>
        let (second, rest) ← parseOperators left (level + 1) rest
        parseOperatorsRest left level (.binary operator first second) rest
      | none => return (first, tokens)
    | _ => return (first, tokens)
termination_by structural fuel

/-- An operand with or without a sign; filters belong to the unsigned operand only. -/
def parseSigned (fuel : Nat) (filters : Bool) (tokens : List Token) :
    Except Fault (Expr × List Token) := do
  match fuel with
  | 0 => throw .broken
  | left + 1 =>
    let (operand, rest) ← match tokens with
      | .sign "-" :: rest => do
        let (operand, rest) ← parseSigned left false rest
        pure (Expr.negative operand, rest)
      | .sign "+" :: rest => do
        let (operand, rest) ← parseSigned left false rest
        pure (Expr.positive operand, rest)
      | _ => do
        let (operand, rest) ← parsePrimary left tokens
        parsePostfix left operand rest
    if filters then parseFilters left operand rest else return (operand, rest)
termination_by structural fuel

/-- A constant, a name or a collection. -/
def parsePrimary (fuel : Nat) (tokens : List Token) :
    Except Fault (Expr × List Token) := do
  match fuel with
  | 0 => throw .broken
  | left + 1 =>
    match tokens with
    | .name word :: rest =>
      match constantWords.lookup word with
      | some value => return (.constant value, rest)
      | none => return (.name word, rest)
    | .constant (.text _) :: _ =>
      let (joined, rest) := joinedTexts tokens
      return (.constant (.text joined), rest)
    | .constant value :: rest => return (.constant value, rest)
    | .sign "(" :: rest =>
      match rest with
      | .sign ")" :: rest => return (.list [], rest)
      | _ =>
        let (first, rest) ← parseChoice left rest
        match rest with
        | .sign "," :: rest =>
          let (others, rest) ← parseItems left ")" rest
          return (.list (first :: others), rest)
        | _ => return (first, ← expect ")" rest)
    | .sign "[" :: rest =>
      let (items, rest) ← parseItems left "]" rest
      return (.list items, rest)
    | .sign "\x7b" :: rest =>
      let (entries, rest) ← parseEntries left rest
      return (.mapping entries, rest)
    | _ => throw .broken
termination_by structural fuel

/-- Expressions up to a closing bracket. -/
def parseItems (fuel : Nat) (closing : String) (tokens : List Token) :
    Except Fault (List Expr × List Token) := do
  match fuel with
  | 0 => throw .broken
  | left + 1 =>
    match tokens with
    | .sign sign :: rest =>
      if sign == closing then return ([], rest) else parseItemsFrom left closing tokens
    | _ => parseItemsFrom left closing tokens
termination_by structural fuel

/-- At least one expression, up to a closing bracket. -/
def parseItemsFrom (fuel : Nat) (closing : String) (tokens : List Token) :
    Except Fault (List Expr × List Token) := do
  match fuel with
  | 0 => throw .broken
  | left + 1 =>
    let (first, rest) ← parseChoice left tokens
    match rest with
    | .sign "," :: rest =>
      let (others, rest) ← parseItems left closing rest
      return (first :: others, rest)
    | _ => return ([first], ← expect closing rest)
termination_by structural fuel

/-- The entries of a mapping, up to its closing brace. -/
def parseEntries (fuel : Nat) (tokens : List Token) :
    Except Fault (List (Expr × Expr) × List Token) := do
  match fuel with
  | 0 => throw .broken
  | left + 1 =>
    match tokens with
    | .sign "\x7d" :: rest => return ([], rest)
    | _ =>
      let (key, rest) ← parseChoice left tokens
      let (value, rest) ← parseChoice left (← expect ":" rest)
      match rest with
      | .sign "," :: rest =>
        let (others, rest) ← parseEntries left rest
        return ((key, value) :: others, rest)
      | _ => return ([(key, value)], ← expect "\x7d" rest)
termination_by structural fuel

/-- Attributes, items and calls behind an operand. -/
def parsePostfix (fuel : Nat) (owner : Expr) (tokens : List Token) :
    Except Fault (Expr × List Token) := do
  match fuel with
  | 0 => throw .broken
  | left + 1 =>
    match tokens with
    | .sign "." :: .name word :: rest => parsePostfix left (.attribute owner word) rest
    | .sign "." :: .constant (.int index) :: rest =>
      parsePostfix left (.item owner (.constant (.int index))) rest
    | .sign "." :: _ => throw .broken
    | .sign "[" :: rest =>
      let (index, rest) ← parseChoice left rest
      parsePostfix left (.item owner index) (← expect "]" rest)
    | .sign "(" :: rest =>
      let (arguments, rest) ← parseItems left ")" rest
      parsePostfix left (.call owner arguments) rest
    | _ => return (owner, tokens)
termination_by structural fuel

/-- Filters and tests behind an operand. -/
def parseFilters (fuel : Nat) (operand : Expr) (tokens : List Token) :
    Except Fault (Expr × List Token) := do
  match fuel with
  | 0 => throw .broken
  | left + 1 =>
    match tokens with
    | .sign "|" :: .name word :: .sign "(" :: rest =>
      let (arguments, rest) ← parseItems left ")" rest
      parseFilters left (.filter operand word arguments) rest
    | .sign "|" :: .name word :: rest => parseFilters left (.filter operand word []) rest
    | .sign "|" :: _ => throw .broken
    | .name "is" :: .name "not" :: .name word :: rest =>
      parseFilters left (.negation (.test operand word)) rest
    | .name "is" :: .name word :: rest => parseFilters left (.test operand word) rest
    | _ => return (operand, tokens)
termination_by structural fuel

end

/-- A bound on the depth of a parse. -/
def fuelFor (tokens : List Token) : Nat := 24 * (tokens.length + 1)

/-- Reads an expression from the start of the tokens. -/
def parseFirst (tokens : List Token) :
    Except Fault (Expr × List Token) := parseChoice (fuelFor tokens) tokens

/-- Reads an expression from all of the tokens. -/
def parse (tokens : List Token) : Except Fault Expr := do
  let (expression, rest) ← parseFirst tokens
  if rest.isEmpty then return expression else throw .broken

end Expr

end Scaffold.Host.Stencil
