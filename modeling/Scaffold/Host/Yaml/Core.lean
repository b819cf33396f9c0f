import Scaffold.Decimal.Text
import Scaffold.Json.Reader
import Scaffold.Text.Blank
import Scaffold.Text.Case
import Scaffold.Text.Search
import Scaffold.Text.Word
import Scaffold.Value.Basic
import Scaffold.Host.Yaml.Text

/-!
# Scalars of documents

What a scalar without quotes means is decided by its characters: truth values, integers in four bases and
in sixties, floating point numbers, days and times, and nothing.  Everything else is a text.
-/

namespace Scaffold.Host.Yaml

open Scaffold.Decimal

/-- The kinds of scalars. -/
inductive Kind where
  | null
  | bool
  | int
  | float
  | moment
  | text
  /-- The key under which the pairs of other mappings are taken over. -/
  | merge
  /-- The key of a default value. -/
  | default
  deriving DecidableEq, Repr

/-- The words for truth. -/
def trueWords : List String := ["yes", "Yes", "YES", "true", "True", "TRUE", "on", "On", "ON"]

/-- The words for falsehood. -/
def falseWords : List String := ["no", "No", "NO", "false", "False", "FALSE", "off", "Off", "OFF"]

/-- The words for nothing. -/
def nullWords : List String := ["", "~", "null", "Null", "NULL"]

/-- A digit or an underscore. -/
def isDigitOrLow (c : Char) : Bool := isDigit c || c == '_'

/-- Digits and underscores that start with a digit. -/
def isNumeral : List Char → Bool
  | [] => false
  | c :: rest => isDigit c && rest.all isDigitOrLow

/-- A numeral that does not start with a zero. -/
def isCounting : List Char → Bool
  | [] => false
  | c :: rest => isDigit c && c != '0' && rest.all isDigitOrLow

/-- A number below sixty. -/
def isSixtieth : List Char → Bool
  | [a] => isDigit a
  | [a, b] => '0' ≤ a && a ≤ '5' && isDigit b
  | _ => false

/-- Whether a number has a minus, and the number without its sign. -/
def unsigned : List Char → Bool × List Char
  | '-' :: rest => (true, rest)
  | '+' :: rest => (false, rest)
  | text => (false, text)

/-- Whether a text is an integer. -/
def isInteger (text : List Char) : Bool :=
  let body := (unsigned text).2
  let inBase (mark : Char) (digit : Char → Bool) :=
    match body with
    | '0' :: c :: rest => c == mark && !rest.isEmpty && rest.all fun d => digit d || d == '_'
    | _ => false
  body == ['0'] || isCounting body
    || inBase 'b' (fun c => c == '0' || c == '1')
    || inBase 'x' (fun c => (Json.hexDigit? c).isSome)
    || (match body with
        | '0' :: rest => !rest.isEmpty && rest.all fun c => ('0' ≤ c && c ≤ '7') || c == '_'
        | _ => false)
    || (match Text.splitAtChar ':' body with
        | first :: second :: others => isCounting first && (second :: others).all isSixtieth
        | _ => false)

/-- Whether a text is the exponent of a number, or nothing. -/
def isExponent : List Char → Bool
  | [] => true
  | e :: sign :: digits =>
    (e == 'e' || e == 'E') && (sign == '-' || sign == '+') && !digits.isEmpty && digits.all isDigit
  | _ => false

/-- Whether a text is a floating point number. -/
def isFloat (text : List Char) : Bool :=
  let body := (unsigned text).2
  let isUnsigned := body.length == text.length
  let mantissa := body.takeWhile fun c => c != 'e' && c != 'E'
  let whole := mantissa.takeWhile (· != '.')
  let fraction := mantissa.drop (whole.length + 1)
  let hasPoint := whole.length < mantissa.length
  let inSixties :=
    match (Text.splitAtChar ':' body).reverse with
    | last :: middle :: others =>
      let minutes := (middle :: others).dropLast
      isNumeral ((middle :: others).getLast (by simp)) && minutes.all isSixtieth
        && isSixtieth (last.takeWhile (· != '.')) && last.contains '.'
        && (last.dropWhile (· != '.')).tail.all isDigitOrLow
    | _ => false
  (hasPoint && isExponent (body.drop mantissa.length)
      && ((isNumeral whole && fraction.all isDigitOrLow)
        || (isUnsigned && whole.isEmpty && isNumeral fraction)))
    || inSixties
    || [".inf", ".Inf", ".INF"].contains (String.ofList body)
    || (isUnsigned && [".nan", ".NaN", ".NAN"].contains (String.ofList body))

/-- Takes between `least` and `most` digits off a text. -/
def takeDigits? (least most : Nat) (text : List Char) : Option (Nat × List Char) :=
  let digits := (text.take most).takeWhile isDigit
  if digits.length < least then none else some (digitsValue digits, text.drop digits.length)

/-- Takes a character off a text. -/
def takeSign? (sign : Char) : List Char → Option (List Char)
  | c :: rest => if c == sign then some rest else none
  | [] => none

/-- The microseconds that the digits behind a point stand for. -/
def microseconds (digits : List Char) : Nat :=
  digitsValue ((digits ++ List.replicate 6 '0').take 6)

/-- The offset from universal time at the end of a moment; the inner answer is none if there is none. -/
def readOffset? (text : List Char) : Option (Option Int) :=
  match text.dropWhile isBlank with
  | [] => if text.isEmpty then some none else none
  | ['Z'] => some (some 0)
  | sign :: rest =>
    if sign == '+' || sign == '-' then do
      let (hours, behind) ← takeDigits? 1 2 rest
      let minutes ← match behind with
        | [] => some 0
        | ':' :: more =>
          match takeDigits? 2 2 more with
          | some (minutes, []) => some minutes
          | _ => none
        | _ => none
      let offset := Int.ofNat (hours * 60 + minutes)
      return some (if sign == '-' then -offset else offset)
    else none

/-- The time of day behind the day of a moment. -/
def readTime? (text : List Char) : Option TimeOfDay := do
  let behind ← match text with
    | 'T' :: rest => some rest
    | 't' :: rest => some rest
    | c :: rest => if isBlank c then some (rest.dropWhile isBlank) else none
    | [] => none
  let (hour, behind) ← takeDigits? 1 2 behind
  let (minute, behind) ← takeDigits? 2 2 (← takeSign? ':' behind)
  let (second, behind) ← takeDigits? 2 2 (← takeSign? ':' behind)
  let (fraction, behind) := match behind with
    | '.' :: rest => (rest.takeWhile isDigit, rest.dropWhile isDigit)
    | rest => ([], rest)
  return ⟨hour, minute, second, microseconds fraction, ← readOffset? behind⟩

/-- The moment that a text describes, whether or not it is one of the calendar. -/
def readMoment? (text : List Char) : Option Moment := do
  let (year, behind) ← takeDigits? 4 4 text
  let (month, behind) ← takeDigits? 1 2 (← takeSign? '-' behind)
  let (day, behind) ← takeDigits? 1 2 (← takeSign? '-' behind)
  if behind.isEmpty then return ⟨year, month, day, none⟩
  else return ⟨year, month, day, some (← readTime? behind)⟩

/-- Whether a text is a moment; a day alone has all its digits. -/
def isMoment (text : List Char) : Bool :=
  match readMoment? text with
  | none => false
  | some moment => moment.time.isSome || text.length == 10

/-- The kind of a scalar without quotes. -/
def kindOf (text : String) : Kind :=
  let characters := text.toList
  if trueWords.contains text || falseWords.contains text then .bool
  else if isFloat characters then .float
  else if isInteger characters then .int
  else if text == "<<" then .merge
  else if nullWords.contains text then .null
  else if isMoment characters then .moment
  else if text == "=" then .default
  else .text

/-- Reads an integer in a base. -/
def integerIn (base : Nat) (digits : List Char) : Except Fault Int :=
  let digit? (c : Char) : Option Nat := (Json.hexDigit? c).filter fun value => value < base
  match digits.mapM digit? with
  | some (first :: others) =>
    .ok (Int.ofNat ((first :: others).foldl (fun value digit => base * value + digit) 0))
  | _ => .error (.notInteger base (String.ofList digits))

/-- Reads an integer in base ten. -/
def decimalInteger (digits : List Char) : Except Fault Int :=
  if Json.maxDigits < (digits.filter isDigit).length then
    .error (.tooManyDigits (digits.filter isDigit).length)
  else
    match Decimal.readInteger? Text.decimalDigit? (Text.trim digits) with
    | some value => .ok value
    | none => .error (.notInteger 10 (String.ofList digits))

/-- Reads an integer in sixties. -/
def sixties (parts : List (List Char)) : Except Fault Int := do
  let digits ← parts.mapM decimalInteger
  return digits.foldl (fun value digit => 60 * value + digit) 0

/-- The integer that a text stands for. -/
def integerOf (text : String) : Except Fault Int := do
  let (negative, body) := unsigned (text.toList.filter (· != '_'))
  let size ← match body with
    | [] => throw .emptyNumber
    | ['0'] => pure 0
    | '0' :: 'b' :: digits => integerIn 2 digits
    | '0' :: 'x' :: digits => integerIn 16 digits
    | '0' :: _ => integerIn 8 body
    | _ =>
      if body.contains ':' then sixties (Text.splitAtChar ':' body) else decimalInteger body
  return if negative then -size else size

/-- Reads a floating point number without a sign. -/
def decimalFloat (text : List Char) : Except Fault Binary64 :=
  let mantissa := text.takeWhile (· != 'e')
  let whole := mantissa.takeWhile (· != '.')
  let fraction := mantissa.drop (whole.length + 1)
  let (negative, power) := unsigned ((text.drop mantissa.length).drop 1)
  let hasPower := mantissa.length < text.length
  if (whole ++ fraction).isEmpty || !(whole ++ fraction).all isDigit || !power.all isDigit
      || (hasPower && power.isEmpty) then
    .error (.notNumber (String.ofList text))
  else
    let exponent := Int.ofNat (digitsValue power)
    .ok (Decimal.ofParts false whole fraction (if negative then -exponent else exponent))

/-- Adds up numbers from the last to the first, each worth sixty times the one behind it. -/
def sumSixties (base : Int) (sum : Binary64) : List Binary64 → Binary64
  | [] => sum
  | digit :: rest => sumSixties (60 * base) (sum.add (digit.mul (.ofInt base))) rest

/-- The floating point number that a text stands for. -/
def floatOf (text : String) : Except Fault Binary64 := do
  let (negative, body) := unsigned (Text.lower (text.toList.filter (· != '_')))
  let size ←
    if body.isEmpty then throw .emptyNumber
    else if body == ".inf".toList then pure (Binary64.infinite false)
    else if body == ".nan".toList then pure Binary64.nan
    else if body.contains ':' then do
      let parts ← (Text.splitAtChar ':' body).mapM decimalFloat
      pure (sumSixties 1 (.ofInt 0) parts.reverse)
    else decimalFloat body
  return if negative then size.negate else size

/-- The moment that a text stands for. -/
def momentOf (text : String) : Except Fault Moment :=
  match readMoment? text.toList with
  | none => .error .notMoment
  | some moment =>
    match moment.fault? with
    | none => .ok moment
    | some fault => .error (.moment fault)

/-- The truth value that a text stands for. -/
def truthOf (text : String) : Except Fault Bool :=
  let small := Text.lowered text
  if trueWords.contains small then .ok true
  else if falseWords.contains small then .ok false
  else .error (.notTruth small)

/-- A scalar of a kind. -/
def scalarOf (kind : Kind) (text : String) : Except Fault Scalar :=
  match kind with
  | .null => .ok .null
  | .bool => (truthOf text).map Scalar.bool
  | .int => (integerOf text).map Scalar.int
  | .float => (floatOf text).map Scalar.float
  | .moment => (momentOf text).map Scalar.moment
  | .text => .ok (.text text)
  | .merge => .error .malformed
  | .default => .error .malformed

end Scaffold.Host.Yaml
