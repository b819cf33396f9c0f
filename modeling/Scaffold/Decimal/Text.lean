import Scaffold.Decimal.Shortest
import Scaffold.Text.Word

/-!
# Written numbers

How numbers are written in documents and messages, and how decimal notation is read.
-/

namespace Scaffold.Decimal

/-- The decimal digits of a natural number. -/
def natText (number : Nat) : List Char := Nat.toDigits 10 number

/-- An integer in decimal notation. -/
def intText (number : Int) : String :=
  match number with
  | .ofNat magnitude => String.ofList (natText magnitude)
  | .negSucc below => String.ofList ('-' :: natText (below + 1))

/-- The choices of a notation for floating point numbers. -/
structure FloatNotation where
  /-- Magnitudes whose point lies after this many digits or fewer are written out. -/
  lastPosition : Int
  /-- Magnitudes whose point lies after fewer digits than this have an exponent. -/
  firstPosition : Int
  /-- The least number of digits of an exponent. -/
  exponentWidth : Nat
  undefined : String
  infinity : String

/-- Numbers in messages and plain texts: written out from `0.0001` up to below `10 ^ 16`. -/
def FloatNotation.plain : FloatNotation := ⟨16, -3, 2, "nan", "inf"⟩

/-- Numbers in JSON documents: as in plain texts, with the long words for the values that are no
numbers. -/
def FloatNotation.json : FloatNotation := ⟨16, -3, 2, "NaN", "Infinity"⟩

/-- The digits of a coefficient without trailing zeros. -/
def trimmedDigits (coefficient : Nat) : List Char :=
  let digits := (natText coefficient).reverse.dropWhile (· == '0')
  if digits.isEmpty then ['0'] else digits.reverse

/-- Digits with the point at a position: after it at least one digit is written. -/
def positional (digits : List Char) (position : Int) : List Char :=
  if position ≤ 0 then
    ['0', '.'] ++ List.replicate (-position).toNat '0' ++ digits
  else
    let whole := position.toNat
    if digits.length ≤ whole then digits ++ List.replicate (whole - digits.length) '0' ++ ['.', '0']
    else digits.take whole ++ ['.'] ++ digits.drop whole

/-- Digits with one before the point and a signed exponent. -/
def scientific (width : Nat) (digits : List Char) (exponent : Int) : List Char :=
  let fraction := digits.drop 1
  let power := natText exponent.natAbs
  digits.take 1 ++ (if fraction.isEmpty then [] else '.' :: fraction)
    ++ ['e', if exponent < 0 then '-' else '+'] ++ List.replicate (width - power.length) '0' ++ power

/-- A magnitude in a notation. -/
def FloatNotation.magnitude (style : FloatNotation) (rank : Nat) : List Char :=
  if rank == 0 then ['0', '.', '0']
  else
    let value := shortest rank
    let digits := natText value.coefficient
    let position := value.exponent + digits.length
    let significant := trimmedDigits value.coefficient
    if style.firstPosition ≤ position && position ≤ style.lastPosition then
      positional significant position
    else scientific style.exponentWidth significant (position - 1)

/-- A number in a notation. -/
def FloatNotation.write (style : FloatNotation) : Binary64 → String
  | .nan => style.undefined
  | .infinite negative => (if negative then "-" else "") ++ style.infinity
  | .finite negative rank =>
    String.ofList ((if negative then ['-'] else []) ++ style.magnitude rank)

/-- A number with one digit after the point; a half goes to the even neighbour. -/
def tenthsText : Binary64 → String
  | .nan => "nan"
  | .infinite negative => if negative then "-inf" else "inf"
  | .finite negative rank =>
    let (numerator, denominator) := Binary64.ratio rank
    let tenths := roundHalfEven (numerator * 10) denominator
    String.ofList ((if negative then ['-'] else []) ++ natText (tenths / 10) ++ ['.']
      ++ natText (tenths % 10))

/-- The value of a list of ASCII digits. -/
def digitsValue (digits : List Char) : Nat :=
  digits.foldl (fun value digit => 10 * value + (digit.toNat - 48)) 0

/-- Whether a character is an ASCII digit. -/
def isDigit (c : Char) : Bool := '0' ≤ c && c ≤ '9'

/-- The number written by a sign, digits before and after the point, and an exponent. -/
def ofParts (negative : Bool) (whole fraction : List Char) (exponent : Int) : Binary64 :=
  let coefficient := digitsValue (whole ++ fraction)
  let power := exponent - fraction.length
  -- Far beyond the range of exponents only the sign of the power matters.
  let bounded := if coefficient == 0 then 0 else max (-20000 - Int.ofNat (whole ++ fraction).length)
    (min power 20000)
  Binary64.ofDecimal negative coefficient bounded

/-! ## Integers with underscores between digits -/

/-- The value of digits with single underscores between them, added behind the digits read so far. -/
def readDigits? (digit? : Char → Option Nat) (value : Nat) : List Char → Option Nat
  | [] => some value
  | '_' :: c :: rest => (digit? c).bind fun digit => readDigits? digit? (10 * value + digit) rest
  | c :: rest => (digit? c).bind fun digit => readDigits? digit? (10 * value + digit) rest

/-- A natural number; it starts with a digit. -/
def readNatural? (digit? : Char → Option Nat) : List Char → Option Nat
  | [] => none
  | c :: rest => (digit? c).bind fun digit => readDigits? digit? digit rest

/-- An integer. -/
def readInteger? (digit? : Char → Option Nat) : List Char → Option Int
  | '-' :: rest => (readNatural? digit? rest).map fun value => -Int.ofNat value
  | '+' :: rest => (readNatural? digit? rest).map Int.ofNat
  | text => (readNatural? digit? text).map Int.ofNat

end Scaffold.Decimal
