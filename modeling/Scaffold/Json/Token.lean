import Scaffold.Value.Basic

/-!
# Tokens of JSON

The lexical layer of JSON texts: punctuation, texts, numbers and the words `null`, `true`, `false`,
`NaN`, `Infinity` and `-Infinity`.  Each token knows how many characters remain from its start, so that
a fault can name its place.  Reading stops at the first characters that form no token.

An escape may name one half of a character.  The escapes of a first and a second half that meet make the
character; any other half is kept as it is (`pieceOfCode`).
-/

namespace Scaffold.Json

open Scaffold.Decimal

/-- Why a text is no JSON document. -/
inductive Fault where
  | expectedValue
  | expectedName
  | expectedColon
  | expectedComma
  | extraData
  | unterminatedText
  | controlCharacter
  | unknownEscape
  | badCodeEscape
  | byteOrderMark
  /-- An integer with more digits than are ever read. -/
  | tooManyDigits (count : Nat)
  deriving DecidableEq, Repr

/-- The longest integer, in digits, that is read. -/
def maxDigits : Nat := 4300

/-- A token, or the reason why there is none. -/
inductive Token where
  | openMapping
  | closeMapping
  | openList
  | closeList
  | colon
  | comma
  | text (value : String)
  | torn (value : TornText)
  | scalar (value : Scalar)
  /-- A text that breaks off, with the fault and the number of characters left at its place. -/
  | brokenText (fault : Fault) (remaining : Nat)
  | tooLong (digits : Nat)
  | unknown
  deriving DecidableEq, Repr

/-- A token and the number of characters from its start to the end of the document. -/
structure Placed where
  token : Token
  remaining : Nat
  deriving DecidableEq, Repr

/-- The characters allowed between tokens. -/
def isSpace (c : Char) : Bool := c == ' ' || c == '\t' || c == '\n' || c == '\r'

/-- The value of a hexadecimal digit. -/
def hexDigit? (c : Char) : Option Nat :=
  if '0' ≤ c ∧ c ≤ '9' then some (c.toNat - 48)
  else if 'a' ≤ c ∧ c ≤ 'f' then some (c.toNat - 87)
  else if 'A' ≤ c ∧ c ≤ 'F' then some (c.toNat - 55)
  else none

/-- The code that four hexadecimal digits write. -/
def code? (a b c d : Char) : Option Nat := do
  return (((← hexDigit? a) * 16 + (← hexDigit? b)) * 16 + (← hexDigit? c)) * 16 + (← hexDigit? d)

/-- The character that a single letter after a backslash stands for. -/
def shortEscape? (c : Char) : Option Char :=
  match c with
  | '"' => some '"'
  | '\\' => some '\\'
  | '/' => some '/'
  | 'b' => some '\x08'
  | 'f' => some '\x0c'
  | 'n' => some '\n'
  | 'r' => some '\r'
  | 't' => some '\t'
  | _ => none

/-- The first half of a character beyond the basic plane. -/
def isHighHalf (code : Nat) : Bool := 0xD800 ≤ code && code < 0xDC00

/-- The second half of a character beyond the basic plane. -/
def isLowHalf (code : Nat) : Bool := 0xDC00 ≤ code && code < 0xE000

/-- What a code names that is not joined with another one: a character, or a lone half. -/
def pieceOfCode (code : Nat) : Piece :=
  if isHalf : 0xD800 ≤ code ∧ code < 0xE000 then .half ⟨code, isHalf⟩ else .whole (Char.ofNat code)

/-- The character of a first and a second half. -/
def joinedHalves (first second : Nat) : Char :=
  Char.ofNat (0x10000 + (first - 0xD800) * 0x400 + (second - 0xDC00))

/-- What reading the inside of a text gives: its pieces and what follows the closing quote, or a fault and
the number of characters left at its place (none when the text never closes). -/
abbrev TextResult := Except (Fault × Option Nat) (List Piece × List Char)

/-- Puts a piece in front of a text that was read. -/
def TextResult.cons (piece : Piece) (result : TextResult) : TextResult :=
  result.map fun parts => (piece :: parts.1, parts.2)

/-- Reads the inside of a text up to its closing quote. -/
def readText : List Char → TextResult
  | [] => .error (.unterminatedText, none)
  | '"' :: rest => .ok ([], rest)
  | ['\\'] => .error (.unterminatedText, none)
  | '\\' :: 'u' :: a :: b :: c :: d :: '\\' :: 'u' :: e :: f :: g :: h :: next :: rest =>
    match code? a b c d with
    | none => .error (.badCodeEscape, some (rest.length + 12))
    | some first =>
      if isHighHalf first then
        match code? e f g h with
        | none => .error (.badCodeEscape, some (rest.length + 6))
        | some second =>
          if isLowHalf second then
            (readText (next :: rest)).cons (.whole (joinedHalves first second))
          else (readText ('\\' :: 'u' :: e :: f :: g :: h :: next :: rest)).cons (pieceOfCode first)
      else (readText ('\\' :: 'u' :: e :: f :: g :: h :: next :: rest)).cons (pieceOfCode first)
  | '\\' :: 'u' :: a :: b :: c :: d :: next :: rest =>
    match code? a b c d with
    | none => .error (.badCodeEscape, some (rest.length + 6))
    | some code => (readText (next :: rest)).cons (pieceOfCode code)
  | '\\' :: c :: rest =>
    if c == 'u' then .error (.badCodeEscape, some (rest.length + 1))
    else match shortEscape? c with
      | some meant => (readText rest).cons (.whole meant)
      | none => .error (.unknownEscape, some (rest.length + 2))
  | c :: rest =>
    if c.toNat < 0x20 then .error (.controlCharacter, some (rest.length + 1))
    else (readText rest).cons (.whole c)

/-- The digits at the start of a text and what follows them. -/
def takeDigits (text : List Char) : List Char × List Char :=
  (text.takeWhile isDigit, text.dropWhile isDigit)

/-- The digits behind a point, if a point with a digit is next. -/
def readFraction : List Char → List Char × List Char
  | '.' :: c :: rest => if isDigit c then takeDigits (c :: rest) else ([], '.' :: c :: rest)
  | text => ([], text)

/-- The exponent, if one with a digit is next. -/
def readExponent (text : List Char) : Option (Int × List Char) :=
  match text with
  | mark :: rest =>
    if mark == 'e' || mark == 'E' then
      let (negative, digitsAndRest) := match rest with
        | '-' :: tail => (true, tail)
        | '+' :: tail => (false, tail)
        | tail => (false, tail)
      match takeDigits digitsAndRest with
      | ([], _) => none
      | (digits, after) =>
        let size := Int.ofNat (digitsValue digits)
        some (if negative then -size else size, after)
    else none
  | [] => none

/-- The digits before the point, and what follows them: a zero stands alone. -/
def readWhole : List Char → List Char × List Char
  | '0' :: rest => (['0'], rest)
  | text => takeDigits text

/-- A number: whole digits without a leading zero, then a fraction and an exponent, each optional.
With either of these it is a double precision number, else an integer. -/
def readNumber (negative : Bool) (text : List Char) : Option (Token × List Char) :=
  let (whole, afterWhole) := readWhole text
  if whole.isEmpty then none
  else
    let (fraction, afterFraction) := readFraction afterWhole
    let exponent := readExponent afterFraction
    if fraction.isEmpty && exponent.isNone then
      if maxDigits < whole.length then some (.tooLong whole.length, afterWhole)
      else
        let size := Int.ofNat (digitsValue whole)
        some (.scalar (.int (if negative then -size else size)), afterWhole)
    else
      let (power, rest) := exponent.getD (0, afterFraction)
      some (.scalar (.float (ofParts negative whole fraction power)), rest)

/-- The words that stand for values. -/
def words : List (List Char × Scalar) :=
  [("null".toList, .null), ("true".toList, .bool true), ("false".toList, .bool false),
   ("NaN".toList, .float .nan), ("Infinity".toList, .float (.infinite false)),
   ("-Infinity".toList, .float (.infinite true))]

/-- The token of the pieces of a text. -/
def Token.ofPieces (pieces : List Piece) : Token :=
  match Piece.join pieces with
  | .ok content => .text (String.ofList content)
  | .error broken => .torn broken

@[simp] theorem Token.ofPieces_whole (content : List Char) :
    ofPieces (content.map Piece.whole) = .text (String.ofList content) := by
  simp only [ofPieces, Piece.join_whole]

/-- The first token of a text that starts with a character and continues with `rest`, and what follows
the token. -/
def readToken (first : Char) (rest : List Char) : Token × List Char :=
  match first with
  | '\x7b' => (.openMapping, rest)
  | '\x7d' => (.closeMapping, rest)
  | '[' => (.openList, rest)
  | ']' => (.closeList, rest)
  | ':' => (.colon, rest)
  | ',' => (.comma, rest)
  | '"' =>
    match readText rest with
    | .ok (pieces, after) => (.ofPieces pieces, after)
    | .error (fault, place) => (.brokenText fault (place.getD (rest.length + 1)), [])
  | _ =>
    match words.find? fun word => word.1.isPrefixOf (first :: rest) with
    | some (word, value) => (.scalar value, (first :: rest).drop word.length)
    | none =>
      let number := if first == '-' then readNumber true rest else readNumber false (first :: rest)
      number.getD (.unknown, [])

/-- The tokens of a text in order.  A token always consumes a character; the comparison of lengths
makes that visible to the recursion. -/
def tokens (text : List Char) : List Placed :=
  match text.dropWhile isSpace with
  | [] => []
  | first :: rest =>
    let found := readToken first rest
    ⟨found.1, rest.length + 1⟩ ::
      (if found.2.length < text.length then tokens found.2 else [])
termination_by text.length

end Scaffold.Json
