import Scaffold.Host.Schema
import Scaffold.Json.Reader

/-!
# Defects of JSON texts

Where a text stops being JSON, and why: the first place behind which no continuation makes a document.
The place is found by skipping over tokens, without making any value, and is counted in bytes.
-/

namespace Scaffold.Host.Json

open Scaffold.Json

/-- Why a text stops being JSON. -/
inductive Defect where
  | endInValue
  | endInList
  | endInMapping
  | endInText
  | noValue
  | noName
  | noColon
  | noListEnd
  | noMappingEnd
  | trailingComma
  | trailingText
  | badNumber
  | badWord
  | badEscape
  | controlInText
  | longNumber
  deriving DecidableEq, Repr

/-- The wording of a defect. -/
def Defect.message : Defect → String
  | .endInValue => "EOF while parsing a value"
  | .endInList => "EOF while parsing a list"
  | .endInMapping => "EOF while parsing an object"
  | .endInText => "EOF while parsing a string"
  | .noValue => "expected value"
  | .noName => "key must be a string"
  | .noColon => "expected \x60:\x60"
  | .noListEnd => "expected \x60,\x60 or \x60]\x60"
  | .noMappingEnd => "expected \x60,\x60 or \x60\x7d\x60"
  | .trailingComma => "trailing comma"
  | .trailingText => "trailing characters"
  | .badNumber => "invalid number"
  | .badWord => "expected ident"
  | .badEscape => "invalid escape"
  | .controlInText => "control character (\\u0000-\\u001F) found while parsing a string"
  | .longNumber => "number out of range"

/-- A defect and the text that begins at its place. -/
structure Stop where
  defect : Defect
  rest : List Char
  deriving DecidableEq, Repr

/-- The text behind a part that was skipped, or the defect in it. -/
abbrev Skipped := Except Stop (List Char)

/-- A defect at the start of a text. -/
def stopAt {α : Type} (defect : Defect) (rest : List Char) : Except Stop α := .error ⟨defect, rest⟩

/-- The number of bytes of a text. -/
def byteCount (text : List Char) : Nat := text.foldl (fun count c => count + c.utf8Size) 0

/-- Skips the four digits of a code. -/
def skipCode (text : List Char) : Skipped :=
  if byteCount (text.take 4) < 4 then stopAt .endInText []
  else
    let digits := (text.take 4).takeWhile fun c => (hexDigit? c).isSome
    if digits.length < 4 then stopAt .badEscape (text.drop digits.length) else .ok (text.drop 4)

/-- Skips the inside of a text up to its closing quote. -/
def skipText (text : List Char) : Skipped :=
  match text with
  | [] => stopAt .endInText []
  | '"' :: rest => .ok rest
  | ['\\'] => stopAt .endInText []
  | '\\' :: c :: rest =>
    if c == 'u' then
      match skipCode rest with
      | .ok _ => skipText (rest.drop 4)
      | .error stop => .error stop
    else if (shortEscape? c).isSome then skipText rest
    else stopAt .badEscape (c :: rest)
  | c :: rest => if c.toNat < 0x20 then stopAt .controlInText (c :: rest) else skipText rest
termination_by text.length
decreasing_by
  all_goals simp only [List.length_drop, List.length_cons]
  all_goals omega

/-- Skips digits, at least one. -/
def skipDigits (text : List Char) : Skipped :=
  match text with
  | [] => stopAt .endInValue []
  | c :: rest =>
    if Decimal.isDigit c then .ok (rest.dropWhile Decimal.isDigit) else stopAt .badNumber (c :: rest)

/-- Skips an exponent, if there is one. -/
def skipExponent (text : List Char) : Skipped :=
  match text with
  | mark :: rest =>
    if mark == 'e' || mark == 'E' then
      match rest with
      | '-' :: digits => skipDigits digits
      | '+' :: digits => skipDigits digits
      | digits => skipDigits digits
    else .ok (mark :: rest)
  | [] => .ok []

/-- Skips a fraction and an exponent, if there are any. -/
def skipFraction (text : List Char) : Skipped :=
  match text with
  | '.' :: digits => (skipDigits digits).bind skipExponent
  | text => skipExponent text

/-- Skips the rest of a word. -/
def skipWord (expected text : List Char) : Skipped :=
  match expected, text with
  | [], text => .ok text
  | _ :: _, [] => stopAt .endInValue []
  | wanted :: others, c :: rest =>
    if c == wanted then skipWord others rest else stopAt .badWord (c :: rest)

/-- Skips a number whose sign was read. -/
def skipNumber (text : List Char) : Skipped :=
  match text with
  | [] => stopAt .endInValue []
  | '0' :: rest =>
    if (rest.head?.map Decimal.isDigit).getD false then stopAt .badNumber rest else skipFraction rest
  | 'I' :: rest => skipWord "nfinity".toList rest
  | c :: rest =>
    if Decimal.isDigit c then
      let digits := (c :: rest).takeWhile Decimal.isDigit
      let after := (c :: rest).drop digits.length
      let isWhole := (after.head?.map fun c => c != '.' && c != 'e' && c != 'E').getD true
      if isWhole && maxDigits < digits.length then
        stopAt .longNumber ((c :: rest).drop (maxDigits + 1))
      else skipFraction after
    else stopAt .badNumber (c :: rest)

/-- A collection that is still open. -/
inductive Bracket where
  | list
  | mapping
  deriving DecidableEq, Repr

/-- What a text has to go on with. -/
inductive Awaited where
  | value
  | firstItem
  | firstName
  | nextItem
  | nextName
  | colon
  /-- A comma, the end of the innermost collection or, outside of collections, nothing. -/
  | continuation
  deriving DecidableEq, Repr

/-- A place between tokens: the open collections, innermost first, and what comes next. -/
structure Stage where
  brackets : List Bracket
  awaited : Awaited
  deriving DecidableEq, Repr

/-- What is missing when the text ends at a place; nothing behind a complete document. -/
def Stage.missing? (stage : Stage) : Option Defect :=
  match stage.awaited, stage.brackets with
  | .continuation, [] => none
  | .continuation, .list :: _ => some .endInList
  | .continuation, .mapping :: _ => some .endInMapping
  | .firstItem, _ => some .endInList
  | .firstName, _ => some .endInMapping
  | .colon, _ => some .endInMapping
  | _, _ => some .endInValue

/-- Skips a value up to the place where its first part ends. -/
def skipValue (brackets : List Bracket) (first : Char) (rest : List Char) :
    Except Stop (Stage × List Char) :=
  let scalar (skipped : Skipped) : Except Stop (Stage × List Char) :=
    skipped.map fun after => (⟨brackets, .continuation⟩, after)
  match first with
  | '[' => .ok (⟨.list :: brackets, .firstItem⟩, rest)
  | '\x7b' => .ok (⟨.mapping :: brackets, .firstName⟩, rest)
  | '"' => scalar (skipText rest)
  | 'n' => scalar (skipWord "ull".toList rest)
  | 't' => scalar (skipWord "rue".toList rest)
  | 'f' => scalar (skipWord "alse".toList rest)
  | 'N' => scalar (skipWord "aN".toList rest)
  | '-' => scalar (skipNumber rest)
  | c =>
    if Decimal.isDigit c || c == 'I' then scalar (skipNumber (c :: rest))
    else stopAt .noValue (c :: rest)

/-- Skips the name of an entry. -/
def skipName (brackets : List Bracket) (first : Char) (rest : List Char) :
    Except Stop (Stage × List Char) :=
  if first == '"' then (skipText rest).map fun after => (⟨brackets, .colon⟩, after)
  else stopAt .noName (first :: rest)

/-- Skips what stands at a place. -/
def Stage.skip (stage : Stage) (first : Char) (rest : List Char) : Except Stop (Stage × List Char) :=
  let closed (outer : List Bracket) : Except Stop (Stage × List Char) :=
    .ok (⟨outer, .continuation⟩, rest)
  match stage.awaited, first, stage.brackets with
  | .firstItem, ']', _ :: outer => closed outer
  | .nextItem, ']', _ => stopAt .trailingComma (first :: rest)
  | .firstName, '\x7d', _ :: outer => closed outer
  | .nextName, '\x7d', _ => stopAt .trailingComma (first :: rest)
  | .firstName, _, brackets => skipName brackets first rest
  | .nextName, _, brackets => skipName brackets first rest
  | .colon, ':', brackets => .ok (⟨brackets, .value⟩, rest)
  | .colon, _, _ => stopAt .noColon (first :: rest)
  | .continuation, ',', .list :: outer => .ok (⟨.list :: outer, .nextItem⟩, rest)
  | .continuation, ',', .mapping :: outer => .ok (⟨.mapping :: outer, .nextName⟩, rest)
  | .continuation, ']', .list :: outer => closed outer
  | .continuation, '\x7d', .mapping :: outer => closed outer
  | .continuation, _, .list :: _ => stopAt .noListEnd (first :: rest)
  | .continuation, _, .mapping :: _ => stopAt .noMappingEnd (first :: rest)
  | .continuation, _, [] => stopAt .trailingText (first :: rest)
  | _, _, brackets => skipValue brackets first rest

/-- The first defect of the text behind a place.  Every step consumes a character; the comparison of
lengths makes that visible to the recursion. -/
def defectFrom? (stage : Stage) (text : List Char) : Option Stop :=
  match text.dropWhile isSpace with
  | [] => stage.missing?.map fun defect => ⟨defect, []⟩
  | first :: rest =>
    match stage.skip first rest with
    | .error stop => some stop
    | .ok (next, after) => if after.length < text.length then defectFrom? next after else none
termination_by text.length

/-- The first defect of a text; none for a document. -/
def defect? (text : List Char) : Option Stop := defectFrom? ⟨[], .value⟩ text

/-- The line and the column of a defect.  Columns count bytes from one; at the end of the text the column
is that of its last byte, and a line end is column zero of the line behind it. -/
def Stop.place (stop : Stop) (text : List Char) : Nat × Nat :=
  let before := text.take (text.length - stop.rest.length)
  let line := before.count '\n' + 1
  let column := byteCount (before.reverse.takeWhile (· != '\n'))
  match stop.rest with
  | [] => (line, column)
  | '\n' :: _ => (line + 1, 0)
  | _ => (line, column + 1)

/-- The wording of a defect of a text, with its place. -/
def Stop.message (stop : Stop) (text : List Char) : String :=
  let (line, column) := stop.place text
  stop.defect.message ++ " at line " ++ Decimal.intText line ++ " column " ++ Decimal.intText column

/-- Reads a JSON text. -/
def read (text : String) : Checked Value :=
  let characters := text.toList
  match defect? characters with
  | some stop => refuse (.invalidJson (stop.message characters))
  | none => .accepted ((Json.parse characters).toOption.getD .null)

end Scaffold.Host.Json
