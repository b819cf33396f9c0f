import Scaffold.Decimal.Text
import Scaffold.Text.Blank
import Scaffold.Text.Search
import Scaffold.Text.Utf8
import Scaffold.Text.Word
import Scaffold.Value.Basic

/-!
# Tokens of tags

The inside of a tag is a list of names, texts, numbers and signs.  A tag ends at its closing mark unless a
bracket is still open.
-/

namespace Scaffold.Host.Stencil

/-- A token inside a tag. -/
inductive Token where
  | name (text : String)
  | constant (value : Value)
  | sign (text : String)
  deriving BEq, Repr

/-- Why a template file has no text. -/
inductive Fault where
  /-- A template file does not exist. -/
  | missing
  /-- The template is malformed or uses something undefined. -/
  | broken
  | unreadable (failure : String)
  /-- An operator or filter does not apply to its operands. -/
  | operands (reason : String)
  /-- A value lacks a part that a filter needs. -/
  | noPart (reason : String)
  | divisionByZero (reason : String)
  /-- Templates include each other without end. -/
  | endless
  deriving DecidableEq, Repr

/-- The signs of expressions, longer ones first. -/
def signs : List String :=
  ["//", "**", "==", "!=", ">=", "<=", "+", "-", "/", "*", "%", "~", "[", "]", "(", ")", "\x7b", "\x7d",
   ">", "<", "=", ".", ":", "|", ",", ";"]

/-- A digit of an escape in base sixteen. -/
def hexValue? (c : Char) : Option Nat :=
  if '0' ≤ c && c ≤ '9' then some (c.toNat - 48)
  else if 'a' ≤ c && c ≤ 'f' then some (c.toNat - 87)
  else if 'A' ≤ c && c ≤ 'F' then some (c.toNat - 55)
  else none

/-- The number of a fixed count of digits in base sixteen. -/
def hexNumber? (digits : List Char) : Option Nat :=
  digits.foldlM (fun value c => (hexValue? c).map (16 * value + ·)) 0

/-- The character that a short escape stands for. -/
def shortEscape? (c : Char) : Option Char :=
  [('n', '\n'), ('t', '\t'), ('r', '\r'), ('\\', '\\'), ('\'', '\''), ('"', '"'), ('b', '\x08'),
   ('f', '\x0c'), ('v', '\x0b'), ('a', '\x07')].lookup c

/-- The characters of a quoted text after its escapes are replaced; an unknown escape stays. -/
def unescape : List Char → List Char
  | [] => []
  | '\\' :: '\n' :: rest => unescape rest
  | '\\' :: 'x' :: a :: b :: rest =>
    match hexNumber? [a, b] with
    | some code => Char.ofNat code :: unescape rest
    | none => '\\' :: 'x' :: a :: b :: unescape rest
  | '\\' :: 'u' :: a :: b :: c :: d :: rest =>
    match hexNumber? [a, b, c, d] with
    | some code => Char.ofNat code :: unescape rest
    | none => '\\' :: 'u' :: a :: b :: c :: d :: unescape rest
  | '\\' :: c :: rest =>
    match shortEscape? c with
    | some meant => meant :: unescape rest
    | none => '\\' :: c :: unescape rest
  | c :: rest => c :: unescape rest

/-- The inside of a quoted text and what follows its closing mark. -/
def quotedInside (mark : Char) : List Char → Option (List Char × List Char)
  | [] => none
  | '\\' :: c :: rest => (quotedInside mark rest).map fun parts => ('\\' :: c :: parts.1, parts.2)
  | c :: rest =>
    if c == mark then some ([], rest)
    else (quotedInside mark rest).map fun parts => (c :: parts.1, parts.2)

/-- A number at the start of a text: digits, with a fraction or an exponent if it is no integer. -/
def numberAt (text : List Char) : Value × List Char :=
  let isPart (c : Char) : Bool := Decimal.isDigit c || c == '_'
  let digits (part : List Char) : List Char := part.filter Decimal.isDigit
  let whole := text.takeWhile isPart
  let rest := text.drop whole.length
  let fraction := match rest with
    | '.' :: more => more.takeWhile isPart
    | _ => []
  let behind := if fraction.isEmpty then rest else rest.drop (fraction.length + 1)
  let (power, final) := match behind with
    | mark :: more =>
      if mark == 'e' || mark == 'E' then
        let (negative, tail) := match more with
          | '-' :: tail => (true, tail)
          | '+' :: tail => (false, tail)
          | tail => (false, tail)
        let written := tail.takeWhile isPart
        if written.isEmpty then (none, behind)
        else
          let size := Int.ofNat (Decimal.digitsValue (digits written))
          (some (if negative then -size else size), tail.drop written.length)
      else (none, behind)
    | [] => (none, behind)
  if fraction.isEmpty && power.isNone then (.int (Decimal.digitsValue (digits whole)), rest)
  else (.float (Decimal.ofParts false (digits whole) (digits fraction) (power.getD 0)), final)

/-- The first token of a text that does not start with a blank, and what follows it. -/
def firstToken (text : List Char) : Option (Token × List Char) :=
  match text with
  | [] => none
  | c :: rest =>
    if Decimal.isDigit c then
      let (value, after) := numberAt text
      some (.constant value, after)
    else if Text.isWord c then
      let word := text.takeWhile Text.isWord
      some (.name (String.ofList word), text.drop word.length)
    else if c == '\'' || c == '"' then
      (quotedInside c rest).map fun parts =>
        (.constant (.text (String.ofList (unescape parts.1))), parts.2)
    else
      (signs.find? fun sign => sign.toList.isPrefixOf text).map fun sign =>
        (.sign sign, text.drop sign.length)

/-- The brackets that are open after a token, innermost first; none if a bracket does not fit. -/
def nesting? (opened : List String) : Token → Option (List String)
  | .sign "(" => some (")" :: opened)
  | .sign "[" => some ("]" :: opened)
  | .sign "\x7b" => some ("\x7d" :: opened)
  | .sign sign =>
    if sign == ")" || sign == "]" || sign == "\x7d" then
      match opened with
      | expected :: outer => if expected == sign then some outer else none
      | [] => none
    else some opened
  | _ => some opened

/-- What follows the closing mark of a tag, if the text starts with one. -/
abbrev Closing := List Char → Option (List Char)

/-- The tokens of a tag and what follows its closing mark.  `fuel` bounds the number of tokens. -/
def tagTokens (closing : Closing) (opened : List String) (fuel : Nat) (text : List Char) :
    Except Fault (List Token × List Char) :=
  let visible := text.dropWhile Text.isBlank
  let ended := if opened.isEmpty then closing visible else none
  match ended with
  | some rest => .ok ([], rest)
  | none =>
    match fuel with
    | 0 => .error .broken
    | left + 1 =>
      match firstToken visible with
      | none => .error .broken
      | some (token, rest) =>
        match nesting? opened token with
        | none => .error .broken
        | some inner => do
          let (others, after) ← tagTokens closing inner left rest
          return (token :: others, after)

/-! ## Segments of template files

A template file is cut into texts, outputs and statements.  A statement or comment alone on its line
leaves no trace of the line: the blanks before it and the line end behind it are dropped.  A hyphen next
to a mark drops all blanks on that side, a plus sign keeps them.
-/

/-- A piece of a template file. -/
inductive Segment where
  | text (content : List Char)
  | output (tokens : List Token)
  | statement (tokens : List Token)
  deriving BEq, Repr

/-- What stands next to an opening mark. -/
inductive Trim where
  | usual
  | all
  | nothing
  deriving DecidableEq, Repr

/-- The trim sign at the start of a text, and what follows it. -/
def trimSign : List Char → Trim × List Char
  | '-' :: rest => (.all, rest)
  | '+' :: rest => (.nothing, rest)
  | text => (.usual, text)

/-- The kinds of tags. -/
inductive TagKind where
  | output
  | statement
  | comment
  deriving DecidableEq, Repr

/-- The kind of tag that a text opens, and what follows the opening mark. -/
def openedTag? : List Char → Option (TagKind × List Char)
  | '\x7b' :: '\x7b' :: rest => some (.output, rest)
  | '\x7b' :: '%' :: rest => some (.statement, rest)
  | '\x7b' :: '#' :: rest => some (.comment, rest)
  | _ => none

/-- The text before the first opening mark, the kind of the tag and what follows the mark. -/
def untilTag : List Char → List Char × Option (TagKind × List Char)
  | [] => ([], none)
  | c :: rest =>
    match openedTag? (c :: rest) with
    | some tag => ([], some tag)
    | none =>
      let (before, tag) := untilTag rest
      (c :: before, tag)

/-- The text before a statement or comment, without the blanks of the line that it stands in.  `atStart`
says whether the text itself starts a line. -/
def withoutIndent (atStart : Bool) (text : List Char) : List Char :=
  let indent := text.reverse.takeWhile (· != '\n')
  let startsLine := atStart || indent.length < text.length
  if startsLine && Text.isAllBlank indent then text.take (text.length - indent.length) else text

/-- The text before a tag. -/
def textBefore (kind : TagKind) (trim : Trim) (atStart : Bool) (text : List Char) : List Char :=
  match trim with
  | .all => Text.trimRight text
  | .nothing => text
  | .usual => if kind == .output then text else withoutIndent atStart text

/-- Drops one line end. -/
def afterLineEnd : List Char → List Char
  | '\n' :: rest => rest
  | text => text

/-- Reads a closing mark made of the given character and a brace.  With `dropsLine` the line end behind
it is dropped. -/
def closingMark (mark : Char) (dropsLine : Bool) : Closing
  | '-' :: c :: '\x7d' :: rest => if c == mark then some (rest.dropWhile Text.isBlank) else none
  | '+' :: c :: '\x7d' :: rest => if c == mark && dropsLine then some rest else none
  | c :: '\x7d' :: rest =>
    if c == mark then some (if dropsLine then afterLineEnd rest else rest) else none
  | _ => none

/-- What follows the first closing mark in a text. -/
def afterClosing (closing : Closing) : List Char → Option (List Char)
  | [] => none
  | c :: rest =>
    match closing (c :: rest) with
    | some after => some after
    | none => afterClosing closing rest

/-- Reads a statement that is a single word. -/
def wordStatement? (word : List Char) (closing : Closing) (text : List Char) : Option (List Char) :=
  let visible := text.dropWhile Text.isBlank
  if word.isPrefixOf visible then closing ((visible.drop word.length).dropWhile Text.isBlank) else none

/-- The closing mark of the statement that starts verbatim text: the line end behind it is kept. -/
def rawClosing : Closing := closingMark '%' false

/-- The closing mark of a statement. -/
def statementClosing : Closing := closingMark '%' true

/-- The verbatim text up to the statement that ends it, and what follows that statement. -/
def verbatim : List Char → Option (List Char × Trim × List Char)
  | [] => none
  | c :: rest =>
    let here := match c :: rest with
      | '\x7b' :: '%' :: inside =>
        let (trim, body) := trimSign inside
        (wordStatement? "endraw".toList statementClosing body).map fun after => ([], trim, after)
      | _ => none
    match here with
    | some found => some found
    | none => (verbatim rest).map fun (before, trim, after) => (c :: before, trim, after)

/-- A text segment; none for no text. -/
def textSegment (content : List Char) : List Segment :=
  if content.isEmpty then [] else [.text content]

/-- Whether a line starts behind a consumed stretch of text. -/
def endsLine (whole after : List Char) : Bool :=
  (whole.take (whole.length - after.length)).getLast? == some '\n'

/-- The segments of the rest of a template file.  `fuel` bounds the number of tags. -/
def segmentsFrom (atStart : Bool) (fuel : Nat) (source : List Char) : Except Fault (List Segment) :=
  match untilTag source with
  | (text, none) => .ok (textSegment text)
  | (text, some (kind, opened)) =>
    match fuel with
    | 0 => .error .broken
    | left + 1 => do
      let (trim, inside) := trimSign opened
      let before := textSegment (textBefore kind trim atStart text)
      match kind with
      | .comment =>
        match afterClosing (closingMark '#' true) inside with
        | none => throw .broken
        | some after => return before ++ (← segmentsFrom (endsLine source after) left after)
      | .output =>
        let (tokens, after) ← tagTokens (closingMark '\x7d' false) [] inside.length inside
        return before ++ .output tokens :: (← segmentsFrom (endsLine source after) left after)
      | .statement =>
        match wordStatement? "raw".toList rawClosing inside with
        | some body =>
          match verbatim body with
          | none => throw .broken
          | some (content, inner, after) =>
            let kept := textBefore .statement inner (endsLine source body) content
            return before ++ textSegment kept ++ (← segmentsFrom (endsLine source after) left after)
        | none =>
          let (tokens, after) ← tagTokens statementClosing [] inside.length inside
          return before ++ .statement tokens :: (← segmentsFrom (endsLine source after) left after)

/-- The segments of a template file. -/
def segments (source : List Char) : Except Fault (List Segment) :=
  let unified := Text.unifyLineEnds source
  segmentsFrom true (unified.length + 1) unified

end Scaffold.Host.Stencil
