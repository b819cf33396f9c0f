import Scaffold.Host.Yaml.Scalar
import Scaffold.Host.Yaml.Text

/-!
# Scanning documents

Collections without brackets start and end where the indentation changes.  A scalar or a collection may
turn out to be a key when the colon behind it is met; the token that says so is then put before it, so
every place where a key may have started is kept until it cannot be one any more.

The tokens are the signs and scalars of a document, with the starts and ends of the collections that indentation
shows.
-/

namespace Scaffold.Host.Yaml

/-- A token of a document. -/
inductive Token where
  | directive (directive : Directive)
  | documentStart
  | documentEnd
  | blockSequenceStart
  | blockMappingStart
  /-- The end of a collection that indentation shows. -/
  | blockEnd
  | flowSequenceStart
  | flowSequenceEnd
  | flowMappingStart
  | flowMappingEnd
  | blockEntry
  | flowEntry
  | key
  | value
  | anchor (name : String)
  | alias (name : String)
  | tag (tag : WrittenTag)
  /-- A scalar; a plain one has no quotes and is no block. -/
  | scalar (text : String) (plain : Bool)
  deriving DecidableEq, Repr

/-- A place in a document. -/
structure Cursor where
  rest : List Char
  index : Nat
  line : Nat
  column : Nat

namespace Cursor

/-- The place behind the next character. -/
def next (cursor : Cursor) : Cursor :=
  match cursor.rest with
  | [] => cursor
  | c :: rest =>
    if isBreak c then ⟨rest, cursor.index + 1, cursor.line + 1, 0⟩
    else if c == '\ufeff' then ⟨rest, cursor.index + 1, cursor.line, cursor.column⟩
    else ⟨rest, cursor.index + 1, cursor.line, cursor.column + 1⟩

/-- The place behind a number of characters. -/
def skip (cursor : Cursor) : Nat → Cursor
  | 0 => cursor
  | count + 1 => cursor.next.skip count

/-- The place at which a rest of the text starts. -/
def skipTo (cursor : Cursor) (rest : List Char) : Cursor :=
  cursor.skip (cursor.rest.length - rest.length)

end Cursor

/-- A place where a key may have started. -/
structure PossibleKey where
  /-- The number of tokens before it. -/
  position : Nat
  /-- Whether the indentation leaves room for nothing but a key. -/
  isRequired : Bool
  index : Nat
  line : Nat
  column : Nat

/-- The state of a scan. -/
structure Scanner where
  cursor : Cursor
  tokens : List Token
  /-- The columns of the open collections without brackets, innermost first. -/
  indents : List Nat
  /-- Where a key may have started, for every open pair of brackets and outside of them. -/
  keys : List (Option PossibleKey)
  /-- Whether a key may start here. -/
  allowsKey : Bool

namespace Scanner

/-- The start of a text. -/
def start (text : List Char) : Scanner := ⟨⟨text, 0, 0, 0⟩, [], [], [none], true⟩

/-- Whether the scan is inside of brackets. -/
def inFlow (scanner : Scanner) : Bool := 1 < scanner.keys.length

/-- The longest key that is not marked as one. -/
def maxKey : Nat := 1024

/-- The least column of what belongs to the innermost open collection. -/
def innerColumn (scanner : Scanner) : Nat :=
  match scanner.indents with
  | [] => 0
  | column :: _ => column + 1

/-- Adds a token. -/
def emit (scanner : Scanner) (token : Token) : Scanner :=
  { scanner with tokens := scanner.tokens ++ [token] }

/-- Goes to a rest of the text. -/
def goTo (scanner : Scanner) (rest : List Char) : Scanner :=
  { scanner with cursor := scanner.cursor.skipTo rest }

/-- Goes behind a number of characters. -/
def advance (scanner : Scanner) (count : Nat) : Scanner :=
  { scanner with cursor := scanner.cursor.skip count }

/-- Says whether a key may start. -/
def allow (scanner : Scanner) (allowsKey : Bool) : Scanner := { scanner with allowsKey }

/-- The number of blanks, comments and line breaks at the start of a text. -/
def gapLength (inComment : Bool) : List Char → Nat
  | [] => 0
  | c :: rest =>
    if isBreak c then gapLength false rest + 1
    else if inComment then gapLength true rest + 1
    else if c == ' ' then gapLength false rest + 1
    else if c == '#' then gapLength true rest + 1
    else 0

/-- Goes to the next token; outside of brackets a key may start on a new line. -/
def toToken (scanner : Scanner) : Scanner :=
  let count := gapLength false scanner.cursor.rest
  let crossed := (scanner.cursor.rest.take count).any isBreak
  (scanner.advance count).allow (scanner.allowsKey || (crossed && !scanner.inFlow))

/-- Forgets a place where a key may have started, when the key would be on another line or too long. -/
def expire (scanner : Scanner) (key : PossibleKey) : Except Fault (Option PossibleKey) :=
  if key.line != scanner.cursor.line || maxKey < scanner.cursor.index - key.index then
    if key.isRequired then .error .malformed else .ok none
  else .ok (some key)

/-- Forgets all places where a key can no longer have started. -/
def expireKeys (scanner : Scanner) : Except Fault Scanner := do
  let keys ← scanner.keys.mapM fun candidate =>
    match candidate with
    | none => .ok none
    | some key => scanner.expire key
  return { scanner with keys }

/-- Forgets the innermost place where a key may have started. -/
def dropKey (scanner : Scanner) : Except Fault Scanner :=
  match scanner.keys with
  | some key :: outer =>
    if key.isRequired then .error .malformed else .ok { scanner with keys := none :: outer }
  | _ => .ok scanner

/-- Notes that a key may start here. -/
def noteKey (scanner : Scanner) : Except Fault Scanner := do
  if scanner.allowsKey then
    let cleared ← scanner.dropKey
    let isRequired := !scanner.inFlow && scanner.indents.head? == some scanner.cursor.column
    let key : PossibleKey := ⟨scanner.tokens.length, isRequired, scanner.cursor.index,
      scanner.cursor.line, scanner.cursor.column⟩
    return { cleared with keys := some key :: cleared.keys.drop 1 }
  else return scanner

/-- Closes the collections that start behind a column; inside of brackets there are none. -/
def unwind (scanner : Scanner) (column : Nat) : Scanner :=
  if scanner.inFlow then scanner
  else
    let closed := scanner.indents.takeWhile fun indent => column < indent
    { scanner with
      indents := scanner.indents.drop closed.length
      tokens := scanner.tokens ++ closed.map fun _ => .blockEnd }

/-- Closes all collections without brackets. -/
def unwindAll (scanner : Scanner) : Scanner :=
  if scanner.inFlow then scanner
  else
    { scanner with
      indents := []
      tokens := scanner.tokens ++ scanner.indents.map fun _ => .blockEnd }

/-- Whether a column is behind that of the innermost open collection. -/
def isDeeper (scanner : Scanner) (column : Nat) : Bool :=
  match scanner.indents with
  | [] => true
  | indent :: _ => indent < column

/-- Opens a collection at the current column, unless one is open there. -/
def openBlock (scanner : Scanner) (token : Token) : Scanner :=
  let column := scanner.cursor.column
  if scanner.isDeeper column then
    { scanner.emit token with indents := column :: scanner.indents }
  else scanner

/-- A mark that separates documents. -/
def separator (scanner : Scanner) (token : Token) : Except Fault Scanner := do
  let cleared ← scanner.unwindAll.dropKey
  return ((cleared.emit token).advance 3).allow false

/-- A directive. -/
def directive (scanner : Scanner) : Except Fault Scanner := do
  let cleared ← scanner.unwindAll.dropKey
  let (directive, rest) ← readDirective (cleared.cursor.rest.drop 1)
  return ((cleared.emit (.directive directive)).goTo rest).allow false

/-- An opening bracket. -/
def openFlow (scanner : Scanner) (token : Token) : Except Fault Scanner := do
  let noted ← scanner.noteKey
  return (({ noted with keys := none :: noted.keys }.emit token).advance 1).allow true

/-- A closing bracket. -/
def closeFlow (scanner : Scanner) (token : Token) : Except Fault Scanner := do
  if scanner.inFlow then
    let cleared ← scanner.dropKey
    return (({ cleared with keys := cleared.keys.drop 1 }.emit token).advance 1).allow false
  else throw .malformed

/-- A comma between brackets. -/
def flowEntry (scanner : Scanner) : Except Fault Scanner := do
  return (((← scanner.dropKey).emit .flowEntry).advance 1).allow true

/-- Opens a collection without brackets for a sign that starts its items. -/
def startItem (scanner : Scanner) (collection : Token) : Except Fault Scanner :=
  if scanner.inFlow then .ok scanner
  else if scanner.allowsKey then .ok (scanner.openBlock collection)
  else .error .malformed

/-- A dash before an item. -/
def blockEntry (scanner : Scanner) : Except Fault Scanner := do
  let cleared ← (← scanner.startItem .blockSequenceStart).dropKey
  return ((cleared.emit .blockEntry).advance 1).allow true

/-- A question mark before a key. -/
def explicitKey (scanner : Scanner) : Except Fault Scanner := do
  let cleared ← (← scanner.startItem .blockMappingStart).dropKey
  return ((cleared.emit .key).advance 1).allow !scanner.inFlow

/-- Puts tokens before the one at a position. -/
def insertTokens (scanner : Scanner) (position : Nat) (tokens : List Token) : Scanner :=
  { scanner with
    tokens := scanner.tokens.take position ++ tokens ++ scanner.tokens.drop position }

/-- A colon before a value: what was noted as a possible key is one. -/
def valueSign (scanner : Scanner) : Except Fault Scanner := do
  match scanner.keys with
  | some key :: outer =>
    let forgotten := { scanner with keys := none :: outer }
    let marked :=
      if !scanner.inFlow && scanner.isDeeper key.column then
        { forgotten.insertTokens key.position [.blockMappingStart, .key] with
          indents := key.column :: scanner.indents }
      else forgotten.insertTokens key.position [.key]
    return ((marked.emit .value).advance 1).allow false
  | _ =>
    let cleared ← (← scanner.startItem .blockMappingStart).dropKey
    return ((cleared.emit .value).advance 1).allow !scanner.inFlow

/-- A token that may be a key or the start of one. -/
def keyToken (scanner : Scanner) (token : Token) (rest : List Char) : Except Fault Scanner := do
  return (((← scanner.noteKey).emit token).goTo rest).allow false

/-- A scalar in quotes. -/
def quoted (scanner : Scanner) (double : Bool) (rest : List Char) : Except Fault Scanner := do
  let (text, behind) ← readQuoted double (.inside .none) rest
  scanner.keyToken (.scalar (String.ofList text) false) behind

/-- A scalar below a bar or an angle. -/
def block (scanner : Scanner) (isFolded : Bool) (rest : List Char) : Except Fault Scanner := do
  let cleared ← (scanner.allow true).dropKey
  let (text, behind) ← readBlock isFolded (max 1 scanner.innerColumn) rest
  return (cleared.emit (.scalar (String.ofList text) false)).goTo behind

/-- A plain scalar. -/
def plain (scanner : Scanner) : Except Fault Scanner := do
  let noted ← scanner.noteKey
  let read := readPlain scanner.inFlow scanner.innerColumn .none scanner.cursor.rest
  return ((noted.emit (.scalar (String.ofList read.text) true)).goTo read.rest).allow read.lineEnded

/-- The token at a character, given what follows it. -/
def token (scanner : Scanner) (c : Char) (rest : List Char) : Except Fault Scanner :=
  let atStart := scanner.cursor.column == 0
  let opensItem := atGap rest
  let opensPair := scanner.inFlow || opensItem
  if c == '%' && atStart then scanner.directive
  else if atStart && atMark '-' (c :: rest) then scanner.separator .documentStart
  else if atStart && atMark '.' (c :: rest) then scanner.separator .documentEnd
  else if c == '[' then scanner.openFlow .flowSequenceStart
  else if c == '\x7b' then scanner.openFlow .flowMappingStart
  else if c == ']' then scanner.closeFlow .flowSequenceEnd
  else if c == '\x7d' then scanner.closeFlow .flowMappingEnd
  else if c == ',' then scanner.flowEntry
  else if c == '-' && opensItem then scanner.blockEntry
  else if c == '?' && opensPair then scanner.explicitKey
  else if c == ':' && opensPair then scanner.valueSign
  else if c == '*' then do
    let (name, behind) ← readName rest
    scanner.keyToken (.alias name) behind
  else if c == '&' then do
    let (name, behind) ← readName rest
    scanner.keyToken (.anchor name) behind
  else if c == '!' then do
    let (tag, behind) ← readTag (c :: rest)
    scanner.keyToken (.tag tag) behind
  else if c == '|' && !scanner.inFlow then scanner.block false rest
  else if c == '>' && !scanner.inFlow then scanner.block true rest
  else if c == '\'' then scanner.quoted false rest
  else if c == '"' then scanner.quoted true rest
  else if startsPlain scanner.inFlow c rest then scanner.plain
  else .error .malformed

/-- Reads all tokens that remain. -/
def finish (scanner : Scanner) : Except Fault (List Token) := do
  let ready ← scanner.toToken.expireKeys
  match ready.cursor.rest with
  | [] => return (← ready.unwindAll.dropKey).tokens
  | c :: rest =>
    let after ← (ready.unwind ready.cursor.column).token c rest
    -- Every token takes at least one character.
    if _shorter : after.cursor.rest.length < scanner.cursor.rest.length then after.finish
    else throw .malformed
termination_by scanner.cursor.rest.length

end Scanner

/-- The tokens of a text. -/
def tokens (text : List Char) : Except Fault (List Token) :=
  if text.all isAllowed then
    let unified := unifyBreaks text
    (Scanner.start (if unified.head? == some '\ufeff' then unified.drop 1 else unified)).finish
  else .error .malformed

end Scaffold.Host.Yaml
