import Scaffold.Host.Yaml.Text
import Scaffold.Json.Token

/-!
# Quoted scalars

A line break inside of quotes is folded: it stands for a space, or for nothing if empty lines follow, each
of which stands for a line break.  Blanks around it are dropped.  Backslashes escape in double quotes; in
single quotes a quote is written twice.
-/

namespace Scaffold.Host.Yaml

/-- What stands between two characters of a quoted scalar. -/
inductive QuotedGap where
  | blanks (text : List Char)
  /-- The first line break, and the ones behind it. -/
  | folded (first : Char) (others : List Char)
  /-- The line breaks behind an escaped one. -/
  | joined (others : List Char)

namespace QuotedGap

/-- No gap. -/
def none : QuotedGap := .blanks []

/-- A gap that goes on with a blank; behind a line break blanks are dropped. -/
def blank (gap : QuotedGap) (c : Char) : QuotedGap :=
  match gap with
  | .blanks text => .blanks (text ++ [c])
  | _ => gap

/-- A gap that goes on with a line break. -/
def lineBreak (gap : QuotedGap) (c : Char) : QuotedGap :=
  match gap with
  | .blanks _ => .folded c []
  | .folded first others => .folded first (others ++ [c])
  | .joined others => .joined (others ++ [c])

/-- What a gap stands for. -/
def text : QuotedGap → List Char
  | .blanks text => text
  | .folded first others =>
    if first != '\n' then first :: others else if others.isEmpty then [' '] else others
  | .joined others => others

end QuotedGap

/-- Where a reader of a quoted scalar is. -/
inductive QuotedPlace where
  | inside (gap : QuotedGap)
  | escape
  /-- Inside of a character number: the digits to come, and the value of those read. -/
  | code (left value : Nat)

/-- The characters that short escapes stand for. -/
def escapes : List (Char × Char) :=
  [('0', '\x00'), ('a', '\x07'), ('b', '\x08'), ('t', '\t'), ('\t', '\t'), ('n', '\n'), ('v', '\x0b'),
   ('f', '\x0c'), ('r', '\r'), ('e', '\x1b'), (' ', ' '), ('"', '"'), ('\\', '\\'), ('/', '/'),
   ('N', '\x85'), ('_', '\xa0'), ('L', '\u2028'), ('P', '\u2029')]

/-- The number of digits of the escapes for character numbers. -/
def codeLengths : List (Char × Nat) := [('x', 2), ('u', 4), ('U', 8)]

/-- The character of a number; the number of half a character leaves the replacement character. -/
def charOf (code : Nat) : Except Fault Char :=
  if 0x80000000 ≤ code then .error .hugeCharacter
  else if 0x110000 ≤ code then .error .noCharacter
  else
    match Json.pieceOfCode code with
    | .whole c => .ok c
    | .half _ => .ok '\ufffd'

/-- Adds characters before what is read behind them. -/
def before (text : List Char) (read : Except Fault (List Char × List Char)) :
    Except Fault (List Char × List Char) :=
  read.map fun (behind, rest) => (text ++ behind, rest)

/-- Reads a quoted scalar from a place inside of it up to its closing quote; the answer is the scalar and
what follows. -/
def readQuoted (double : Bool) (place : QuotedPlace) :
    List Char → Except Fault (List Char × List Char)
  | [] => .error .malformed
  | c :: rest =>
    match place with
    | .code left value =>
      match Json.hexDigit? c with
      | none => .error .malformed
      | some digit =>
        match left with
        | 0 => .error .malformed
        | 1 => do before [← charOf (16 * value + digit)] (readQuoted double (.inside .none) rest)
        | more + 1 => readQuoted double (.code more (16 * value + digit)) rest
    | .escape =>
      if isBreak c then
        if atSeparator rest then .error .malformed
        else readQuoted double (.inside (.joined [])) rest
      else
        match escapes.lookup c, codeLengths.lookup c with
        | some meant, _ => before [meant] (readQuoted double (.inside .none) rest)
        | none, some length => readQuoted double (.code length 0) rest
        | none, none => .error .malformed
    | .inside gap =>
      if isBlank c then readQuoted double (.inside (gap.blank c)) rest
      else if isBreak c then
        if atSeparator rest then .error .malformed
        else readQuoted double (.inside (gap.lineBreak c)) rest
      else if double then
        if c == '"' then .ok (gap.text, rest)
        else if c == '\\' then before gap.text (readQuoted double .escape rest)
        else before (gap.text ++ [c]) (readQuoted double (.inside .none) rest)
      else if c == '\'' then
        match rest with
        | '\'' :: behind => before (gap.text ++ [c]) (readQuoted double (.inside .none) behind)
        | _ => .ok (gap.text, rest)
      else before (gap.text ++ [c]) (readQuoted double (.inside .none) rest)

/-! ## Plain scalars

A scalar without quotes ends at a colon before a gap, at a comment, at the signs of collections inside of
brackets, and on a line that is not indented deeply enough.  Line breaks are folded as in quotes.
-/

/-- What stands between two characters of a plain scalar. -/
inductive PlainGap where
  | spaces (count : Nat)
  /-- The first line break, the ones behind it, and the spaces at the start of the last line. -/
  | folded (first : Char) (others : List Char) (column : Nat)

namespace PlainGap

/-- No gap. -/
def none : PlainGap := .spaces 0

/-- Whether there is no gap. -/
def isNone : PlainGap → Bool
  | .spaces 0 => true
  | _ => false

/-- Whether a gap goes over the end of a line. -/
def isFolded : PlainGap → Bool
  | .spaces _ => false
  | .folded _ _ _ => true

/-- A gap that goes on with a space. -/
def space : PlainGap → PlainGap
  | .spaces count => .spaces (count + 1)
  | .folded first others column => .folded first others (column + 1)

/-- A gap that goes on with a line break. -/
def lineBreak (gap : PlainGap) (c : Char) : PlainGap :=
  match gap with
  | .spaces _ => .folded c [] 0
  | .folded first others _ => .folded first (others ++ [c]) 0

/-- Whether the last line of a gap starts before a column. -/
def isShallow (gap : PlainGap) (indent : Nat) : Bool :=
  match gap with
  | .spaces _ => false
  | .folded _ _ column => column < indent

/-- What a gap stands for. -/
def text : PlainGap → List Char
  | .spaces count => List.replicate count ' '
  | .folded first others _ =>
    if first != '\n' then first :: others else if others.isEmpty then [' '] else others

end PlainGap

/-- The signs that end a plain scalar inside of brackets. -/
def flowSigns : List Char := [',', '?', '[', ']', '\x7b', '\x7d']

/-- Whether a plain scalar ends at a character, given what follows it. -/
def endsPlain (inFlow : Bool) (c : Char) (rest : List Char) : Bool :=
  isBlank c || isBreak c
    || (c == ':' && (atGap rest || (inFlow && [',', '[', ']', '\x7b', '\x7d'].contains (rest.headD ' '))))
    || (inFlow && flowSigns.contains c)

/-- The signs that start no plain scalar. -/
def startSigns : List Char :=
  ['-', '?', ':', ',', '[', ']', '\x7b', '\x7d', '#', '&', '*', '!', '|', '>', '\'', '"', '%', '@',
   '\x60']

/-- Whether a plain scalar starts at a character, given what follows it. -/
def startsPlain (inFlow : Bool) (c : Char) (rest : List Char) : Bool :=
  !(isBlank c || isBreak c || startSigns.contains c)
    || (!atGap rest && (c == '-' || (!inFlow && (c == '?' || c == ':'))))

/-- A plain scalar, what follows it, and whether a line ended behind it. -/
structure PlainText where
  text : List Char
  rest : List Char
  lineEnded : Bool

/-- Reads a plain scalar from a gap inside of it. -/
def readPlain (inFlow : Bool) (indent : Nat) (gap : PlainGap) : List Char → PlainText
  | [] => ⟨[], [], gap.isFolded⟩
  | c :: rest =>
    if c == ' ' then readPlain inFlow indent gap.space rest
    else if isBreak c then
      if atSeparator rest then ⟨[], rest, true⟩
      else readPlain inFlow indent (gap.lineBreak c) rest
    else if (c == '#' && !gap.isNone) || (!inFlow && gap.isShallow indent) || endsPlain inFlow c rest then
      ⟨[], c :: rest, gap.isFolded⟩
    else
      let behind := readPlain inFlow indent .none rest
      { behind with text := gap.text ++ c :: behind.text }

/-! ## Block scalars

The lines below a bar or an angle that are indented more than what contains them.  Below a bar the lines
are kept as they are; below an angle line breaks between lines that start with no blank are folded.
-/

/-- The head of a block scalar. -/
structure BlockHeader where
  isFolded : Bool
  /-- Whether the line breaks at the end are kept or dropped; by default one is kept. -/
  keepEnd : Option Bool
  /-- The indentation relative to what contains the scalar; by default that of the first line. -/
  indent : Option Nat

/-- The sign that says what happens to the line breaks at the end. -/
def endSign? : List Char → Option (Bool × List Char)
  | '+' :: rest => some (true, rest)
  | '-' :: rest => some (false, rest)
  | _ => none

/-- The digit that gives the indentation. -/
def indentDigit? (text : List Char) : Except Fault (Option Nat × List Char) :=
  match text with
  | c :: rest =>
    if c == '0' then .error .malformed
    else if '1' ≤ c && c ≤ '9' then .ok (some (c.toNat - 48), rest)
    else .ok (none, text)
  | [] => .ok (none, [])

/-- Reads the signs of a head, in either order. -/
def readSigns (text : List Char) : Except Fault (Option Bool × Option Nat × List Char) := do
  match endSign? text with
  | some (keep, rest) =>
    let (indent, behind) ← indentDigit? rest
    return (some keep, indent, behind)
  | none =>
    let (indent, rest) ← indentDigit? text
    match indent, endSign? rest with
    | some _, some (keep, behind) => return (some keep, indent, behind)
    | _, _ => return (none, indent, rest)

/-- Reads a head, behind its bar or angle, with the line it stands on. -/
def readHeader (isFolded : Bool) (text : List Char) : Except Fault (BlockHeader × List Char) := do
  let (keepEnd, indent, behind) ← readSigns text
  if atSpace behind then return (⟨isFolded, keepEnd, indent⟩, ← afterEmptyRest behind)
  else throw .malformed

/-- The line breaks before the first line, the column of the line, the largest column met, and the
text from there. -/
def firstLine (column widest : Nat) : List Char → List Char × Nat × Nat × List Char
  | [] => ([], column, widest, [])
  | c :: rest =>
    if c == ' ' then firstLine (column + 1) (max widest (column + 1)) rest
    else if isBreak c then
      let (breaks, behind) := firstLine 0 widest rest
      (c :: breaks, behind)
    else ([], column, widest, c :: rest)

/-- Where a reader of a block scalar is. -/
inductive BlockPlace where
  /-- At the start of a line: the column, the line break that ended the last line together with whether
  that line started with no blank, and the line breaks of empty lines behind it. -/
  | margin (column : Nat) (last : Option (Char × Bool)) (breaks : List Char)
  /-- Inside of a line, which started with no blank or with one. -/
  | line (flush : Bool)

/-- What stands between two lines, the second of which starts with a character. -/
def joint (isFolded : Bool) (last : Option (Char × Bool)) (breaks : List Char) (next : Char) :
    List Char :=
  match last with
  | none => breaks
  | some (lineBreak, flush) =>
    if isFolded && lineBreak == '\n' && flush && !isBlank next then
      if breaks.isEmpty then [' '] else breaks
    else lineBreak :: breaks

/-- What stands behind the last line. -/
def ending (keepEnd : Option Bool) (last : Option (Char × Bool)) (breaks : List Char) : List Char :=
  let one := match last with
    | none => []
    | some (lineBreak, _) => [lineBreak]
  match keepEnd with
  | none => one
  | some false => []
  | some true => one ++ breaks

/-- Reads the lines of a block scalar; the answer is the scalar and what follows. -/
def readLines (header : BlockHeader) (indent : Nat) (place : BlockPlace) :
    List Char → List Char × List Char
  | [] =>
    match place with
    | .margin _ last breaks => (ending header.keepEnd last breaks, [])
    | .line _ => ([], [])
  | c :: rest =>
    match place with
    | .line flush =>
      if isBreak c then readLines header indent (.margin 0 (some (c, flush)) []) rest
      else
        let (behind, after) := readLines header indent (.line flush) rest
        (c :: behind, after)
    | .margin column last breaks =>
      if c == ' ' && column < indent then
        readLines header indent (.margin (column + 1) last breaks) rest
      else if isBreak c then readLines header indent (.margin 0 last (breaks ++ [c])) rest
      else if column == indent then
        let (behind, after) := readLines header indent (.line (!isBlank c)) rest
        (joint header.isFolded last breaks c ++ c :: behind, after)
      else (ending header.keepEnd last breaks, c :: rest)

/-- Reads a block scalar behind its bar or angle; `least` is the least indentation of its lines. -/
def readBlock (isFolded : Bool) (least : Nat) (text : List Char) :
    Except Fault (List Char × List Char) := do
  let (header, body) ← readHeader isFolded text
  match header.indent with
  | some more => return readLines header (least + more - 1) (.margin 0 none []) body
  | none =>
    let (breaks, column, widest, rest) := firstLine 0 0 body
    return readLines header (max least widest) (.margin column none breaks) rest

end Scaffold.Host.Yaml
