import Scaffold.Json.Token
import Scaffold.Text.Search
import Scaffold.Text.Utf8
import Scaffold.Value.Moment

/-!
# Characters of documents

Line breaks, blanks, and the marks that separate documents; and the faults of reading a document.
-/

namespace Scaffold.Host.Yaml

/-- Why a text has no value. -/
inductive Fault where
  /-- The text is no document. -/
  | malformed
  /-- A character number is beyond the last character. -/
  | noCharacter
  /-- A character number has more than 31 bits. -/
  | hugeCharacter
  | notInteger (base : Nat) (text : String)
  | tooManyDigits (count : Nat)
  | notNumber (text : String)
  | notTruth (text : String)
  | moment (fault : Moment.Fault)
  /-- A text that is tagged as a moment and is none. -/
  | notMoment
  /-- A number is empty. -/
  | emptyNumber
  deriving DecidableEq, Repr

/-- Line breaks, once their spellings are unified. -/
def isBreak (c : Char) : Bool := c == '\n' || c == '\u2028' || c == '\u2029'

/-- Spaces and tabs. -/
def isBlank (c : Char) : Bool := c == ' ' || c == '\t'

/-- A text in which a line feed is the only spelling of the line breaks that stand for it. -/
def unifyBreaks (text : List Char) : List Char :=
  (Text.unifyLineEnds text).map fun c => if c == '\x85' then '\n' else c

/-- Characters that may stand in a document. -/
def isAllowed (c : Char) : Bool :=
  c == '\t' || c == '\n' || c == '\r' || c == '\x85' || (' ' ≤ c && c ≤ '~')
    || ('\xa0' ≤ c && c.toNat != 0xFFFE && c.toNat != 0xFFFF)

/-- Whether a text is at the end of a line. -/
def atBreak : List Char → Bool
  | [] => true
  | c :: _ => isBreak c

/-- Whether a text is at a space or at the end of a line. -/
def atSpace : List Char → Bool
  | [] => true
  | c :: _ => c == ' ' || isBreak c

/-- Whether a text is at a space, at a tab or at the end of a line. -/
def atGap : List Char → Bool
  | [] => true
  | c :: _ => isBlank c || isBreak c

/-- Whether a text is at a mark of three equal characters that stands alone. -/
def atMark (mark : Char) : List Char → Bool
  | a :: b :: c :: rest => a == mark && b == mark && c == mark && atGap rest
  | _ => false

/-- Whether a text is at a mark that separates documents. -/
def atSeparator (text : List Char) : Bool := atMark '-' text || atMark '.' text

/-- Characters of names. -/
def isNameChar (c : Char) : Bool :=
  ('0' ≤ c && c ≤ '9') || ('A' ≤ c && c ≤ 'Z') || ('a' ≤ c && c ≤ 'z') || c == '-' || c == '_'

/-- What follows on a line that has to be empty: blanks and a comment, up to the end of the line. -/
def afterEmptyRest (text : List Char) : Except Fault (List Char) :=
  let behind := text.dropWhile (· == ' ')
  let rest := if behind.head? == some '#' then behind.dropWhile fun c => !isBreak c else behind
  if atBreak rest then .ok (rest.drop 1) else .error .malformed

/-! ## Properties and directives

The names of anchors, the tags of nodes, and the lines before a document that say how tags are
abbreviated.
-/

/-- A written tag: its handle, if it has one, and what follows the handle. -/
structure WrittenTag where
  handle : Option String
  suffix : String
  deriving DecidableEq, Repr

/-- A line before a document. -/
inductive Directive where
  | version (major : Nat)
  | tag (handle start : String)
  | unknown
  deriving DecidableEq, Repr

/-- Reads the name of an anchor. -/
def readName (text : List Char) : Except Fault (String × List Char) :=
  let name := text.takeWhile isNameChar
  let rest := text.dropWhile isNameChar
  let ended := atGap rest || ['?', ':', ',', ']', '\x7d', '%', '@', '\x60'].contains (rest.headD ' ')
  if name.isEmpty || !ended then .error .malformed else .ok (String.ofList name, rest)

/-- Characters of tags, percent signs aside. -/
def isTagChar (c : Char) : Bool :=
  isNameChar c || "-;/?:@&=+$,_.!~*'()[]".toList.contains c

/-- Reads the bytes that percent signs stand for. -/
def readBytes : List Char → Except Fault (List UInt8 × List Char)
  | '%' :: a :: b :: rest =>
    match Json.hexDigit? a, Json.hexDigit? b with
    | some high, some low => do
      let (bytes, behind) ← readBytes rest
      return (UInt8.ofNat (16 * high + low) :: bytes, behind)
    | _, _ => .error .malformed
  | '%' :: _ => .error .malformed
  | rest => .ok ([], rest)

/-- Reads the characters of a tag.  `fuel` bounds their number. -/
def readTagChars (fuel : Nat) (text : List Char) : Except Fault (List Char × List Char) :=
  match fuel, text with
  | left + 1, c :: rest =>
    if c == '%' then do
      let (bytes, behind) ← readBytes text
      match Text.decode ⟨bytes.toArray⟩ with
      | .error _ => throw .malformed
      | .ok decoded =>
        let (others, after) ← readTagChars left behind
        return (decoded.toList ++ others, after)
    else if isTagChar c then do
      let (others, after) ← readTagChars left rest
      return (c :: others, after)
    else .ok ([], text)
  | _, _ => .ok ([], text)

/-- Reads the part of a tag behind its handle, which is not empty. -/
def readSuffix (text : List Char) : Except Fault (String × List Char) := do
  let (suffix, rest) ← readTagChars text.length text
  if rest.length == text.length then throw .malformed else return (String.ofList suffix, rest)

/-- Reads a handle: an exclamation mark, or a name between two of them. -/
def readHandle : List Char → Except Fault (String × List Char)
  | '!' :: rest =>
    if rest.head? == some ' ' then .ok ("!", rest)
    else
      match rest.dropWhile isNameChar with
      | '!' :: behind =>
        .ok (String.ofList ('!' :: rest.takeWhile isNameChar ++ ['!']), behind)
      | _ => .error .malformed
  | _ => .error .malformed

/-- Reads a tag that has to end at a space or at the end of a line. -/
def endedTag (tag : WrittenTag) (rest : List Char) : Except Fault (WrittenTag × List Char) :=
  if atSpace rest then .ok (tag, rest) else .error .malformed

/-- Reads a tag from its exclamation mark on. -/
def readTag (text : List Char) : Except Fault (WrittenTag × List Char) := do
  let behind := text.drop 1
  if behind.head? == some '<' then
    let (suffix, rest) ← readSuffix (behind.drop 1)
    if rest.head? == some '>' then endedTag ⟨none, suffix⟩ (rest.drop 1) else throw .malformed
  else if atGap behind then endedTag ⟨none, "!"⟩ behind
  else if (behind.takeWhile fun c => !(c == ' ' || isBreak c)).contains '!' then
    let (handle, named) ← readHandle text
    let (suffix, rest) ← readSuffix named
    endedTag ⟨some handle, suffix⟩ rest
  else
    let (suffix, rest) ← readSuffix behind
    endedTag ⟨some "!", suffix⟩ rest

/-- Reads a number of a version. -/
def readVersionNumber (text : List Char) : Except Fault (Nat × List Char) :=
  let digits := text.takeWhile Char.isDigit
  if digits.isEmpty then .error .malformed
  else
    .ok (digits.foldl (fun value digit => 10 * value + (digit.toNat - 48)) 0,
      text.dropWhile Char.isDigit)

/-- Reads a version. -/
def readVersion (text : List Char) : Except Fault (Directive × List Char) := do
  let (major, behind) ← readVersionNumber (text.dropWhile (· == ' '))
  if behind.head? == some '.' then
    let (_, rest) ← readVersionNumber (behind.drop 1)
    if atSpace rest then return (.version major, rest) else throw .malformed
  else throw .malformed

/-- Reads an abbreviation of tags. -/
def readAbbreviation (text : List Char) : Except Fault (Directive × List Char) := do
  let (handle, behind) ← readHandle (text.dropWhile (· == ' '))
  if behind.head? == some ' ' then
    let (start, rest) ← readSuffix (behind.dropWhile (· == ' '))
    if atSpace rest then return (.tag handle start, rest) else throw .malformed
  else throw .malformed

/-- Reads a directive behind its percent sign, with the line it stands on. -/
def readDirective (text : List Char) : Except Fault (Directive × List Char) := do
  let name := text.takeWhile isNameChar
  let behind := text.dropWhile isNameChar
  if name.isEmpty || !atSpace behind then throw .malformed
  else
    let (directive, rest) ←
      if name == "YAML".toList then readVersion behind
      else if name == "TAG".toList then readAbbreviation behind
      else pure (Directive.unknown, behind.dropWhile fun c => !isBreak c)
    return (directive, ← afterEmptyRest rest)

end Scaffold.Host.Yaml
