import Scaffold.Text.Pattern
import Scaffold.Text.Lines
import Scaffold.Text.Search

/-!
# Import statements

Which lines of a script are import statements, and where new ones go: behind the last one, or behind a
leading directive, or at the start.  A statement without its source continues on the following lines.
-/

namespace Scaffold.ImportStatement

open Scaffold.Text

/-- A quotation mark. -/
def isQuote (c : Char) : Bool := c == '\'' || c == '"'

/-- A quoted text that is not empty. -/
def quotedText : Pattern := .all [.one isQuote, .some fun c => !isQuote c, .one isQuote]

/-- What may follow a complete statement: blanks and one semicolon. -/
def statementEnd : Pattern := .all [.anyBlanks, .optional (.word ";"), .anyBlanks]

/-- The source of a statement and its end. -/
def sourceClause : Pattern := .all [.word "from", .blanks, quotedText, statementEnd]

/-- Whether a text ends with a source; `afterWord` says whether a word character stands before it. -/
def endsWithSource (afterWord : Bool) : List Char → Bool
  | [] => false
  | c :: rest =>
    (!afterWord && sourceClause.matchesAll (c :: rest)) || endsWithSource (isWord c) rest

/-- A statement that only names a source. -/
def sideEffect : Pattern := .all [.word "import", .blanks, quotedText, statementEnd]

/-- A directive that must stay in the first line. -/
def directive : Pattern :=
  .all [.anyBlanks, .one isQuote, .word "use ", .either (.word "client") (.word "server"), .one isQuote,
    statementEnd]

/-- Whether a trimmed line starts an import statement. -/
def startsImport (line : List Char) : Bool :=
  "import ".toList.isPrefixOf line || "import\x7b".toList.isPrefixOf line

/-- Whether a trimmed line is a complete import statement. -/
def isComplete (line : List Char) : Bool := endsWithSource false line || sideEffect.matchesAll line

/-- The number of lines up to the end of the last import statement.  `inside` says whether a statement
is open, `position` counts the lines read and `index` is the answer so far. -/
def scan (inside : Bool) (position index : Nat) : List (List Char) → Nat
  | [] => index
  | line :: rest =>
    let text := trim line
    if inside then
      if endsWithSource false text then scan false (position + 1) (position + 1) rest
      else scan true (position + 1) index rest
    else if startsImport text then
      if isComplete text then scan false (position + 1) (position + 1) rest
      else scan true (position + 1) index rest
    else scan false (position + 1) index rest

/-- The lines before the first import: one, if the first line is a directive. -/
def directiveLines : List (List Char) → Nat
  | [] => 0
  | first :: _ => if directive.matchesAll first then 1 else 0

/-- The number of lines that stand before new import statements. -/
def insertIndex (lines : List (List Char)) : Nat := scan false 0 (directiveLines lines) lines

/-- A character of a line end. -/
def isReturnOrFeed (c : Char) : Bool := c == '\r' || c == '\n'

/-- A line without the line end that closes it. -/
def withoutEnd (line : List Char) : List Char := trimRightWhere isReturnOrFeed line

/-- The line end that closes a line. -/
def endOf (line : List Char) : List Char := line.drop (withoutEnd line).length

/-- A text whose last line is complete. -/
def closed (text : List Char) : List Char :=
  if text.isEmpty || text.getLast? == some '\n' then text else text ++ ['\n']

/-- New statements on lines of their own. -/
def block (statements : List (List Char)) : List Char :=
  statements.flatMap fun statement => statement ++ ['\n']

/-- Whether an empty line must keep new statements at the start apart from what follows. -/
def needsGap (index : Nat) (lines : List (List Char)) : Bool :=
  index == 0 && (lines.head?.map fun first => !isAllBlank first).getD false

/-- Puts new statements behind the last import statement of a content. -/
def insert (content : List Char) (statements : List (List Char)) : List Char :=
  if statements.isEmpty then content
  else
    let lines := linesWithEnds content
    let index := insertIndex (lines.map withoutEnd)
    let gap := if needsGap index lines then ['\n'] else []
    closed (lines.take index).flatten ++ block statements ++ gap ++ (lines.drop index).flatten

end Scaffold.ImportStatement
