import Scaffold.Text.Search

/-!
# Command words

A command line is cut into words at spaces, tabs and line ends.  Quotes and backslashes protect
characters: single quotes protect everything, double quotes everything but a backslash before a quote or
a backslash, and a backslash outside of quotes protects the next character.  `join` writes words so that
`split` gives them back.
-/

namespace Scaffold.Command

/-- Why a command line has no words. -/
inductive SplitFault where
  | noClosingQuote
  | nothingEscaped
  deriving DecidableEq, Repr

/-- The wording of a fault. -/
def SplitFault.message : SplitFault → String
  | .noClosingQuote => "No closing quotation"
  | .nothingEscaped => "No escaped character"

/-- A character between words. -/
def isBreak (c : Char) : Bool := c == ' ' || c == '\t' || c == '\r' || c == '\n'

/-- A quotation mark. -/
def isMark (c : Char) : Bool := c == '\'' || c == '"'

/-- Where the reader of a command line stands. -/
inductive Place where
  | between
  | word
  | quoted (mark : Char)
  /-- Behind a backslash, outside of quotes or inside double quotes. -/
  | escaped (inQuotes : Bool)
  deriving DecidableEq, Repr

/-- The words of the rest of a command line; `word` is what has been read of the current word. -/
def splitFrom (place : Place) (word : List Char) : List Char → Except SplitFault (List (List Char))
  | [] =>
    match place with
    | .between => .ok []
    | .word => .ok [word]
    | .quoted _ => .error .noClosingQuote
    | .escaped _ => .error .nothingEscaped
  | c :: rest =>
    match place with
    | .between =>
      if isBreak c then splitFrom .between [] rest
      else if c == '\\' then splitFrom (.escaped false) [] rest
      else if isMark c then splitFrom (.quoted c) [] rest
      else splitFrom .word [c] rest
    | .word =>
      if isBreak c then (splitFrom .between [] rest).map (word :: ·)
      else if c == '\\' then splitFrom (.escaped false) word rest
      else if isMark c then splitFrom (.quoted c) word rest
      else splitFrom .word (word ++ [c]) rest
    | .quoted mark =>
      if c == mark then splitFrom .word word rest
      else if c == '\\' && mark == '"' then splitFrom (.escaped true) word rest
      else splitFrom (.quoted mark) (word ++ [c]) rest
    | .escaped false => splitFrom .word (word ++ [c]) rest
    | .escaped true =>
      if c == '"' || c == '\\' then splitFrom (.quoted '"') (word ++ [c]) rest
      else splitFrom (.quoted '"') (word ++ ['\\', c]) rest

/-- The words of a command line. -/
def split (line : String) : Except SplitFault (List String) :=
  (splitFrom .between [] line.toList).map fun words => words.map String.ofList

/-- A character that needs no protection. -/
def isPlain (c : Char) : Bool :=
  c.isAlphanum || "_@%+=:,./-".toList.contains c

/-- A word between single quotes; a single quote inside stands between double quotes. -/
def protect (word : List Char) : List Char :=
  '\'' :: word.flatMap (fun c => if c == '\'' then "'\"'\"'".toList else [c]) ++ ['\'']

/-- A word as it is written in a command line. -/
def writeWord (word : List Char) : List Char :=
  if !word.isEmpty && word.all isPlain then word else protect word

/-- The command line of words. -/
def join (words : List String) : String :=
  String.ofList (Text.joinWith [' '] (words.map fun word => writeWord word.toList))

end Scaffold.Command
