import Scaffold.Text.Word
import Scaffold.Text.Blank

/-!
# Patterns

A pattern maps a text to the texts that may follow a match at its start, the preferred one first.
Alternatives are explored in order and repetitions prefer to be long, so the first remainder is the one
that a search with backtracking would stop at.
-/

namespace Scaffold.Text

/-- The texts that may follow a match. -/
abbrev Pattern := List Char → List (List Char)

namespace Pattern

/-- Exactly the given characters. -/
def literal (word : List Char) : Pattern := fun text =>
  if word.isPrefixOf text then [text.drop word.length] else []

/-- Exactly the characters of a string. -/
def word (text : String) : Pattern := literal text.toList

/-- One character of a class. -/
def one (accept : Char → Bool) : Pattern
  | [] => []
  | c :: rest => if accept c then [rest] else []

/-- Any number of characters of a class. -/
def many (accept : Char → Bool) : Pattern
  | [] => [[]]
  | c :: rest => if accept c then many accept rest ++ [c :: rest] else [c :: rest]

/-- At least one character of a class. -/
def some (accept : Char → Bool) : Pattern := fun text => (one accept text).flatMap (many accept)

/-- One pattern, then another. -/
def next (first second : Pattern) : Pattern := fun text => (first text).flatMap second

/-- Patterns one after the other. -/
def all (patterns : List Pattern) : Pattern := patterns.foldr next fun text => [text]

/-- One pattern, or else another. -/
def either (first second : Pattern) : Pattern := fun text => first text ++ second text

/-- A pattern, or nothing. -/
def optional (pattern : Pattern) : Pattern := either pattern fun text => [text]

/-- The end of a word whose last character is given. -/
def wordEnd (last : Char) : Pattern := fun text =>
  if isWord last != (text.head?.map isWord).getD false then [text] else []

/-- Whether a pattern matches the start of a text. -/
def matchesStart (pattern : Pattern) (text : List Char) : Bool := !(pattern text).isEmpty

/-- Whether a pattern matches a whole text. -/
def matchesAll (pattern : Pattern) (text : List Char) : Bool := (pattern text).any List.isEmpty

/-- Blanks, at least one. -/
def blanks : Pattern := some isBlank

/-- Blanks, or none. -/
def anyBlanks : Pattern := many isBlank

end Pattern

/-- The parts of a text that start at the start of a line; `atStart` says whether the text itself does. -/
def lineStarts (atStart : Bool) : List Char → List (List Char)
  | [] => if atStart then [[]] else []
  | c :: rest => (if atStart then [c :: rest] else []) ++ lineStarts (c == '\n') rest

/-- The parts of a text that start at any of its characters, or at its end. -/
def tails : List Char → List (List Char)
  | [] => [[]]
  | c :: rest => (c :: rest) :: tails rest

end Scaffold.Text
