import Scaffold.Value.Basic

/-!
# Console

What the program asks the console to show: lines of markup, rules, tables and panels, in order.  Markup
itself is not interpreted; `escape` protects a text that is not meant as markup.
-/

namespace Scaffold

/-- One thing shown. -/
inductive Shown where
  | line (markup : String)
  | rule (title : String)
  | table (title : String) (columns : List String) (rows : List (List String))
  | panel (text border : String)
  deriving DecidableEq, Repr

namespace Markup

/-- Whether the text behind an opening bracket makes it a tag: a tag letter, and a closing bracket before
the next opening one. -/
def opensTag (rest : List Char) : Bool :=
  match rest with
  | [] => false
  | first :: body =>
    (('a' ≤ first && first ≤ 'z') || first == '#' || first == '/' || first == '@')
      && (body.dropWhile fun c => c != ']' && c != '[').head? == some ']'

/-- Escapes tags; `pending` backslashes stand just before the text. -/
def escapeFrom (pending : Nat) : List Char → List Char
  | [] => List.replicate pending '\\'
  | c :: rest =>
    if c == '\\' then escapeFrom (pending + 1) rest
    else if c == '[' && opensTag rest then
      List.replicate (2 * pending + 1) '\\' ++ '[' :: escapeFrom 0 rest
    else List.replicate pending '\\' ++ c :: escapeFrom 0 rest

/-- A text as markup that shows it: every tag gets a backslash, the backslashes before a tag are
doubled, and an odd number of backslashes at the end is made even. -/
def escapeChars (text : List Char) : List Char :=
  let escaped := escapeFrom 0 text
  if (escaped.reverse.takeWhile (· == '\\')).length % 2 == 1 then escaped ++ ['\\'] else escaped

/-- `escapeChars` on strings. -/
def escape (text : String) : String := String.ofList (escapeChars text.toList)

/-- A text in a style. -/
def styled (style text : String) : String := "[" ++ style ++ "]" ++ text ++ "[/" ++ style ++ "]"

end Markup

namespace Shown

/-- What is shown, as data; a line is its markup. -/
def toValue : Shown → Value
  | .line markup => .text markup
  | .rule title => .record [("rule", .text title)]
  | .table title columns rows =>
    .record [("table", .text title), ("columns", .texts columns),
      ("rows", .list (rows.map Value.texts))]
  | .panel content border => .record [("panel", .text content), ("border", .text border)]

/-- A rule that announces a section, with an empty line before and after it. -/
def sectionHeading (title : String) : List Shown :=
  [.line "", .rule (Markup.styled "bold bright_cyan" (" " ++ title ++ " ")), .line ""]

/-- A table of two columns, followed by an empty line. -/
def summaryTable (title : String) (rows : List (String × String)) : List Shown :=
  [.table title ["Item", "Value"] (rows.map fun row => [row.1, row.2]), .line ""]

/-- A message about something that went well. -/
def success (message : String) : Shown := .line (Markup.styled "bold green" message)

/-- A message about something that failed. -/
def error (message : String) : Shown := .line (Markup.styled "bold red" message)

/-- A message about something to look at. -/
def warning (message : String) : Shown := .line (Markup.styled "bold yellow" message)

end Shown

end Scaffold
