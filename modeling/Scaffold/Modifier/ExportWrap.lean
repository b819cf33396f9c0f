import Scaffold.Modifier.ImportAdd
import Scaffold.Json.Printer

/-!
# Wrapping the default export

The expression of the first default export becomes the argument of a call.  Declarations of functions and
classes are no expressions, and an expression that is such a call already stays as it is.
-/

namespace Scaffold.ExportWrap

open Scaffold.Text

/-- A space or a tab. -/
def isSpace (c : Char) : Bool := c == ' ' || c == '\t'

/-- Whether a text starts with a word that makes the export a declaration. -/
def startsDeclaration (text : List Char) : Bool :=
  ["function", "class", "async"].any fun word =>
    (Pattern.all [.word word, .wordEnd 'n']).matchesStart text

/-- The expression at the start of a line: the line without spaces and one semicolon at its end, but at
least one character. -/
def expressionOf (line : List Char) : List Char :=
  let spaced := trimRightWhere isSpace line
  let core :=
    if spaced.getLast? == some ';' then trimRightWhere isSpace spaced.dropLast else spaced
  line.take (max 1 core.length)

/-- A default export: the text before it, its expression and the text behind it. -/
structure Export where
  before : List Char
  expression : List Char
  after : List Char
  deriving DecidableEq, Repr

/-- The words that start a default export. -/
def lead : Pattern := .all [.word "export", .blanks, .word "default", .blanks]

/-- Reads a default export at the start of a text that `before` stands before. -/
def readAt? (before text : List Char) : Option Export :=
  (lead text).findSome? fun rest =>
    let line := rest.takeWhile (· != '\n')
    if line.isEmpty || startsDeclaration rest then none
    else some ⟨before, expressionOf line, rest.drop line.length⟩

/-- Finds the first default export that starts a line.  `before` is the text read so far, last character
first. -/
def find? (before : List Char) : List Char → Option Export
  | [] => none
  | c :: rest =>
    let here := if before.head?.getD '\n' == '\n' then readAt? before.reverse (c :: rest) else none
    match here with
    | some found => some found
    | none => find? (c :: before) rest

/-- The expression as the argument of a call; options become a second argument. -/
def call (wrapper : String) (expression : List Char) (options : Option Value) :
    Except ModifierFault (List Char) := do
  let second ← match options with
    | none => pure ""
    | some value => (Json.writeStrict .spaced value).map (", " ++ ·) |>.mapError .unwritable
  return (wrapper ++ "(").toList ++ expression ++ (second ++ ")").toList

/-- The request that imports a wrapper. -/
def importRequest (source : Value) (wrapper : String) : Value :=
  .record [("module", source), ("named", .texts [wrapper])]

/-- The content after the export is wrapped. -/
def run (content : String) (arguments : Entries) : Except ModifierFault String := do
  let some (.text wrapper) := argument? arguments ["wrapper", "name"] | throw .wrapperNotText
  if isAllBlank wrapper.toList then throw .wrapperNotText
  let some found := find? [] content.toList | throw .noDefaultExport
  let wrapped ←
    if (wrapper ++ "(").toList.isPrefixOf found.expression then pure content
    else do
      let call ← call wrapper found.expression (filled? arguments ["options"])
      pure (String.ofList
        (found.before ++ "export default ".toList ++ call ++ [';'] ++ found.after))
  match filled? arguments ["import_from", "importFrom"] with
  | none => return wrapped
  | some source => ImportAdd.addAll wrapped [importRequest source wrapper]

end Scaffold.ExportWrap
