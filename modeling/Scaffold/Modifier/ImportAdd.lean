import Scaffold.Modifier.Fault
import Scaffold.Modifier.ImportStatement

/-!
# Adding imports

Requests name a source and what to import from it.  What a content imports already is left alone, names
are added to a statement that lists names of the same source, and everything else becomes new
statements.
-/

namespace Scaffold.ImportAdd

open Scaffold.Text Scaffold.ImportStatement

/-- What to import from one source. -/
structure Request where
  source : String
  /-- The name for the default export. -/
  default : Option String
  /-- The name for the source as a whole. -/
  whole : Option String
  named : List String
  deriving DecidableEq, Repr

/-- A source in quotation marks of any kind. -/
def quotedSource (source : List Char) : Pattern :=
  .all [.one isQuote, .literal source, .one isQuote]

/-- A source between two equal quotation marks. -/
def evenlyQuoted (source : List Char) : Pattern :=
  .either (.literal ('\'' :: source ++ ['\''])) (.literal ('"' :: source ++ ['"']))

/-- Whether some line of a content starts with a pattern. -/
def someLine (pattern : Pattern) (content : List Char) : Bool :=
  (lineStarts true content).any pattern.matchesStart

/-- An import of a default export. -/
def defaultImport (name source : List Char) : Pattern :=
  .all [.anyBlanks, .word "import", .blanks, .literal name, .wordEnd (name.getLast?.getD ' '),
    .many fun c => c != ';' && c != '\n', .word "from", .blanks, quotedSource source]

/-- An import of a source as a whole. -/
def wholeImport (name source : List Char) : Pattern :=
  .all [.anyBlanks, .word "import", .blanks, .word "*", .blanks, .word "as", .blanks, .literal name,
    .blanks, .word "from", .blanks, quotedSource source]

/-- An import that only names a source. -/
def bareImport (source : List Char) : Pattern :=
  .all [.anyBlanks, .word "import", .blanks, quotedSource source]

/-- Whether a content takes anything from a source. -/
def mentionsSource (source content : List Char) : Bool :=
  someLine (bareImport source) content
    || (tails content).any (Pattern.all [.word "from", .blanks, quotedSource source]).matchesStart

/-- A line that lists imported names: the text before the opening brace, the names between the braces
and the text behind the closing one. -/
structure NameList where
  lead : List Char
  names : List Char
  tail : List Char
  deriving DecidableEq, Repr

/-- A character of a name. -/
def isNameChar (c : Char) : Bool := isWord c || c == '$'

/-- What stands before the opening brace. -/
def leadPattern : Pattern :=
  .all [.anyBlanks, .word "import", .blanks, .optional (.all [.word "type", .blanks]),
    .optional (.all [.some isNameChar, .anyBlanks, .word ",", .anyBlanks])]

/-- What stands behind the closing brace. -/
def tailPattern (source : List Char) : Pattern :=
  .all [.anyBlanks, .word "from", .blanks, evenlyQuoted source, statementEnd]

/-- Reads a line that lists names of a source. -/
def NameList.read? (source line : List Char) : Option NameList :=
  let lead := line.takeWhile (· != '\x7b')
  match line.dropWhile (· != '\x7b') with
  | [] => none
  | _ :: inner =>
    let names := inner.takeWhile (· != '\x7d')
    match inner.dropWhile (· != '\x7d') with
    | [] => none
    | _ :: tail =>
      if leadPattern.matchesAll lead && (tailPattern source).matchesAll tail then
        some ⟨lead, names, tail⟩
      else none

/-- The names of a list, without blanks around them. -/
def NameList.present (list : NameList) : List (List Char) :=
  ((splitAtChar ',' list.names).map trim).filter fun name => !name.isEmpty

/-- The line with the given names. -/
def NameList.withNames (list : NameList) (names : List (List Char)) : List Char :=
  list.lead ++ "\x7b ".toList ++ joinWith [',', ' '] names ++ " \x7d".toList ++ list.tail

/-- The text of a value, which must be one. -/
def nameOf : Value → Except ModifierFault String
  | .text name => .ok name
  | value => .error (.nameNotText value.operandKind)

/-- The items of a filled value: one text, the items of a list, or the keys of a mapping. -/
def nameItems? : Value → Option (List Value)
  | .text name => some [.text name]
  | .list items => some items
  | .mapping entries => some (entries.map fun entry => .scalar entry.1)
  | _ => none

/-- A value as a name. -/
def textName? : Value → Option String
  | .text name => some name
  | _ => none

/-- The names of a filled value, if all of them are texts. -/
def namesOf? (named : Value) : Option (List String) := do (← nameItems? named).mapM textName?

/-- The fault of names that are not all texts, given the list that they would be added to. -/
def namesFault (list : Option NameList) (named : Value) : ModifierFault :=
  match nameItems? named, list with
  | none, none => .namesNotJoined
  | none, some _ => .namesNotCollection named.operandKind
  | some items, _ =>
    let present := (list.map NameList.present).getD []
    let missing := items.filter fun item =>
      ((textName? item).map fun name => !present.contains name.toList).getD true
    let before := missing.takeWhile fun item => (textName? item).isSome
    .nameInList (present.length + before.length)
      (((missing.drop before.length).head?.map Value.operandKind).getD "")

/-- The first line of a content that lists names of a source. -/
def firstList? (source content : List Char) : Option NameList :=
  (linesWithEnds content).findSome? fun line => NameList.read? source (withoutEnd line)

/-- Reads a request that is made to a content. -/
def Request.ofEntries (content : List Char) (entries : Entries) : Except ModifierFault Request := do
  let some (.text source) := argument? entries ["module", "from"] | throw .importWithoutModule
  if source.isEmpty then throw .importWithoutModule
  let default ← (filled? entries ["default"]).mapM nameOf
  let whole ← (filled? entries ["namespace"]).mapM nameOf
  let named ← match filled? entries ["named"] with
    | none => pure []
    | some value =>
      match namesOf? value with
      | some names => pure names
      | none => throw (namesFault (firstList? source.toList content) value)
  return ⟨source, default, whole, named⟩

/-- Adds names to the first line that lists names of a source; none if there is no such line. -/
def extendFirst? (source : List Char) (wanted : List (List Char)) :
    List (List Char) → Option (List (List Char))
  | [] => none
  | line :: rest =>
    match NameList.read? source (withoutEnd line) with
    | none => (extendFirst? source wanted rest).map (line :: ·)
    | some list =>
      let missing := wanted.filter fun name => !list.present.contains name
      if missing.isEmpty then some (line :: rest)
      else some ((list.withNames (list.present ++ missing) ++ endOf line) :: rest)

/-- The statement that imports a default export. -/
def defaultStatement (name source : String) : String := "import " ++ name ++ " from '" ++ source ++ "';"

/-- The statement that imports a source as a whole. -/
def wholeStatement (name source : String) : String :=
  "import * as " ++ name ++ " from '" ++ source ++ "';"

/-- The statement that imports names. -/
def namedStatement (names : List String) (source : String) : String :=
  "import \x7b " ++ String.intercalate ", " names ++ " \x7d from '" ++ source ++ "';"

/-- The statement that only names a source. -/
def bareStatement (source : String) : String := "import '" ++ source ++ "';"

/-- The content and the new statements that a request asks for. -/
def Request.apply (request : Request) (content : List Char) : List Char × List String :=
  let source := request.source.toList
  let forDefault := match request.default with
    | some name =>
      if someLine (defaultImport name.toList source) content then []
      else [defaultStatement name request.source]
    | none => []
  let forWhole := match request.whole with
    | some name =>
      if someLine (wholeImport name.toList source) content then []
      else [wholeStatement name request.source]
    | none => []
  let (changed, forNamed) :=
    if request.named.isEmpty then (content, [])
    else
      match extendFirst? source (request.named.map String.toList) (linesWithEnds content) with
      | some lines => (lines.flatten, [])
      | none => (content, [namedStatement request.named request.source])
  let forSource :=
    if request.default.isNone && request.whole.isNone && request.named.isEmpty then
      if mentionsSource source content then [] else [bareStatement request.source]
    else []
  (changed, forDefault ++ forWhole ++ forNamed ++ forSource)

/-- Appends the statements that are not there yet. -/
def addNew (pending : List String) (statements : List String) : List String :=
  statements.foldl (fun known statement =>
    if known.contains statement then known else known ++ [statement]) pending

/-- Applies requests in order, collecting the new statements. -/
def applyAll (content : List Char) (pending : List String) :
    List Value → Except ModifierFault (List Char × List String)
  | [] => .ok (content, pending)
  | .mapping entries :: rest => do
    let request ← Request.ofEntries content entries
    let (changed, statements) := request.apply content
    applyAll changed (addNew pending statements) rest
  | _ :: _ => .error .importNotMapping

/-- The content with the imports of a list of requests. -/
def addAll (content : String) (requests : List Value) : Except ModifierFault String := do
  let (changed, statements) ← applyAll content.toList [] requests
  return String.ofList (insert changed (statements.map String.toList))

/-- The content after the imports are added. -/
def run (content : String) (arguments : Entries) : Except ModifierFault String :=
  match (argument? arguments ["imports", "importsToAdd"]).getD (.list []) with
  | .list requests => addAll content requests
  | _ => .error .importsNotList

end Scaffold.ImportAdd
