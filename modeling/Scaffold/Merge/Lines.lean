import Scaffold.Modifier.ImportStatement
import Scaffold.Text.Blank
import Scaffold.Text.Lines
import Scaffold.Text.Search

/-!
# Blocks of lines

A block is contained in a text when it occurs there as whole lines.  Line feeds around the block do not
count, and a blank block is contained in nothing.
-/

namespace Scaffold.Block

/-- A block without the line feeds around it. -/
def core (block : List Char) : List Char := Text.trimWhere (· == '\n') block

/-- A text between line feeds, one of them its own last one if it has one. -/
def framed (text : List Char) : List Char :=
  if text.getLast? == some '\n' then '\n' :: text else '\n' :: text ++ ['\n']

/-- Whether a text contains a block as whole lines. -/
def contains (text block : List Char) : Bool :=
  !Text.isAllBlank (core block) && Text.occursIn ('\n' :: core block ++ ['\n']) (framed text)

/-- A text with a block behind it, on a line of its own. -/
def append (text block : List Char) : List Char :=
  if text.isEmpty || text.getLast? == some '\n' then text ++ block else text ++ '\n' :: block

/-- A text with a block before it, on a line of its own. -/
def prepend (text block : List Char) : List Char :=
  if block.getLast? == some '\n' then block ++ text else block ++ '\n' :: text

end Scaffold.Block

/-! ## Environment files

An entry line defines the key before its first equals sign.  Merging appends the entry lines whose key
is not defined yet, each with the comment lines directly above it.
-/

namespace Scaffold.EnvLines

/-- The key that a line defines. -/
def keyOf (line : List Char) : List Char := Text.trim (line.takeWhile (· != '='))

/-- Whether a line is a comment. -/
def isComment (line : List Char) : Bool := (Text.trim line).head? == some '#'

/-- Whether a line is an entry: it is neither blank nor a comment. -/
def isEntry (line : List Char) : Bool := !Text.isAllBlank line && !isComment line

/-- The keys that a text defines. -/
def keys (text : List Char) : List (List Char) := ((Text.lines text).filter isEntry).map keyOf

/-- The lines to append, given the keys defined so far and the comments directly above. -/
def additions (known : List (List Char)) (comments : List (List Char)) :
    List (List Char) → List (List Char)
  | [] => []
  | raw :: rest =>
    let line := Text.trimRight raw
    if Text.isAllBlank line then additions known [] rest
    else if isComment line then additions known (comments ++ [line]) rest
    else if known.contains (keyOf line) then additions known [] rest
    else comments ++ line :: additions (keyOf line :: known) [] rest

/-- A text whose last line is complete. -/
def completed (text : List Char) : List Char :=
  if text.isEmpty || text.getLast? == some '\n' then text else text ++ ['\n']

/-- The text after a merge; none if there is nothing to append. -/
def merge? (existing incoming : List Char) : Option (List Char) :=
  match additions (keys existing) [] (Text.lines incoming) with
  | [] => none
  | added => some (completed existing ++ added.flatMap fun line => line ++ ['\n'])

end Scaffold.EnvLines

/-! ## Schema texts

A schema file is extended by import lines and by table definitions.  What the file has already is not
added again.
-/

namespace Scaffold.SchemaText

/-- The import lines that a text lacks, each once. -/
def newImports (text : List Char) (imports : List (List Char)) : List (List Char) :=
  let present := (Text.lines text).map Text.trim
  (imports.filter fun line => !line.isEmpty && !present.contains line).eraseDups

/-- A text followed by a definition, unless the definition is blank or part of the text. -/
def withTable (text definition : List Char) : List Char :=
  if Text.isAllBlank definition || Text.occursIn (Text.trim definition) text then text
  else
    let gap := if Text.isAllBlank text then [] else ['\n']
    ImportStatement.closed text ++ gap ++ definition ++ ['\n']

/-- A schema with the import lines and the tables that it lacks. -/
def extend (text : List Char) (imports definitions : List (List Char)) : List Char :=
  definitions.foldl withTable (ImportStatement.insert text (newImports text imports))

end Scaffold.SchemaText
