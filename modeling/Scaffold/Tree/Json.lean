import Scaffold.Tree.Basic
import Scaffold.Json.Printer
import Scaffold.Json.Reader

/-!
# JSON files

Reading and writing whole values.  A file whose value is no object is read as an object with a single
entry.
-/

namespace Scaffold.Tree

/-- Why a JSON file cannot be read. -/
inductive JsonReadFailure where
  | unreadable (failure : ReadFailure)
  /-- The text is no JSON; the error and the text. -/
  | notJson (error : Json.ReadError) (text : String)
  deriving DecidableEq, Repr

/-- The wording of a failure. -/
def JsonReadFailure.message : JsonReadFailure → String
  | .unreadable failure => failure.message
  | .notJson error text => error.message text.toList

/-- The key of a value that is no object. -/
def rootKey : Scalar := .text "_root"

/-- The object in a JSON file. -/
def loadJson (tree : Tree) (path : Path) : Except JsonReadFailure Entries := do
  let text ← (tree.readText path).mapError JsonReadFailure.unreadable
  match Json.parse text.toList with
  | .ok (.mapping entries) => return entries
  | .ok value => return [(rootKey, value)]
  | .error error => throw (.notJson error text)

/-- Why a value cannot be written to a JSON file. -/
inductive JsonWriteFailure where
  | file (error : FileError)
  | unwritable (fault : Json.WriteFault)
  deriving DecidableEq, Repr

/-- Writes a value to a JSON file, making the folders above it first.  A fault that shows only when the file
is open leaves the file empty. -/
def saveJson (tree : Tree) (path : Path) (value : Value) : Except JsonWriteFailure Unit × Tree :=
  match tree.makeFolders path.parent with
  | (.error error, grown) => (.error (.file error), grown)
  | (.ok (), grown) =>
    match Json.write .tree value with
    | .error fault =>
      if fault.isLate then
        match grown.write path "".toUTF8 with
        | .error error => (.error (.file error), grown)
        | .ok emptied => (.error (.unwritable fault), emptied)
      else (.error (.unwritable fault), grown)
    | .ok text =>
      match grown.write path (text ++ "\n").toUTF8 with
      | .error error => (.error (.file error), grown)
      | .ok written => (.ok (), written)

end Scaffold.Tree
