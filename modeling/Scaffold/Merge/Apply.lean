import Scaffold.Merge.Strategy
import Scaffold.Merge.Structured
import Scaffold.Merge.Lines
import Scaffold.Tree.Basic

/-!
# Merging into files

A merge reads the file, settles its new text and writes it only if it differs.  Whatever can fail in
settling the text fails before anything is written, except that a text with a lone half of a character fails
only when it is encoded: its file is open by then, and empty (`Tree.spoil`).
-/

namespace Scaffold

/-- Why a merge fails. -/
inductive MergeFault where
  /-- A text is no structured file; the first part says which text. -/
  | structured (source : String) (fault : StructuredFault)
  | unknownMode (path mode : String)
  | unwritable (fault : Json.WriteFault)
  | unreadable (failure : Tree.ReadFailure)
  | file (error : FileError)
  deriving DecidableEq, Repr

/-- The wording of a fault. -/
def MergeFault.message : MergeFault → String
  | .structured source fault =>
    match fault with
    | .longNumber _ => fault.message
    | _ => source ++ ": " ++ fault.message
  | .unknownMode path mode => path ++ ": unknown merge mode " ++ Text.quoted mode
  | .unwritable fault => fault.message
  | .unreadable failure => failure.message
  | .file error => error.message

/-- Whether a fault shows only when the file is open, and empty. -/
def MergeFault.isLate : MergeFault → Bool
  | .unwritable fault => fault.isLate
  | _ => false

/-- Reads a structured file, naming its source in faults. -/
def parseNamed (source text : String) : Except MergeFault Entries :=
  (parseStructured text).mapError (.structured source)

/-- Writes a structured file. -/
def dumpMerged (entries : Entries) : Except MergeFault String :=
  (dumpStructured entries).mapError .unwritable

/-- The text of a file after a merge; none if the file is left as it is. -/
def mergedText? (strategy : MergeStrategy) (path : Path) (existing : Option String)
    (content : String) : Except MergeFault (Option String) :=
  match strategy with
  | .structured => do
    let current ← parseNamed path.text (existing.getD "")
    let incoming ← parseNamed (path.text ++ " (rendered content)") content
    return some (← dumpMerged (deepMerge current incoming))
  | .lineAppendDedup =>
    .ok ((EnvLines.merge? (existing.getD "").toList content.toList).map String.ofList)
  | .createIfAbsent => .ok (if existing.isSome then none else some content)
  | .append =>
    match existing with
    | none => .ok (some content)
    | some text =>
      if Block.contains text.toList content.toList then .ok none
      else .ok (some (String.ofList (Block.append text.toList content.toList)))
  | .prepend =>
    match existing with
    | none => .ok (some content)
    | some text =>
      if Block.contains text.toList content.toList then .ok none
      else .ok (some (String.ofList (Block.prepend text.toList content.toList)))
  | .replace => .ok (some content)
  | .write => .ok (some content)

/-- The object of a file after a mapping is merged into it. -/
def MergeMode.combine : MergeMode → Entries → Entries → Entries
  | .deep, current, data => deepMerge current data
  | .shallow, current, data => Entries.overlay current data
  | .replace, _, data => data

/-- The text of a file after a mapping is merged into its object, in a mode given by name. -/
def mergedData? (path : Path) (existing : Option String) (data : Entries) (modeName : String) :
    Except MergeFault (Option String) := do
  let current ← parseNamed path.text (existing.getD "")
  match MergeMode.ofName? modeName with
  | none => throw (.unknownMode path.text modeName)
  | some mode => return some (← dumpMerged (mode.combine current data))

namespace Tree

/-- The text of a file; none if the path leads to no file. -/
def existingText (tree : Tree) (path : Path) : Except MergeFault (Option String) := do
  if ← (tree.isFile path).mapError MergeFault.file then
    return some (← (tree.readText path).mapError MergeFault.unreadable)
  else return none

/-- Writes the new text of a file unless the file has it already; the answer says whether the file
changed. -/
def settle (tree : Tree) (path : Path) (existing wanted : Option String) :
    Except MergeFault Bool × Tree :=
  match wanted with
  | none => (.ok false, tree)
  | some text =>
    if existing == some text then (.ok false, tree)
    else
      match tree.writeBelow path text with
      | (.ok (), written) => (.ok true, written)
      | (.error error, grown) => (.error (.file error), grown)

/-- Opens a file for a text that cannot be encoded. -/
def spoil (tree : Tree) (path : Path) (fault : MergeFault) : Except MergeFault Bool × Tree :=
  match tree.writeBelow path "" with
  | (.ok (), emptied) => (.error fault, emptied)
  | (.error error, grown) => (.error (.file error), grown)

/-- Writes what a rule makes of the text of a file. -/
def revise (tree : Tree) (path : Path)
    (rule : Option String → Except MergeFault (Option String)) : Except MergeFault Bool × Tree :=
  match tree.existingText path with
  | .error fault => (.error fault, tree)
  | .ok existing =>
    match rule existing with
    | .error fault => if fault.isLate then tree.spoil path fault else (.error fault, tree)
    | .ok wanted => tree.settle path existing wanted

/-- Merges content into a file; the answer says whether the file changed. -/
def merge (tree : Tree) (strategy : MergeStrategy) (path : Path) (content : String) :
    Except MergeFault Bool × Tree :=
  tree.revise path fun existing => mergedText? strategy path existing content

/-- Merges a mapping into the object of a file, in a mode given by name; the answer says whether the
file changed. -/
def mergeData (tree : Tree) (path : Path) (data : Entries) (modeName : String) :
    Except MergeFault Bool × Tree :=
  tree.revise path fun existing => mergedData? path existing data modeName

end Tree

end Scaffold
