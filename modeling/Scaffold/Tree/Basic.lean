import Scaffold.Path
import Scaffold.Text.Utf8

/-!
# Trees of files

A file system as a table from locations to nodes.  A location is the list of names from the root; a
node is a file, a folder or a symbolic link.  Paths are turned into locations by walking: links are
followed, double dots leave the folder that was really reached, and every fault of the walk has a cause.
-/

namespace Scaffold

/-- The names from the root down to a node. -/
abbrev Location := List String

/-- The written form of a location. -/
def Location.text (location : Location) : String := "/" ++ String.intercalate "/" location

/-- What stands at a location. -/
inductive Node where
  | file (content : ByteArray)
  | folder
  | link (target : String)

/-- Nodes are equal if they are of one kind and hold the same. -/
def Node.decEq : (first second : Node) → Decidable (first = second)
  | .file ⟨first⟩, .file ⟨second⟩ =>
    if same : first = second then isTrue (by rw [same])
    else isFalse fun equal => same (by injection equal with content; injection content)
  | .link first, .link second =>
    if same : first = second then isTrue (by rw [same])
    else isFalse fun equal => same (by injection equal)
  | .folder, .folder => isTrue rfl
  | .file _, .folder => isFalse nofun
  | .file _, .link _ => isFalse nofun
  | .folder, .file _ => isFalse nofun
  | .folder, .link _ => isFalse nofun
  | .link _, .file _ => isFalse nofun
  | .link _, .folder => isFalse nofun

instance : DecidableEq Node := Node.decEq

/-- Why an operation on a path fails. -/
inductive FileCause where
  | notFound
  | alreadyExists
  | notFolder
  | isFolder
  | tooManyLinks
  | nameTooLong
  /-- The path holds a character that no path may hold. -/
  | nullCharacter
  deriving DecidableEq, Repr

/-- A failed operation and the path it was asked for. -/
structure FileError where
  cause : FileCause
  path : String
  deriving DecidableEq, Repr

/-- The number and wording of a cause; none for a path that is refused outright. -/
def FileCause.label : FileCause → Option (Nat × String)
  | .notFound => some (2, "No such file or directory")
  | .alreadyExists => some (17, "File exists")
  | .notFolder => some (20, "Not a directory")
  | .isFolder => some (21, "Is a directory")
  | .tooManyLinks => some (40, "Too many levels of symbolic links")
  | .nameTooLong => some (36, "File name too long")
  | .nullCharacter => none

/-- The wording of an error. -/
def FileError.message (error : FileError) : String :=
  match error.cause.label with
  | none => "embedded null byte"
  | some (number, wording) =>
    "[Errno " ++ Decimal.intText number ++ "] " ++ wording ++ ": " ++ Text.quoted error.path

/-- A table of nodes, and the location that relative paths start from. -/
structure Tree where
  nodes : List (Location × Node)
  home : Location

namespace Tree

/-- The node at a location; the root is a folder. -/
def node? (tree : Tree) (location : Location) : Option Node :=
  if location.isEmpty then some .folder
  else (tree.nodes.find? fun entry => entry.1 == location).map (·.2)

/-- Puts a node at a location. -/
def put (tree : Tree) (location : Location) (node : Node) : Tree :=
  if tree.nodes.any fun entry => entry.1 == location then
    { tree with
      nodes := tree.nodes.map fun entry => if entry.1 == location then (location, node) else entry }
  else { tree with nodes := tree.nodes ++ [(location, node)] }

/-- Takes the node at a location away. -/
def remove (tree : Tree) (location : Location) : Tree :=
  { tree with nodes := tree.nodes.filter fun entry => entry.1 != location }

/-- The longest name of a node, in bytes. -/
def maxName : Nat := 255

/-- The longest path, in bytes. -/
def maxPath : Nat := 4095

/-- The number of links that one walk follows. -/
def maxLinks : Nat := 40

/-- The location of a path that starts in a folder; its last name need not exist.  With `followLast` a
link at the end is followed too.  Each followed link uses up one of `links`. -/
def walk (tree : Tree) (followLast : Bool) (links : Nat) (here : Location) (names : List String) :
    Except FileCause Location :=
  match names with
  | [] => .ok here
  | name :: rest =>
    match tree.node? here with
    | none => .error .notFound
    | some (.file _) => .error .notFolder
    | some (.link _) => .error .notFolder
    | some .folder =>
      if name == ".." then tree.walk followLast links here.dropLast rest
      else if maxName < name.utf8ByteSize then .error .nameTooLong
      else
        let next := here ++ [name]
        match tree.node? next with
        | none => if rest.isEmpty then .ok next else .error .notFound
        | some (.link target) =>
          if rest.isEmpty && !followLast then .ok next
          else
            match links with
            | 0 => .error .tooManyLinks
            | left + 1 =>
              let path := Path.ofText target
              tree.walk followLast left (if path.isAbsolute then [] else here) (path.parts ++ rest)
        | some _ => tree.walk followLast links next rest
termination_by (links, names.length)

/-- The folder that a path starts from. -/
def startOf (tree : Tree) (path : Path) : Location := if path.isAbsolute then [] else tree.home

/-- The location of a path. -/
def locate (tree : Tree) (followLast : Bool) (path : Path) : Except FileCause Location :=
  if path.parts.any fun part => part.toList.contains '\x00' then .error .nullCharacter
  else if maxPath < path.text.utf8ByteSize then .error .nameTooLong
  else tree.walk followLast maxLinks (tree.startOf path) path.parts

/-- The node that a path leads to, links followed. -/
def look (tree : Tree) (path : Path) : Except FileCause Node := do
  match tree.node? (← tree.locate true path) with
  | some node => .ok node
  | none => .error .notFound

/-- An error about a path. -/
def failure (path : Path) (cause : FileCause) : FileError := ⟨cause, path.text⟩

/-- Whether a path leads to a node of some kind.  A path that leads nowhere does not; only a name that
is too long is an error. -/
def test (tree : Tree) (path : Path) (kind : Node → Bool) : Except FileError Bool :=
  match tree.look path with
  | .ok node => .ok (kind node)
  | .error .nameTooLong => .error (failure path .nameTooLong)
  | .error _ => .ok false

/-- Whether a path leads to a file. -/
def isFile (tree : Tree) (path : Path) : Except FileError Bool :=
  tree.test path fun node => match node with
    | .file _ => true
    | _ => false

/-- Whether a path leads to a folder. -/
def isFolder (tree : Tree) (path : Path) : Except FileError Bool :=
  tree.test path fun node => match node with
    | .folder => true
    | _ => false

/-- Whether a path leads anywhere. -/
def pathExists (tree : Tree) (path : Path) : Except FileError Bool := tree.test path fun _ => true

/-- The bytes of the file that a path leads to. -/
def read (tree : Tree) (path : Path) : Except FileError ByteArray :=
  match tree.look path with
  | .ok (.file content) => .ok content
  | .ok _ => .error (failure path .isFolder)
  | .error cause => .error (failure path cause)

/-- Why a file has no text. -/
inductive ReadFailure where
  | file (error : FileError)
  | encoding (fault : Text.Utf8Fault)
  deriving DecidableEq, Repr

/-- The wording of a failure. -/
def ReadFailure.message : ReadFailure → String
  | .file error => error.message
  | .encoding fault => fault.message

/-- The text of a file, its line ends unified. -/
def readText (tree : Tree) (path : Path) : Except ReadFailure String := do
  let content ← (tree.read path).mapError ReadFailure.file
  let text ← (Text.decode content).mapError ReadFailure.encoding
  return String.ofList (Text.unifyLineEnds text.toList)

/-- Puts content into the file that a path leads to; the file is made if only it is missing. -/
def write (tree : Tree) (path : Path) (content : ByteArray) : Except FileError Tree :=
  match tree.locate true path with
  | .error cause => .error (failure path cause)
  | .ok location =>
    match tree.node? location with
    | some .folder => .error (failure path .isFolder)
    | _ => .ok (tree.put location (.file content))

/-- Makes one folder, whose parent must exist. -/
def makeFolder (tree : Tree) (path : Path) : Except FileError Tree :=
  match tree.locate false path with
  | .error cause => .error (failure path cause)
  | .ok location =>
    match tree.node? location with
    | some _ => .error (failure path .alreadyExists)
    | none => .ok (tree.put location .folder)

/-- Accepts a failure to make a folder when the path leads to a folder already. -/
def acceptFolder (tree : Tree) (path : Path) (error : FileError) : Except FileError Unit := do
  if ← tree.isFolder path then .ok () else .error error

/-- Makes a folder and the missing ones above it.  What was made before a failure stays. -/
def makeFolders (tree : Tree) (path : Path) : Except FileError Unit × Tree :=
  match tree.makeFolder path with
  | .ok grown => (.ok (), grown)
  | .error error =>
    if error.cause != .notFound then (tree.acceptFolder path error, tree)
    else if path.parts.isEmpty then (.error error, tree)
    else
      match tree.makeFolders path.parent with
      | (.error inner, grown) => (.error inner, grown)
      | (.ok (), grown) =>
        match grown.makeFolder path with
        | .ok complete => (.ok (), complete)
        | .error last =>
          if last.cause == .notFound then (.error last, grown) else (grown.acceptFolder path last, grown)
termination_by path.parts.length
decreasing_by
  simp only [Path.parent, List.length_dropLast]
  rename_i nonempty
  have : path.parts ≠ [] := by simpa using nonempty
  have := List.length_pos_iff.mpr this
  omega

/-- Writes a text, making the folders above it. -/
def writeBelow (tree : Tree) (path : Path) (text : String) : Except FileError Unit × Tree :=
  match tree.makeFolders path.parent with
  | (.error error, grown) => (.error error, grown)
  | (.ok (), grown) =>
    match grown.write path text.toUTF8 with
    | .error error => (.error error, grown)
    | .ok written => (.ok (), written)

end Tree

end Scaffold
