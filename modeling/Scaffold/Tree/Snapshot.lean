import Scaffold.Text.Utf8
import Scaffold.Tree.Basic
import Scaffold.Tree.Resolve
import Scaffold.Value.Display

/-!
# Snapshots of trees

A tree as data: a mapping from paths to what stands there.  A text is a file; `hex`, `dir` and `link` give
the bytes of a file, a folder and a link; `remove` takes away what stood there before.
-/

namespace Scaffold

/-- The value of a hexadecimal digit; other characters count as zero. -/
def hexValue (c : Char) : Nat :=
  if '0' ≤ c && c ≤ '9' then c.toNat - 48
  else if 'a' ≤ c && c ≤ 'f' then c.toNat - 87
  else if 'A' ≤ c && c ≤ 'F' then c.toNat - 55
  else 0

/-- The bytes of hexadecimal digits, two for each. -/
def hexBytes : List Char → List UInt8
  | high :: low :: rest => UInt8.ofNat (hexValue high * 16 + hexValue low) :: hexBytes rest
  | _ => []

/-- The hexadecimal digits of bytes. -/
def hexText (content : ByteArray) : String :=
  String.ofList (content.toList.flatMap fun byte => Text.hexDigits 2 byte.toNat)

/-- A node as data; a folder is nothing. -/
def Node.toValue : Node → Value
  | .folder => .null
  | .link target => .record [("link", .text target)]
  | .file content =>
    match Text.decode content with
    | .ok text => .text text
    | .error _ => .record [("hex", .text (hexText content))]

namespace Tree

/-- A tree that has nothing but the folder where relative paths start. -/
def ofHome (home : Location) : Tree :=
  let bare : Tree := ⟨[], home⟩
  (bare.makeFolders ⟨.root, home⟩).2

/-- Puts a file, unless something stands against it. -/
def putFile (tree : Tree) (path : Path) (content : ByteArray) : Tree :=
  ((tree.write path content).toOption).getD tree

/-- Puts a link. -/
def putLink (tree : Tree) (path : Path) (target : String) : Tree :=
  match tree.locate false path with
  | .ok location => tree.put location (.link target)
  | .error _ => tree

/-- Takes away a node and everything below it. -/
def removeAll (tree : Tree) (path : Path) : Tree :=
  match tree.locate false path with
  | .ok location =>
    { tree with nodes := tree.nodes.filter fun entry => !location.isPrefixOf entry.1 }
  | .error _ => tree

/-- Puts what a snapshot says about a path, with the folders above it. -/
def putEntry (tree : Tree) (path : Path) (spec : Value) : Tree :=
  let based := (tree.makeFolders path.parent).2
  match spec with
  | .text content => based.putFile path content.toUTF8
  | .mapping [(.text "hex", .text digits)] => based.putFile path ⟨(hexBytes digits.toList).toArray⟩
  | .mapping [(.text "dir", _)] => (tree.makeFolders path).2
  | .mapping [(.text "link", .text target)] => based.putLink path target
  | .mapping [(.text "remove", _)] => tree.removeAll path
  | _ => tree

/-- Puts the entries of a snapshot, in order. -/
def putSnapshot (tree : Tree) (snapshot : Entries) : Tree :=
  snapshot.foldl (fun tree entry => tree.putEntry (Path.ofText entry.1.display) entry.2) tree

end Tree

end Scaffold

/-! ## Changes of trees

What differs between two trees below a folder.  Only files and links count: a folder without any of them
is no difference.
-/

namespace Scaffold.Tree

/-- The files and links below a folder, each under its path from there. -/
def contents (tree : Tree) (folder : Location) : List (String × Node) :=
  (tree.descendants folder).filterMap fun (names, node) =>
    match node with
    | .folder => none
    | _ => some (String.intercalate "/" names, node)

/-- What became of the files and links below a folder: new or different ones with what they are now, and
those that are gone. -/
def changes (before after : Tree) (folder : Location) : List (String × Option Node) :=
  let old := before.contents folder
  let new := after.contents folder
  (new.filter fun (name, node) => old.lookup name != some node).map (fun (name, node) => (name, some node))
    ++ (old.filter fun (name, _) => (new.lookup name).isNone).map fun (name, _) => (name, none)

end Scaffold.Tree
