import Scaffold.Text.Search

/-!
# Paths

A path is an optional root and a list of parts.  Reading drops empty parts and single dots, so a path
has one written form; double dots are kept, since a link may stand before them.
-/

namespace Scaffold

/-- Where a path starts: nowhere in particular, at the root, or at the root written with exactly two
slashes. -/
inductive PathRoot where
  | relative
  | root
  | doubleRoot
  deriving DecidableEq, Repr, Inhabited

/-- The written form of a root. -/
def PathRoot.text : PathRoot → String
  | .relative => ""
  | .root => "/"
  | .doubleRoot => "//"

/-- A path in normal form. -/
structure Path where
  root : PathRoot
  parts : List String
  deriving DecidableEq, Repr, Inhabited

namespace Path

/-- The parts of a text between slashes, without empty ones and single dots. -/
def partsOf (text : List Char) : List String :=
  ((Text.splitAtChar '/' text).filter fun part => part != [] && part != ['.']).map String.ofList

/-- The root that a text starts with. -/
def rootOf : List Char → PathRoot
  | '/' :: '/' :: '/' :: _ => .root
  | '/' :: '/' :: _ => .doubleRoot
  | '/' :: _ => .root
  | _ => .relative

/-- Reads a path. -/
def ofText (text : String) : Path := ⟨rootOf text.toList, partsOf text.toList⟩

/-- The written form; the path without root and parts is a single dot. -/
def text (path : Path) : String :=
  if path.root == .relative && path.parts.isEmpty then "."
  else path.root.text ++ String.intercalate "/" path.parts

/-- Whether a path starts at the root. -/
def isAbsolute (path : Path) : Bool := path.root != .relative

/-- A path under another; an absolute one stands for itself. -/
def join (base path : Path) : Path :=
  if path.isAbsolute then path else ⟨base.root, base.parts ++ path.parts⟩

/-- A path with one more written piece. -/
def child (base : Path) (piece : String) : Path := base.join (ofText piece)

/-- The last part; empty for a root and for the single dot. -/
def name (path : Path) : String := path.parts.getLast?.getD ""

/-- The path without its last part. -/
def parent (path : Path) : Path := ⟨path.root, path.parts.dropLast⟩

/-- The ending of a name from its last dot on, unless the dot is its first or last character. -/
def suffixOf (name : String) : String :=
  let reversed := name.toList.reverse
  let ending := reversed.takeWhile (· != '.')
  let before := reversed.drop (ending.length + 1)
  if ending.isEmpty || before.isEmpty || ending.length == reversed.length then ""
  else String.ofList ('.' :: ending.reverse)

/-- The suffix of the last part. -/
def suffix (path : Path) : String := suffixOf path.name

end Path

end Scaffold
