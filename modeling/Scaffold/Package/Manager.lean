import Scaffold.Text.Blank
import Scaffold.Text.Search
import Scaffold.Tree.Basic

/-!
# Package managers

Which package manager a project uses, and the commands that install packages with it.
-/

namespace Scaffold

/-- A package manager. -/
inductive PackageManager where
  | npm
  | pnpm
  | yarn
  | bun
  deriving DecidableEq, Repr

namespace PackageManager

/-- The command of a package manager. -/
def name : PackageManager → String
  | .npm => "npm"
  | .pnpm => "pnpm"
  | .yarn => "yarn"
  | .bun => "bun"

/-- The lock files of the package managers; the first one that exists counts. -/
def lockFiles : List (String × PackageManager) :=
  [("pnpm-lock.yaml", .pnpm), ("yarn.lock", .yarn), ("bun.lockb", .bun), ("bun.lock", .bun),
   ("package-lock.json", .npm)]

/-- The package manager of the first lock file of a list that exists in a folder. -/
def detectFrom (tree : Tree) (folder : Path) :
    List (String × PackageManager) → Except FileError PackageManager
  | [] => .ok .npm
  | (file, manager) :: rest => do
    if ← tree.pathExists (folder.child file) then return manager
    else detectFrom tree folder rest

/-- The package manager of the project in a folder. -/
def detect (tree : Tree) (folder : Path) : Except FileError PackageManager :=
  detectFrom tree folder lockFiles

/-- The words of the command that installs packages. -/
def installWords (manager : PackageManager) (packages : List String) (dev : Bool) : List String :=
  let verb := if manager == .npm then "install" else "add"
  let flags := if !dev then [] else if manager == .npm then ["--save-dev"] else ["-D"]
  manager.name :: verb :: flags ++ packages

end PackageManager

/-! ## Package specifications

A package is named with or without a version behind an `@`; a name may itself start with an `@`.
-/

/-- A package and the wanted version. -/
structure PackageSpec where
  name : String
  version : String
  deriving DecidableEq, Repr

namespace PackageSpec

/-- The version that stands for none in particular. -/
def latest : String := "latest"

/-- Reads a specification. -/
def ofText (text : String) : PackageSpec :=
  let trimmed := Text.trim text.toList
  let (scope, rest) := match trimmed with
    | '@' :: rest => (['@'], rest)
    | _ => ([], trimmed)
  let (name, version) := Text.partitionAt '@' rest
  ⟨String.ofList (scope ++ name), if version.isEmpty then latest else String.ofList version⟩

end PackageSpec

end Scaffold
