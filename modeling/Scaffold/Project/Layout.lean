import Scaffold.Tree.Basic
import Scaffold.Text.Quoted

/-!
# Project layouts

Blueprints name locations by key, so that one blueprint serves projects of different shape.  A layout
maps keys to paths relative to the project root; single keys may be overridden or added.
-/

namespace Scaffold

/-- The shape of a project. -/
inductive ProjectStructure where
  | singleApp
  | monorepo
  deriving DecidableEq, Repr

/-- The written name of a shape. -/
def ProjectStructure.name : ProjectStructure → String
  | .singleApp => "single-app"
  | .monorepo => "monorepo"

/-- The shape with a written name. -/
def ProjectStructure.ofName? (name : String) : Option ProjectStructure :=
  [ProjectStructure.singleApp, .monorepo].find? fun shape => shape.name == name

/-- The paths of a project with one application. -/
def singleAppPaths : List (String × String) :=
  [("root", "."), ("src", "src"), ("source_root", "src"), ("app", "src/app"),
   ("api_routes", "src/app/api"), ("lib", "src/lib"), ("components", "src/components"),
   ("ui_components", "src/components/ui"), ("types", "src/types"), ("public", "public"),
   ("config", "."), ("database_config", "src/lib/db"), ("auth_config", "src/lib/auth"),
   ("email_config", "src/lib/email"), ("payment_config", "src/lib/payment"),
   ("observability_config", "src/lib/observability"), ("tests", "src/__tests__"),
   ("packages", "src/lib"), ("apps", ".")]

/-- The paths of a project with several applications and shared packages. -/
def monorepoPaths : List (String × String) :=
  [("root", "."), ("src", "apps/web/src"), ("source_root", "apps/web/src"),
   ("app", "apps/web/src/app"), ("api_routes", "apps/web/src/app/api"), ("lib", "apps/web/src/lib"),
   ("components", "apps/web/src/components"), ("ui_components", "packages/ui/components"),
   ("types", "apps/web/src/types"), ("public", "apps/web/public"), ("config", "apps/web"),
   ("database_config", "packages/db"), ("auth_config", "packages/auth"),
   ("email_config", "packages/email"), ("payment_config", "packages/payment"),
   ("observability_config", "packages/observability"), ("tests", "apps/web/src/__tests__"),
   ("packages", "packages"), ("apps", "apps")]

/-- Puts a text under a name: at the name's place if it is present, else at the end. -/
def putNamed (names : List (String × String)) (name path : String) : List (String × String) :=
  if names.any fun entry => entry.1 == name then
    names.map fun entry => if entry.1 == name then (name, path) else entry
  else names ++ [(name, path)]

/-- The paths of one project. -/
structure ProjectLayout where
  shape : ProjectStructure
  paths : List (String × String)

namespace ProjectLayout

/-- The layout of a shape with overrides. -/
def ofStructure (shape : ProjectStructure) (overrides : List (String × String)) : ProjectLayout :=
  let base := match shape with
    | .singleApp => singleAppPaths
    | .monorepo => monorepoPaths
  ⟨shape, overrides.foldl (fun paths entry => putNamed paths entry.1 entry.2) base⟩

/-- The shape of the project at a path: with folders for applications and for packages it holds several
applications. -/
def detect (tree : Tree) (root : Path) : Except FileError ProjectStructure := do
  if (← tree.isFolder (root.child "apps")) then
    if (← tree.isFolder (root.child "packages")) then return .monorepo
  return .singleApp

/-- The layout of the project at a path. -/
def forProject (tree : Tree) (root : Path) (overrides : List (String × String)) :
    Except FileError ProjectLayout :=
  return ofStructure (← detect tree root) overrides

/-- The path under a key. -/
def get? (layout : ProjectLayout) (key : String) : Option String := layout.paths.lookup key

/-- The keys in alphabetical order. -/
def keys (layout : ProjectLayout) : List String :=
  (layout.paths.map (·.1)).mergeSort fun first second => first ≤ second

/-- The path under a key with pieces joined to it. -/
def joined? (layout : ProjectLayout) (key : String) (pieces : List String) : Option Path :=
  (layout.get? key).map fun base => pieces.foldl Path.child (Path.ofText base)

end ProjectLayout

end Scaffold
