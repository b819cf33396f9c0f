import Scaffold.Path
import Scaffold.Text.Search

/-!
# Merge strategies

How new content meets the content that a file already has, and which strategy the name of a file
implies.
-/

namespace Scaffold

/-- How new content is combined with a file. -/
inductive MergeStrategy where
  /-- Both sides are objects; the new one is laid over the old one. -/
  | structured
  /-- Entry lines whose keys are new are appended. -/
  | lineAppendDedup
  | replace
  | write
  | createIfAbsent
  | append
  | prepend
  deriving DecidableEq, Repr

namespace MergeStrategy

/-- The strategies in order. -/
def all : List MergeStrategy :=
  [.structured, .lineAppendDedup, .replace, .write, .createIfAbsent, .append, .prepend]

/-- The written name of a strategy. -/
def name : MergeStrategy → String
  | .structured => "structured"
  | .lineAppendDedup => "line-append-dedup"
  | .replace => "replace"
  | .write => "write"
  | .createIfAbsent => "create-if-absent"
  | .append => "append"
  | .prepend => "prepend"

/-- The strategy with a written name. -/
def ofName? (name : String) : Option MergeStrategy :=
  all.find? fun strategy => strategy.name == name

theorem ofName?_name (strategy : MergeStrategy) : ofName? strategy.name = some strategy := by
  cases strategy <;> decide

/-- File names that imply a strategy; the first matching pattern counts. -/
def wellKnownFiles : List (String × MergeStrategy) :=
  [("package.json", .structured), ("tsconfig.json", .structured), ("tsconfig.*.json", .structured),
   ("jsconfig.json", .structured), (".env", .lineAppendDedup), (".env.*", .lineAppendDedup)]

/-- The strategy that the name of a file implies. -/
def ofPath (path : Path) (default : MergeStrategy) : MergeStrategy :=
  match wellKnownFiles.find? fun entry =>
      Text.matchesPattern entry.1.toList path.name.toList with
  | some (_, strategy) => strategy
  | none => default

/-- Whether a path names a file of environment variables. -/
def isEnvFile (path : Path) : Bool := ofPath path .write == .lineAppendDedup

end MergeStrategy

/-- How a mapping is combined with the object in a file. -/
inductive MergeMode where
  | deep
  | shallow
  | replace
  deriving DecidableEq, Repr

namespace MergeMode

/-- The modes in order. -/
def all : List MergeMode := [.deep, .shallow, .replace]

/-- The written name of a mode. -/
def name : MergeMode → String
  | .deep => "deep-merge"
  | .shallow => "shallow-merge"
  | .replace => "replace"

/-- The mode with a written name. -/
def ofName? (name : String) : Option MergeMode := all.find? fun mode => mode.name == name

theorem ofName?_name (mode : MergeMode) : ofName? mode.name = some mode := by cases mode <;> decide

end MergeMode

end Scaffold
