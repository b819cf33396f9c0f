import Scaffold.Execution.Rendering
import Scaffold.Host.Stencil.Evaluate
import Scaffold.Host.Stencil.Node

/-!
# Rendering template files

Template files lie in a folder and may include and extend each other.  A file that extends another one is
rendered for its assignments and blocks only; then the other file is rendered with those blocks in the
place of its own.
-/

namespace Scaffold.Host.Stencil

/-- What nodes need from outside of their own file. -/
structure Surroundings where
  /-- The rendered form of a file. -/
  file : String → Scope → Except Fault String
  /-- The rendered form of a block. -/
  block : String → Scope → Except Fault String

/-- How far the rendering of a file has come. -/
structure Progress where
  scope : Scope
  /-- The names that blocks see inside of a loop; outside of one they see all names. -/
  shared : Option Scope
  output : String
  /-- The file that is extended. -/
  base : Option String

namespace Progress

/-- Writes a text, unless another file is extended. -/
def write (progress : Progress) (text : String) : Progress :=
  if progress.base.isSome then progress else { progress with output := progress.output ++ text }

/-- The names that blocks see. -/
def forBlocks (progress : Progress) : Scope := progress.shared.getD progress.scope

/-- Gives names their values: one name the whole value, several names its items. -/
def assign (progress : Progress) (names : List String) (datum : Datum) : Except Fault Progress := do
  match names with
  | [single] => return { progress with scope := progress.scope.assign single datum }
  | _ =>
    let items ← itemsOf datum
    if items.length != names.length then throw (.operands "wrong number of values to unpack")
    else
      return { progress with
        scope := (names.zip items).foldl (fun scope entry => scope.assign entry.1 (.present entry.2))
          progress.scope }

end Progress

/-- What a loop knows about its current item. -/
def loopFacts (index count : Nat) : Value :=
  .record [("index", .int (index + 1)), ("index0", .int index), ("first", .bool (index == 0)),
    ("last", .bool (index + 1 == count)), ("length", .int count), ("revindex", .int (count - index)),
    ("revindex0", .int (count - index - 1))]

/-- The items for which the condition of a loop holds. -/
def chosenItems (progress : Progress) (names : List String) (condition : Option Expr)
    (items : List Value) : Except Fault (List Value) :=
  match condition with
  | none => .ok items
  | some expression => items.filterM fun candidate => do
      let inner ← progress.assign names (.present candidate)
      return (← eval inner.scope expression).isFilled

mutual

/-- Renders a node. -/
def renderNode (around : Surroundings) (progress : Progress) : Node → Except Fault Progress
  | .text content => .ok (progress.write (String.ofList content))
  | .output expression =>
    if progress.base.isSome then .ok progress
    else do return progress.write (← eval progress.scope expression).display
  | .branch condition body otherwise => do
    if (← eval progress.scope condition).isFilled then renderNodes around progress body
    else renderNodes around progress otherwise
  | .loop names source condition body otherwise => do
    let items ← chosenItems progress names condition (← itemsOf (← eval progress.scope source))
    if items.isEmpty then renderNodes around progress otherwise
    else
      let shared := progress.forBlocks
      let done ← items.zipIdx.foldlM (fun sofar entry => do
        let named ← sofar.assign names (.present entry.1)
        let facts := Datum.present (loopFacts entry.2 items.length)
        let finished ← renderNodes around
          { named with scope := named.scope.assign "loop" facts, shared := some shared } body
        return { finished with scope := progress.scope, shared := progress.shared }) progress
      return done
  | .assign names value => do progress.assign names (← eval progress.scope value)
  | .capture name body => do
    let inner ← renderNodes around { progress with output := "", base := none } body
    return { progress with scope := progress.scope.assign name (.ofText inner.output) }
  | .inclusion file isOptional => do
    match around.file (← (← eval progress.scope file).demand).display progress.scope with
    | .ok text => return progress.write text
    | .error .missing => if isOptional then return progress else throw .missing
    | .error fault => throw fault
  | .extension file => do
    return { progress with base := some (← (← eval progress.scope file).demand).display }
  | .block name _ =>
    if progress.base.isSome then .ok progress
    else do return progress.write (← around.block name progress.forBlocks)
termination_by structural node => node

/-- Renders nodes in order. -/
def renderNodes (around : Surroundings) (progress : Progress) : List Node → Except Fault Progress
  | [] => .ok progress
  | node :: rest => do renderNodes around (← renderNode around progress node) rest
termination_by structural nodes => nodes

end

/-- The bodies of a block: that of the file rendered first, then those it takes the place of. -/
abbrev Blocks := List (String × List (List Node))

/-- Adds the blocks of a file behind those of the files that extend it. -/
def addBlocks (blocks : Blocks) (own : List (String × List Node)) : Blocks :=
  own.foldl (fun known entry =>
    if known.any fun present => present.1 == entry.1 then
      known.map fun present =>
        if present.1 == entry.1 then (present.1, present.2 ++ [entry.2]) else present
    else known ++ [(entry.1, [entry.2])]) blocks

/-- Renders the first of the bodies of a block; the others are what it inherits. -/
def renderBlock (around : Surroundings) (scope : Scope) : List (List Node) → Except Fault String
  | [] => .error .broken
  | body :: inherited => do
    let parent := if inherited.isEmpty then none else some (renderBlock around scope inherited)
    let done ← renderNodes around ⟨{ scope with inherited := parent }, none, "", none⟩ body
    return done.output

/-- Finds and reads a template file. -/
abbrev Files := String → Except Fault (List Node)

mutual

/-- The surroundings of nodes; `depth` bounds how deep files and blocks may contain each other. -/
def surroundings (files : Files) (depth : Nat) (blocks : Blocks) : Surroundings :=
  match depth with
  | 0 => ⟨fun _ _ => .error .endless, fun _ _ => .error .endless⟩
  | left + 1 =>
    ⟨fun name scope => renderFile files left name [] { scope with inherited := none },
     fun name scope =>
      renderBlock (surroundings files left blocks) { scope with inherited := none }
        ((blocks.lookup name).getD [])⟩
termination_by structural depth

/-- Renders a file; `blocks` are those of the files that extend it. -/
def renderFile (files : Files) (depth : Nat) (name : String) (blocks : Blocks) (scope : Scope) :
    Except Fault String :=
  match depth with
  | 0 => .error .endless
  | left + 1 => do
    let nodes ← files name
    let known := addBlocks blocks (Node.blocksOf nodes)
    let done ← renderNodes (surroundings files left known) ⟨scope, none, "", none⟩ nodes
    match done.base with
    | none => return done.output
    | some base => return done.output ++ (← renderFile files left base known done.scope)
termination_by structural depth

end

/-- How deep files and blocks may contain each other. -/
def maxDepth : Nat := 200

/-- The pieces of the name of a template file; none if the name leaves the folder. -/
def filePieces? (name : String) : Option (List String) :=
  let pieces := (Text.splitOnChar '/' name).filter fun piece => !piece.isEmpty && piece != "."
  if pieces.contains ".." then none else some pieces

/-- The template files of a folder. -/
def filesIn (tree : Tree) (folder : Path) : Files := fun name =>
  match filePieces? name with
  | none => .error .missing
  | some pieces =>
    let path := folder.join ⟨.relative, pieces⟩
    match tree.isFile path with
    | .ok true => do
      let text ← (tree.readText path).mapError fun failure => Fault.unreadable failure.message
      Node.parse text.toList
    | _ => .error .missing

/-- The names that a template file may use. -/
def scopeOf (template : TemplateFile) : Scope :=
  ⟨template.facts.map fun entry => (entry.1, .present entry.2), none⟩

/-- The mark that stands for the reason why a template is malformed. -/
def reasonMark : String := "<jinja>"

/-- A fault as the engine reports it. -/
def Fault.report : Fault → RenderingFailure
  | .missing => .missing
  | .broken => .refused reasonMark
  | .unreadable reason => .raised reason
  | .operands reason => .raised reason
  | .noPart reason => .raised reason
  | .divisionByZero reason => .raised reason
  | .endless => .raised "maximum recursion depth exceeded"

/-- Renders a template file. -/
def render (tree : Tree) (template : TemplateFile) : Except Fault String :=
  renderFile (filesIn tree (Path.ofText template.folder)) maxDepth template.file [] (scopeOf template)

/-- Renderings by this engine, which changes nothing. -/
def renderings : Renderings := fun _ tree template =>
  ⟨(render tree template).mapError Fault.report, tree, id⟩

end Scaffold.Host.Stencil
