import Scaffold.Merge.Lines
import Scaffold.Modifier.Basic
import Scaffold.Package.Manager
import Scaffold.Execution.Fault

/-!
# Plans

What an action is going to do is decided before anything is done: the files to change, in order, and the
command to launch after them.  Every fault of rendering, of paths and of contents shows here, while the
files are still untouched.

A file that is changed is named in a blueprint by a template.  Its rendered form is resolved, links included,
and has to lie inside of the project (`Target`).
-/

namespace Scaffold

/-- A file that an action changes. -/
structure Target where
  /-- The path in reports, relative to the project. -/
  label : String
  path : Path
  deriving DecidableEq, Repr

namespace Target

/-- Renders a template for an action. -/
def rendered (context : Context) (hint : String) (kind : Option ActionKind) (text : String) :
    Except ActionFault String :=
  (Template.renderText context ⟨hint, kind⟩ text).mapError .template

/-- What remains of a location below a folder. -/
def below? (folder : Location) (location : Location) : Option (List String) :=
  if folder.isPrefixOf location then some (location.drop folder.length) else none

/-- The target at a path, which has to lie inside of a project. -/
def inside (tree : Tree) (root : Path) (path : String) : Except ActionFault Target := do
  let home ← (tree.resolve root).mapError .unresolvable
  let location ← (tree.resolve ((Tree.pathOf home).join (Path.ofText path))).mapError .unresolvable
  match below? home location with
  | none => throw (.outsideRoot path)
  | some names => return ⟨Path.text ⟨.relative, names⟩, Tree.pathOf location⟩

/-- The target that a template names for an action of some kind. -/
def ofTemplate (tree : Tree) (context : Context) (kind : ActionKind) (written : String) :
    Except ActionFault Target := do
  let path := Text.trimmed (← rendered context written (some kind) written)
  if path.isEmpty then throw (.emptyPath written)
  else if Text.contains path "\x7b\x7b" then throw (.unresolvedPath path)
  else inside tree context.project.root path

/-- The manifest of the packages of a project. -/
def packageManifest (root : Path) : Target := ⟨"package.json", root.child "package.json"⟩

end Target

/-- What happens to a file. -/
inductive Change where
  | merge (strategy : MergeStrategy) (content : String)
  | mergeData (data : Entries) (mode : MergeMode)
  /-- A text that cannot be encoded takes the place of the file's. -/
  | unencodable (fault : Json.WriteFault)

/-- A change to a file. -/
structure Edit where
  target : Target
  change : Change

/-- A command to launch in a folder. -/
inductive Job where
  | run (words : List String) (folder : String)
  | install (packages : List String) (dev : Bool) (folder : String)

/-- What an action is going to do. -/
structure Plan where
  edits : List Edit
  job : Option Job

namespace Plan

/-- A plan that changes one file. -/
def single (target : Target) (change : Change) : Plan := ⟨[⟨target, change⟩], none⟩

/-- Renders texts in order. -/
def renderedAll (context : Context) (hint : String) (kind : ActionKind) :
    List String → Except ActionFault (List String)
  | [] => .ok []
  | text :: rest =>
    return (← Target.rendered context hint (some kind) text) :: (← renderedAll context hint kind rest)

/-- Renders the texts inside a mapping. -/
def renderedEntries (context : Context) (hint : String) (kind : ActionKind) (entries : Entries) :
    Except ActionFault Entries :=
  (Template.renderEntries context ⟨hint, some kind⟩ entries).mapError .template

/-- The packages with their versions, as entries of a package manifest. -/
def versions (packages : List String) : Entries :=
  Entries.ofPairs (packages.map fun written =>
    let package := PackageSpec.ofText written
    (.text package.name, .text package.version))

/-- Packages are recorded in the manifest and then installed, unless installing is turned off. -/
def installPackages (context : Context) (skipInstall : Bool) (packages : List String) (dev : Bool) :
    Except ActionFault Plan := do
  let rendered ← renderedAll context "" .installPackages packages
  let field := if dev then "devDependencies" else "dependencies"
  let root := context.project.root
  let data := [(Scalar.text field, Value.mapping (versions rendered))]
  return ⟨[⟨Target.packageManifest root, .mergeData data .deep⟩],
    if skipInstall then none else some (.install rendered dev root.text)⟩

/-- A script is recorded in the manifest. -/
def addScript (context : Context) (name command : String) : Except ActionFault Plan := do
  let key ← Target.rendered context "" none name
  let line ← Target.rendered context "" (some .runCommand) command
  let data := [(Scalar.text "scripts", Value.record [(key, .text line)])]
  return single (Target.packageManifest context.project.root) (.mergeData data .deep)

/-- The file of example variables, and the file of variables if there is one. -/
def envTargets (tree : Tree) (context : Context) (path : Option String) :
    Except ActionFault (List Target) := do
  match path with
  | some written => return [← Target.ofTemplate tree context .addEnvVar written]
  | none =>
    let sample ← Target.ofTemplate tree context .addEnvVar ".env.example"
    if ← (tree.isFile (context.project.root.child ".env")).mapError ActionFault.file then
      return [sample, ← Target.ofTemplate tree context .addEnvVar ".env"]
    else return [sample]

/-- The comment line above a variable. -/
def commentLine (context : Context) : Option String → Except ActionFault String
  | none => .ok ""
  | some "" => .ok ""
  | some text => return "# " ++ (← Target.rendered context "" none text) ++ "\n"

/-- A variable is declared in the files of variables. -/
def addEnvVar (tree : Tree) (context : Context) (key value : String)
    (description path : Option String) : Except ActionFault Plan := do
  let name := Text.trimmed (← Target.rendered context "" none key)
  if name.isEmpty || name.toList.contains '=' then throw (.variableName name)
  else
    let content ← Target.rendered context "" none value
    let comment ← commentLine context description
    let block := comment ++ name ++ "=" ++ content ++ "\n"
    let targets ← envTargets tree context path
    return ⟨targets.map fun target => ⟨target, .merge .lineAppendDedup block⟩, none⟩

/-- How a new file is written: as the action says, else as its path says; a file that is there is kept
unless it may be overwritten. -/
def creationStrategy (label : String) (overwrite : Bool) (merge : Option MergeStrategy) :
    MergeStrategy :=
  let strategy := merge.getD (MergeStrategy.ofPath (Path.ofText label) .write)
  if strategy == .write && !overwrite then .createIfAbsent else strategy

/-- A file is created at a target, from a text that is still to be rendered. -/
def creation (context : Context) (target : Target) (text : String) (overwrite : Bool)
    (merge : Option MergeStrategy) : Except ActionFault Plan := do
  let content ← Target.rendered context target.label (some .createFile) text
  return single target (.merge (creationStrategy target.label overwrite merge) content)

/-- A file is created from a text. -/
def createFile (tree : Tree) (context : Context) (path text : String) (overwrite : Bool)
    (merge : Option MergeStrategy) : Except ActionFault Plan := do
  let target ← Target.ofTemplate tree context .createFile path
  creation context target text overwrite merge

/-- A text is appended; a file of variables takes the missing entries only. -/
def appendToFile (tree : Tree) (context : Context) (path content : String) :
    Except ActionFault Plan := do
  let target ← Target.ofTemplate tree context .appendToFile path
  let text ← Target.rendered context target.label (some .appendToFile) content
  let strategy :=
    if MergeStrategy.isEnvFile (Path.ofText target.label) then .lineAppendDedup else .append
  return single target (.merge strategy text)

/-- A text is put in front of a file. -/
def prependToFile (tree : Tree) (context : Context) (path content : String) :
    Except ActionFault Plan := do
  let target ← Target.ofTemplate tree context .prependToFile path
  let text ← Target.rendered context target.label (some .prependToFile) content
  return single target (.merge .prepend text)

/-- The mapping that a payload stands for. -/
def jsonEntries (context : Context) (label : String) : JsonPayload → Except ActionFault Entries
  | .mapping entries => renderedEntries context label .mergeJson entries
  | .template text => do
    let written ← Target.rendered context label (some .mergeJson) text
    match Json.parse written.toList with
    | .ok (.mapping entries) => return entries
    | .ok _ => throw .notObject
    | .error error => throw (.notJson error.fault)

/-- A mapping is merged into a JSON file. -/
def mergeJson (tree : Tree) (context : Context) (path : String) (content : JsonPayload) :
    Except ActionFault Plan := do
  let target ← Target.ofTemplate tree context .mergeJson path
  return single target (.mergeData (← jsonEntries context target.label content) .deep)

/-- A mapping is merged into a configuration file. -/
def mergeConfig (tree : Tree) (context : Context) (path : String) (config : Entries)
    (mode : MergeMode) : Except ActionFault Plan := do
  let target ← Target.ofTemplate tree context .mergeConfig path
  return single target (.mergeData (← renderedEntries context target.label .mergeConfig config) mode)

/-- Imports and tables are added to a schema file. -/
def extendSchema (tree : Tree) (context : Context) (path : String) (tables : List SchemaTable)
    (imports : List String) : Except ActionFault Plan := do
  let target ← Target.ofTemplate tree context .extendSchema path
  if ← (tree.isFile target.path).mapError ActionFault.file then
    let text ← (tree.readText target.path).mapError ActionFault.unreadable
    let lines ← renderedAll context target.label .extendSchema imports
    let definitions ← renderedAll context target.label .extendSchema (tables.map (·.definition))
    let extended := SchemaText.extend text.toList
      (lines.map fun line => Text.trim line.toList)
      (definitions.map fun definition => Text.trimWhere (· == '\n') definition.toList)
    return single target (.merge .replace (String.ofList extended))
  else throw (.missingSchema target.label)

/-- The content that a modifier starts from; none to skip the action. -/
def contentToEnhance (tree : Tree) (target : Target) (fallback : Fallback) :
    Except ActionFault (Option String) := do
  if ← (tree.isFile target.path).mapError ActionFault.file then
    return some (← (tree.readText target.path).mapError ActionFault.unreadable)
  else
    match fallback with
    | .skip => return none
    | .create => return some ""
    | .error => throw (.missingFile target.label)

/-- A modifier is applied to a file; none to skip the action. -/
def enhanceFile (tree : Tree) (context : Context) (path modifier : String) (params : Entries)
    (fallback : Fallback) : Except ActionFault (Option Plan) := do
  let target ← Target.ofTemplate tree context .enhanceFile path
  match Modifier.named modifier with
  | .error fault => if fallback == .skip then return none else throw (.modifier fault)
  | .ok change =>
    match ← contentToEnhance tree target fallback with
    | none => return none
    | some content =>
      let arguments ← renderedEntries context target.label .enhanceFile params
      match change content arguments with
      | .ok enhanced => return some (single target (.merge .replace enhanced))
      | .error fault =>
        match fault.lateFault? with
        | some late => return some (single target (.unencodable late))
        | none => throw (.modifier fault)

/-- The folder that a command runs in. -/
def workingFolder (tree : Tree) (context : Context) : Option String → Except ActionFault String
  | none => .ok context.project.root.text
  | some "" => .ok context.project.root.text
  | some written => return (← Target.ofTemplate tree context .runCommand written).path.text

/-- A command is run. -/
def runCommand (tree : Tree) (context : Context) (command : String) (workingDir : Option String) :
    Except ActionFault Plan := do
  let line ← Target.rendered context "" (some .runCommand) command
  let words ← (Command.split line).mapError (ActionFault.notWords line)
  if words.isEmpty then throw .emptyCommand
  else return ⟨[], some (.run words (← workingFolder tree context workingDir))⟩

/-- The plan of an operation; none to skip it.  Template files are not looked at here: a workspace renders
them (`Workspace.plan`). -/
def ofOperation (tree : Tree) (context : Context) (skipInstall : Bool) :
    Operation → Except ActionFault (Option Plan)
  | .installPackages packages dev => (installPackages context skipInstall packages dev).map some
  | .addScript name command => (addScript context name command).map some
  | .addEnvVar key value description path =>
    (addEnvVar tree context key value description path).map some
  | .createFile path (.content text) overwrite merge =>
    (createFile tree context path text overwrite merge).map some
  | .createFile _ (.template file) _ _ => .error (.unrendered file)
  | .appendToFile path content => (appendToFile tree context path content).map some
  | .prependToFile path content => (prependToFile tree context path content).map some
  | .runCommand command workingDir => (runCommand tree context command workingDir).map some
  | .mergeJson path content => (mergeJson tree context path content).map some
  | .mergeConfig path config mode => (mergeConfig tree context path config mode).map some
  | .extendSchema path tables imports => (extendSchema tree context path tables imports).map some
  | .enhanceFile path modifier params fallback =>
    enhanceFile tree context path modifier params fallback

end Plan

end Scaffold
