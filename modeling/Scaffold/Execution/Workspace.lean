import Scaffold.Execution.Outcome
import Scaffold.Execution.Plan

/-!
# Workspaces

Everything that a run may change: the files, the commands that were launched, and what the console has
shown.  A plan is carried out edit by edit and ends at the first fault; what was done before it stays
done.  The text of a template file is needed for a plan, so the file is rendered before.
-/

namespace Scaffold

/-- The state that a run changes. -/
structure Workspace where
  tree : Tree
  runner : Runner
  shown : List Shown
  /-- The renderings of template files that are still to come. -/
  renderings : Renderings

/-- Makes a change to the file at a path; the answer says whether the file changed. -/
def Change.makeAt (change : Change) (tree : Tree) (path : Path) : Except MergeFault Bool × Tree :=
  match change with
  | .merge strategy content => tree.merge strategy path content
  | .mergeData data mode => tree.mergeData path data mode.name
  | .unencodable fault => tree.revise path fun _ => .error (.unwritable fault)

/-- Launches a job. -/
def Job.launch (job : Job) (tree : Tree) (runner : Runner) : Except RunFault CommandResult × Runner :=
  match job with
  | .run words folder => runner.run tree words folder true
  | .install packages dev folder => runner.install tree packages folder dev true

namespace Workspace

/-- Shows lines on the console. -/
def tell (workspace : Workspace) (lines : List Shown) : Workspace :=
  { workspace with shown := workspace.shown ++ lines }

/-- Renders a template file: the next one of the renderings to come. -/
def render (workspace : Workspace) (template : TemplateFile) : Rendering × Workspace :=
  let rendering := workspace.renderings 0 workspace.tree template
  (rendering,
    { workspace with tree := rendering.tree, renderings := workspace.renderings.later 1 })

/-- The plan of an operation.  A template file is rendered once the target is known. -/
def plan (workspace : Workspace) (context : Context) (skipInstall : Bool) :
    Operation → Except ActionFault (Option Plan) × Workspace
  | .createFile path (.template file) overwrite merge =>
    match Target.ofTemplate workspace.tree context .createFile path with
    | .error fault => (.error fault, workspace)
    | .ok target =>
      let template := TemplateFile.ofName context file
      let (rendering, after) := workspace.render template
      match rendering.answer with
      | .error failure => (.error (.rendering template failure), after)
      | .ok text => ((Plan.creation context target text overwrite merge).map some, after)
  | operation => (Plan.ofOperation workspace.tree context skipInstall operation, workspace)

/-- Makes one edit. -/
def edit (workspace : Workspace) (edit : Edit) : Except ActionFault Bool × Workspace :=
  let (answer, tree) := edit.change.makeAt workspace.tree edit.target.path
  (answer.mapError .merge, { workspace with tree })

/-- Makes edits in order.  The answer pairs every label with whether its file changed. -/
def editAll (workspace : Workspace) : List Edit → Except ActionFault (List (String × Bool)) × Workspace
  | [] => (.ok [], workspace)
  | first :: rest =>
    match workspace.edit first with
    | (.error fault, after) => (.error fault, after)
    | (.ok changed, after) =>
      let (touched, done) := after.editAll rest
      (touched.map fun others => (first.target.label, changed) :: others, done)

/-- Launches the job of a plan, if it has one. -/
def launch (workspace : Workspace) : Option Job → Except ActionFault Unit × Workspace
  | none => (.ok (), workspace)
  | some job =>
    let (answer, runner) := job.launch workspace.tree workspace.runner
    ((answer.map fun _ => ()).mapError .launch,
      { workspace with
        runner := { runner with shown := [] }
        shown := workspace.shown ++ runner.shown })

/-- The effect of the edits that were made: a plan without edits counts as applied. -/
def effectOf (touched : List (String × Bool)) : Effect :=
  let paths := (touched.map (·.1)).eraseDups
  if touched.isEmpty || touched.any (·.2) then .applied paths else .unchanged paths

/-- Carries out a plan. -/
def carryOut (workspace : Workspace) (plan : Plan) : Effect × Workspace :=
  match workspace.editAll plan.edits with
  | (.error fault, after) => (.failed fault.message, after)
  | (.ok touched, after) =>
    match after.launch plan.job with
    | (.error fault, done) => (.failed fault.message, done)
    | (.ok (), done) => (effectOf touched, done)

end Workspace

end Scaffold
