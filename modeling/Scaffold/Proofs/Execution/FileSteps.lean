import Scaffold.Proofs.Execution.Containment
import Scaffold.Proofs.Execution.Performing
import Scaffold.Proofs.Execution.Schema
import Scaffold.Proofs.Execution.Variables

/-!
# The steps of an action

`Application.steps` says which files an action alters and how, before anything is read from them: the steps depend
on links, which no action changes (`Plan.ofOperation_congr`), once its template file is rendered
(`Application.filled`).  The edits of a plan take their steps one after another (`Workspace.performs_editAll`).
-/

namespace Scaffold

/-- An operation that is attempted in a context. -/
structure Application where
  context : Context
  operation : Operation

namespace Application

/-- The step that alters the file at a path. -/
def step (tree : Tree) (path : Path) (alteration : Alteration) : Except ActionFault FileStep := do
  return ⟨← (tree.resolve path).mapError .unresolvable, alteration⟩

/-- The steps that the edits of a plan take. -/
def editSteps (tree : Tree) (alter : Change → Alteration) : List Edit → Except ActionFault (List FileStep)
  | [] => .ok []
  | edit :: rest => do
    return (← step tree edit.target.path (alter edit.change)) :: (← editSteps tree alter rest)

/-- The application with the text of its template file, if it names one, as it would be rendered first. -/
def filled (base : Workspace) : Application → Except ActionFault Application
  | ⟨context, .createFile path (.template file) overwrite merge⟩ => do
    let template := TemplateFile.ofName context file
    let text ← (base.renderings 0 base.tree template).answer.mapError (.rendering template)
    return ⟨context, .createFile path (.content text) overwrite merge⟩
  | application => .ok application

/-- In some state of the files the template file of the application, if it names one, is rendered as it would be
first, whichever template files are rendered before. -/
def RendersAlike (base : Workspace) (now : Tree) (application : Application) : Prop :=
  ∀ path file overwrite merge, application.operation = .createFile path (.template file) overwrite merge →
    ∀ position, (base.renderings position now (.ofName application.context file)).answer
      = (base.renderings 0 base.tree (.ofName application.context file)).answer

/-- The steps that an attempt takes if it needs no rendering. -/
def steps (tree : Tree) : Application → Except ActionFault (List FileStep)
  | ⟨context, .addEnvVar key value description none⟩ => do
    let actual ← Plan.addEnvVar tree context key value description (some ".env")
    let sample ← Plan.addEnvVar tree context key value description (some ".env.example")
    return (← editSteps tree .amend actual.edits) ++ (← editSteps tree .make sample.edits)
  | ⟨context, .extendSchema path tables imports⟩ => do
    let target ← Target.ofTemplate tree context .extendSchema path
    let lines ← Plan.renderedAll context target.label .extendSchema imports
    let definitions ← Plan.renderedAll context target.label .extendSchema (tables.map (·.definition))
    let addition : SchemaAddition := ⟨target, lines, definitions⟩
    return [← step tree target.path (.extend addition.lines
      (addition.definitions.map fun definition => Block.core definition.toList))]
  | ⟨context, .enhanceFile path modifier params fallback⟩ => do
    let target ← Target.ofTemplate tree context .enhanceFile path
    match Modifier.named modifier with
    | .error fault => if fallback == .skip then return [] else throw (.modifier fault)
    | .ok change =>
      let arguments := Plan.renderedEntries context target.label .enhanceFile params
      return [← step tree target.path (.enhance change arguments fallback)]
  | ⟨context, operation⟩ => do
    match ← Plan.ofOperation tree context true operation with
    | none => return []
    | some plan => editSteps tree .make plan.edits

end Application

/-! ## Where the files are -/

namespace Tree

/-- The folder of a project is there, and neither its manifest of packages nor its file of variables is a link. -/
structure IsProject (tree : Tree) (root : Path) (home : Location) : Prop where
  wellFormed : tree.WellFormed
  followable : tree.IsFollowable
  located : tree.locate true root = .ok home
  folder : tree.node? home = some .folder
  unlinked : ∀ name ∈ ["package.json", ".env"], ∀ target, tree.node? (home ++ [name]) ≠ some (.link target)
  short : ∀ name ∈ ["package.json", ".env"], (root.child name).text.utf8ByteSize ≤ maxPath

variable {tree : Tree} {root path : Path} {home location : Location} {name : String}

/-- The manifest and the file of variables are names in the folder of the project. -/
theorem IsProject.isChild (project : tree.IsProject root home) (known : name ∈ ["package.json", ".env"]) :
    tree.IsChild root home name := by
  have single : Path.ofText name = ⟨.relative, [name]⟩ ∧ name ≠ ".." ∧ '\x00' ∉ name.toList
      ∧ name.utf8ByteSize ≤ maxName := by
    rcases List.mem_cons.mp known with rfl | known
    · decide
    · obtain rfl := List.mem_singleton.mp known
      decide
  refine
    { located := project.located
      folder := project.folder
      single := ?_
      proper := single.2.1
      noNull := single.2.2.1
      short := single.2.2.2
      shortPath := project.short name known
      unlinked := project.unlinked name known }
  rw [Path.child, single.1]
  rfl

/-- Their paths reach them. -/
theorem IsProject.reaches_child (project : tree.IsProject root home) (known : name ∈ ["package.json", ".env"])
    (found : tree.resolve (root.child name) = .ok location) : tree.Reaches (root.child name) location := by
  have reaches := Tree.reaches_child (project.isChild known)
  obtain rfl := reaches.resolves.unique (project.followable.resolves found)
  exact reaches

end Tree

variable {tree : Tree} {root path : Path} {home location : Location} {target : Target}

/-- The path of a target that lies inside of the project reaches it. -/
theorem Target.IsInside.reaches (inside : target.IsInside tree root) (followable : tree.IsFollowable)
    (found : tree.resolve target.path = .ok location) (short : Tree.pathDefect? location = none) :
    tree.Reaches target.path location := by
  obtain ⟨written, inside⟩ := inside
  obtain ⟨home, place, _, ofPath, targetPath, _⟩ := Target.exists_of_inside inside
  have resolved : tree.IsResolved place := (followable.resolves ofPath).isResolved (followable.start _)
  have whole : tree.IsResolved ([] ++ place) := resolved
  rw [targetPath] at found ⊢
  obtain rfl : place = location := whole.resolves.unique (followable.resolves found)
  exact Tree.reaches_pathOf resolved short

/-! ## Edits -/

/-- Whether a rule settles on a text, and on which, does not depend on the path, which faults name. -/
theorem Change.toOption_rule (change : Change) (path other : Path) (existing : Option String) :
    (change.rule path existing).toOption = (change.rule other existing).toOption := by
  have parsed : ∀ (first second text : String),
      (parseNamed first text).toOption = (parseNamed second text).toOption := by
    intro first second text
    unfold parseNamed
    cases parseStructured text <;> rfl
  cases change with
  | unencodable fault => rfl
  | mergeData data mode => exact toOption_bind_congr (parsed _ _ _) fun _ => rfl
  | merge strategy content =>
      cases strategy with
      | structured =>
          exact toOption_bind_congr (parsed _ _ _) fun _ => toOption_bind_congr (parsed _ _ _) fun _ => rfl
      | _ => rfl

/-- A change settles the text of a file by its rule. -/
theorem Change.makeAt_eq (change : Change) (tree : Tree) (path : Path) :
    change.makeAt tree path = tree.revise path (change.rule path) := by
  cases change with
  | merge strategy content => rfl
  | mergeData data mode =>
      rw [makeAt, Tree.mergeData]
      congr 1
      funext existing
      rw [mergedData?, MergeMode.ofName?_name]
      rfl
  | unencodable fault => rfl

namespace Workspace

variable {workspace : Workspace} {edit : Edit} {edits : List Edit} {step : FileStep} {steps : List FileStep}
  {plan : Plan} {base : Tree}

/-- An edit takes a step. -/
theorem performs_edit (wellFormed : workspace.tree.WellFormed)
    (reaches : workspace.tree.Reaches edit.target.path step.location)
    (makes : step.alteration = .make edit.change) :
    Tree.Performs workspace.tree [step] (∃ changed, (workspace.edit edit).1 = .ok changed)
      (workspace.edit edit).2.tree := by
  have performs := Tree.performs_revise (edit.change.rule edit.target.path) wellFormed reaches
    fun existing => by
      rw [makes]
      exact edit.change.toOption_rule _ _ existing
  rw [← Change.makeAt_eq] at performs
  refine performs.congr ?_
  unfold Workspace.edit
  rcases edit.change.makeAt workspace.tree edit.target.path with ⟨fault | changed, left⟩
  · exact iff_of_false (by rintro ⟨_, ⟨⟩⟩) (by rintro ⟨_, ⟨⟩⟩)
  · exact iff_of_true ⟨_, rfl⟩ ⟨_, rfl⟩

/-- Edits take a step each. -/
theorem performs_editAll
    (planned : Application.editSteps base .make edits = .ok steps) (retains : base.Retains workspace.tree)
    (reaches : ∀ edit ∈ edits, ∀ step ∈ steps, base.resolve edit.target.path = .ok step.location →
      base.Reaches edit.target.path step.location) :
    Tree.Performs workspace.tree steps (∃ touched, (workspace.editAll edits).1 = .ok touched)
      (workspace.editAll edits).2.tree := by
  induction edits generalizing steps workspace with
  | nil =>
      obtain rfl := Except.ok.inj planned
      exact .refl retains.wellFormed ⟨_, rfl⟩
  | cons edit rest inductionHypothesis =>
      obtain ⟨step, ofEdit, planned⟩ := exists_of_bind_eq_ok planned
      obtain ⟨others, ofRest, planned⟩ := exists_of_bind_eq_ok planned
      obtain rfl := Except.ok.inj planned
      obtain ⟨location, found, ofEdit⟩ := exists_of_bind_eq_ok ofEdit
      obtain rfl := Except.ok.inj ofEdit
      have here := reaches edit List.mem_cons_self _ List.mem_cons_self (eq_ok_of_mapError_eq_ok found)
      have begins := performs_edit retains.wellFormed (here.later retains) rfl
      rcases edited : workspace.edit edit with ⟨fault | changed, between⟩
      · rw [edited] at begins
        rw [editAll, edited]
        exact begins.append (by rintro ⟨_, ⟨⟩⟩) (by rintro ⟨_, ⟨⟩⟩)
      · rw [edited] at begins
        rw [editAll, edited]
        refine begins.append (fun _ => ⟨changed, rfl⟩) fun made => ?_
        have further := inductionHypothesis ofRest (retains.trans (begins.alters made).retains)
          fun other member step among => reaches other (List.mem_cons_of_mem _ member) step
            (List.mem_cons_of_mem _ among)
        dsimp only
        refine further.congr ?_
        rcases between.editAll rest with ⟨fault | touched, done⟩
        · exact iff_of_false (by rintro ⟨_, ⟨⟩⟩) (by rintro ⟨_, ⟨⟩⟩)
        · exact iff_of_true ⟨_, rfl⟩ ⟨_, rfl⟩

/-- A plan without a job takes the steps of its edits. -/
theorem performs_carryOut (jobless : plan.job = none)
    (performs : Tree.Performs workspace.tree steps (∃ touched, (workspace.editAll plan.edits).1 = .ok touched)
      (workspace.editAll plan.edits).2.tree) :
    Tree.Performs workspace.tree steps ((workspace.carryOut plan).1.isSuccess = true)
      (workspace.carryOut plan).2.tree := by
  unfold Workspace.carryOut
  rw [jobless]
  rcases edits : workspace.editAll plan.edits with ⟨fault | touched, done⟩
  · rw [edits] at performs
    exact performs.congr (iff_of_false (by rintro ⟨_, ⟨⟩⟩) (by rintro ⟨⟩))
  · rw [edits] at performs
    exact performs.congr (iff_of_true ⟨_, rfl⟩ (isSuccess_effectOf touched))

/-- A plan that changes one file succeeds if the change can be made, and leaves what it leaves. -/
theorem carryOut_single_iff {target : Target} {change : Change} {answer : Except MergeFault Bool} {left : Tree}
    (made : change.makeAt workspace.tree target.path = (answer, left)) :
    ((workspace.carryOut (.single target change)).1.isSuccess = true ↔ ∃ changed, answer = .ok changed)
      ∧ (workspace.carryOut (.single target change)).2.tree = left := by
  have edited : workspace.edit ⟨target, change⟩ = (answer.mapError .merge, { workspace with tree := left }) := by
    unfold Workspace.edit
    dsimp only
    rw [made]
  unfold Workspace.carryOut
  rw [Plan.single, editAll, edited]
  cases answer with
  | error fault => exact ⟨iff_of_false (by rintro ⟨⟩) (by rintro ⟨_, ⟨⟩⟩), rfl⟩
  | ok changed => exact ⟨iff_of_true (isSuccess_effectOf [(target.label, changed)]) ⟨_, rfl⟩, rfl⟩

end Workspace

/-! ## Plans that do not depend on what files hold -/

namespace Plan

variable {context : Context} {operation : Operation} {plan : Plan} {tree after : Tree}

/-- Only commands and the installation of packages launch something. -/
theorem job_eq_none (noCommand : operation.kind ≠ .runCommand)
    (found : ofOperation tree context true operation = .ok (some plan)) : plan.job = none := by
  cases operation with
  | runCommand => exact absurd rfl noCommand
  | installPackages =>
      obtain ⟨_, _, found⟩ := exists_of_bind_eq_ok (eq_ok_of_map_some_eq_ok found)
      obtain rfl := Except.ok.inj found
      rfl
  | addScript =>
      obtain ⟨_, _, found⟩ := exists_of_bind_eq_ok (eq_ok_of_map_some_eq_ok found)
      obtain ⟨_, _, found⟩ := exists_of_bind_eq_ok found
      obtain rfl := Except.ok.inj found
      rfl
  | addEnvVar =>
      obtain ⟨_, _, _, _, rfl⟩ := exists_of_addEnvVar (eq_ok_of_map_some_eq_ok found)
      rfl
  | createFile path source =>
      cases source with
      | template => cases found
      | content =>
          obtain ⟨_, _, found⟩ := exists_of_bind_eq_ok (eq_ok_of_map_some_eq_ok found)
          obtain ⟨_, rfl⟩ := exists_single_of_creation found
          rfl
  | appendToFile | prependToFile | mergeJson | mergeConfig =>
      obtain ⟨_, _, found⟩ := exists_of_bind_eq_ok (eq_ok_of_map_some_eq_ok found)
      obtain ⟨_, _, found⟩ := exists_of_bind_eq_ok found
      obtain rfl := Except.ok.inj found
      rfl
  | extendSchema =>
      obtain ⟨_, _, rendered, read⟩ := exists_of_extendSchema (eq_ok_of_map_some_eq_ok found)
      obtain rfl := Option.some.inj (Except.ok.inj
        ((congrArg (Except.map some) (rendered.extendSchema_eq read)).symm.trans found))
      rfl
  | enhanceFile =>
      obtain ⟨_, _, found⟩ := exists_of_bind_eq_ok found
      split at found
      next => split at found <;> cases found
      next =>
        obtain ⟨_, _, found⟩ := exists_of_bind_eq_ok found
        split at found
        next => cases found
        next =>
          obtain ⟨_, _, found⟩ := exists_of_bind_eq_ok found
          split at found
          next =>
            obtain rfl := Option.some.inj (Except.ok.inj found)
            rfl
          next =>
            split at found
            next =>
              obtain rfl := Option.some.inj (Except.ok.inj found)
              rfl
            next => cases found

/-- The plan depends on links, unless it depends on the text of the file to change, or on whether there is a file
of variables. -/
theorem ofOperation_congr (followable : tree.IsFollowable) (same : tree.SameLinks after)
    (noVariable : ∀ key value description, operation ≠ .addEnvVar key value description none)
    (noSchema : ∀ path tables imports, operation ≠ .extendSchema path tables imports)
    (noModifier : ∀ path modifier params fallback, operation ≠ .enhanceFile path modifier params fallback) :
    ofOperation after context true operation = ofOperation tree context true operation := by
  have targets : ∀ kind written,
      Target.ofTemplate after context kind written = Target.ofTemplate tree context kind written :=
    fun _ _ => Target.ofTemplate_congr followable same
  cases operation with
  | installPackages => rfl
  | addScript => rfl
  | addEnvVar key value description path =>
      cases path with
      | none => exact absurd rfl (noVariable key value description)
      | some written => simp only [ofOperation, addEnvVar, envTargets, targets]
  | createFile path source overwrite merge =>
      cases source with
      | content text => simp only [ofOperation, createFile, targets]
      | template file => rfl
  | appendToFile => simp only [ofOperation, appendToFile, targets]
  | prependToFile => simp only [ofOperation, prependToFile, targets]
  | runCommand command workingDir =>
      have folders : workingFolder after context workingDir = workingFolder tree context workingDir := by
        unfold workingFolder
        simp only [targets]
      simp only [ofOperation, runCommand, folders]
  | mergeJson => simp only [ofOperation, mergeJson, targets]
  | mergeConfig => simp only [ofOperation, mergeConfig, targets]
  | extendSchema path tables imports => exact absurd rfl (noSchema path tables imports)
  | enhanceFile path modifier params fallback => exact absurd rfl (noModifier path modifier params fallback)

/-- The edits of a plan reach the files that they alter. -/
theorem reaches_edits {home : Location} {steps : List FileStep}
    (project : tree.IsProject context.project.root home)
    (found : ofOperation tree context true operation = .ok (some plan))
    (short : ∀ step ∈ steps, Tree.pathDefect? step.location = none) :
    ∀ edit ∈ plan.edits, ∀ step ∈ steps, tree.resolve edit.target.path = .ok step.location →
      tree.Reaches edit.target.path step.location := by
  intro edit member step among resolved
  rcases (planned_ofOperation found).inside_or_manifest member with inside | ⟨_, manifest⟩
  · exact inside.reaches project.followable resolved (short step among)
  · rw [manifest] at resolved ⊢
    exact project.reaches_child List.mem_cons_self resolved

end Plan

end Scaffold
