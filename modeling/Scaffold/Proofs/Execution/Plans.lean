import Scaffold.Execution.Workspace
import Scaffold.Proofs.Computation
import Scaffold.Proofs.Template.Composition
import Scaffold.Proofs.Text.Search

/-!
# The shapes of plans

`Planned` lists what the plan of an operation may look like: which files it changes and whether a command
follows.  A plan changes the manifest of the packages or files that were found to lie inside of the project
(`Planned.inside_or_manifest`), and only two kinds of plans have more than one step.  A name without anything to
render has its target where it is found in the folder of the project (`Target.inside_child`).
-/

namespace Scaffold

/-- A target was found to lie inside of a project. -/
def Target.IsInside (tree : Tree) (root : Path) (target : Target) : Prop :=
  ∃ path, Target.inside tree root path = .ok target

/-- An operation that changes the manifest of the packages. -/
def Operation.ChangesManifest (operation : Operation) : Prop :=
  operation.kind = .installPackages ∨ operation.kind = .addScript

/-- The plans of operations: a change of the manifest, which may be followed by the launch of a package
manager; a change of a file; a variable that is declared in two files; or the launch of a command. -/
inductive Planned (tree : Tree) (context : Context) (skipInstall : Bool) : Operation → Plan → Prop where
  | manifest {operation change} (changes : operation.ChangesManifest) :
      Planned tree context skipInstall operation
        (.single (Target.packageManifest context.project.root) change)
  | install {packages dev change job} (installs : skipInstall = false) :
      Planned tree context skipInstall (.installPackages packages dev)
        ⟨[⟨Target.packageManifest context.project.root, change⟩], some job⟩
  | file {operation target change} (inside : Target.IsInside tree context.project.root target) :
      Planned tree context skipInstall operation (.single target change)
  | twoFiles {key value description sample actual block}
      (present : tree.isFile (context.project.root.child ".env") = .ok true)
      (sampleInside : Target.IsInside tree context.project.root sample)
      (actualInside : Target.IsInside tree context.project.root actual) :
      Planned tree context skipInstall (.addEnvVar key value description none)
        ⟨[⟨sample, .merge .lineAppendDedup block⟩, ⟨actual, .merge .lineAppendDedup block⟩], none⟩
  | command {operation job} : Planned tree context skipInstall operation ⟨[], some job⟩

variable {tree : Tree} {context : Context} {skipInstall : Bool} {operation : Operation} {plan : Plan}
  {target : Target}

/-! ## Targets -/

/-- A text without tags is rendered as it is. -/
theorem Target.rendered_untagged {text : String} (context : Context) (hint : String) (kind : Option ActionKind)
    (untagged : Text.cutAt? Template.tagStart text.toList = none) :
    Target.rendered context hint kind text = .ok text := by
  rw [Target.rendered, Template.renderText, (Template.render_untagged context untagged).2, Except.map,
    String.ofList_toList]
  rfl

/-- So is a text without braces. -/
theorem Target.rendered_unbraced {text : String} (context : Context) (hint : String) (kind : Option ActionKind)
    (unbraced : '\x7b' ∉ text.toList) : Target.rendered context hint kind text = .ok text :=
  Target.rendered_untagged context hint kind (Template.untagged_of_unbraced unbraced)

/-- A name without braces, and without blanks around it, is looked for as it is. -/
theorem Target.ofTemplate_unbraced {kind : ActionKind} {name : String} (unbraced : '\x7b' ∉ name.toList)
    (trimmed : Text.trimmed name = name) (nonempty : name.isEmpty = false) :
    Target.ofTemplate tree context kind name = Target.inside tree context.project.root name := by
  have untagged : Text.contains name "\x7b\x7b" = false := by
    by_contra tagged
    have occurs := Text.occursIn_eq_true_iff.mp (eq_true_of_ne_false tagged)
    exact unbraced (occurs.subset (by simp))
  simp only [Target.ofTemplate, Target.rendered_unbraced _ _ _ unbraced, bind, Except.bind, trimmed, nonempty,
    untagged]
  rfl

/-- A single name is joined to a location as its last part. -/
theorem Tree.join_pathOf {name : String} (single : Path.ofText name = ⟨.relative, [name]⟩) (home : Location) :
    (Tree.pathOf home).join (Path.ofText name) = Tree.pathOf (home ++ [name]) := by
  rw [single]
  rfl

/-- Where the folder of a project is found, and so is a name in it, the name has a target. -/
theorem Target.inside_child {root : Path} {home : Location} {name : String} (ofRoot : tree.resolve root = .ok home)
    (single : Path.ofText name = ⟨.relative, [name]⟩)
    (found : tree.resolve (Tree.pathOf (home ++ [name])) = .ok (home ++ [name])) :
    Target.inside tree root name = .ok ⟨Path.text ⟨.relative, [name]⟩, Tree.pathOf (home ++ [name])⟩ := by
  have below : Target.below? home (home ++ [name]) = some [name] := by
    rw [Target.below?, if_pos (List.isPrefixOf_iff_prefix.mpr (List.prefix_append _ _)), List.drop_left]
  simp only [Target.inside, ofRoot, Tree.join_pathOf single, found, below, Except.mapError, bind, Except.bind]
  rfl

/-- The target that a template names lies inside of the project. -/
theorem Target.isInside_of_ofTemplate {kind : ActionKind} {written : String}
    (found : Target.ofTemplate tree context kind written = .ok target) :
    target.IsInside tree context.project.root := by
  obtain ⟨text, _, found⟩ := exists_of_bind_eq_ok found
  dsimp only at found
  split at found
  next => cases found
  next =>
    split at found
    next => cases found
    next => exact ⟨_, found⟩

/-! ## The plans of operations -/

namespace Plan

/-- The packages are recorded in the manifest; a package manager is launched unless that is turned off. -/
theorem planned_installPackages {packages : List String} {dev : Bool}
    (found : installPackages context skipInstall packages dev = .ok plan) :
    Planned tree context skipInstall (.installPackages packages dev) plan := by
  obtain ⟨rendered, _, found⟩ := exists_of_bind_eq_ok found
  obtain rfl := Except.ok.inj found
  cases skipInstall with
  | false => exact .install rfl
  | true => exact .manifest (.inl rfl)

/-- A script is recorded in the manifest. -/
theorem planned_addScript {name command : String} (found : addScript context name command = .ok plan) :
    Planned tree context skipInstall (.addScript name command) plan := by
  obtain ⟨key, _, found⟩ := exists_of_bind_eq_ok found
  obtain ⟨line, _, found⟩ := exists_of_bind_eq_ok found
  obtain rfl := Except.ok.inj found
  exact .manifest (.inr rfl)

/-- A variable is declared in the file that the action names, else in the file of examples and, if there is
one, in the file of variables. -/
theorem planned_addEnvVar {key value : String} {description path : Option String}
    (found : addEnvVar tree context key value description path = .ok plan) :
    Planned tree context skipInstall (.addEnvVar key value description path) plan := by
  obtain ⟨name, _, found⟩ := exists_of_bind_eq_ok found
  dsimp only at found
  split at found
  next => cases found
  next =>
    obtain ⟨content, _, found⟩ := exists_of_bind_eq_ok found
    obtain ⟨comment, _, found⟩ := exists_of_bind_eq_ok found
    obtain ⟨targets, named, found⟩ := exists_of_bind_eq_ok found
    obtain rfl := Except.ok.inj found
    cases path with
    | some written =>
        obtain ⟨target, ofTemplate, named⟩ := exists_of_bind_eq_ok named
        obtain rfl := Except.ok.inj named
        exact .file (Target.isInside_of_ofTemplate ofTemplate)
    | none =>
        obtain ⟨sample, ofSample, named⟩ := exists_of_bind_eq_ok named
        obtain ⟨present, isFile, named⟩ := exists_of_bind_eq_ok named
        cases present with
        | false =>
            obtain rfl := Except.ok.inj named
            exact .file (Target.isInside_of_ofTemplate ofSample)
        | true =>
            obtain ⟨actual, ofActual, named⟩ := exists_of_bind_eq_ok named
            obtain rfl := Except.ok.inj named
            exact .twoFiles (eq_ok_of_mapError_eq_ok isFile) (Target.isInside_of_ofTemplate ofSample)
              (Target.isInside_of_ofTemplate ofActual)

/-- A command is launched and no file is changed. -/
theorem planned_runCommand {command : String} {workingDir : Option String}
    (found : runCommand tree context command workingDir = .ok plan) :
    Planned tree context skipInstall operation plan := by
  obtain ⟨line, _, found⟩ := exists_of_bind_eq_ok found
  obtain ⟨words, _, found⟩ := exists_of_bind_eq_ok found
  split at found
  next => cases found
  next =>
    obtain ⟨folder, _, found⟩ := exists_of_bind_eq_ok found
    obtain rfl := Except.ok.inj found
    exact .command

/-- A plan that names its file by a template, and changes that file only. -/
theorem planned_of_ofTemplate {kind : ActionKind} {written : String} {next : Target → Except ActionFault Plan}
    (found : Target.ofTemplate tree context kind written >>= next = .ok plan)
    (single : ∀ target, next target = .ok plan → ∃ change, plan = .single target change) :
    Planned tree context skipInstall operation plan := by
  obtain ⟨target, ofTemplate, found⟩ := exists_of_bind_eq_ok found
  obtain ⟨change, rfl⟩ := single target found
  exact .file (Target.isInside_of_ofTemplate ofTemplate)

/-- A text for a new file is written to its target. -/
theorem exists_single_of_creation {text : String} {overwrite : Bool} {merge : Option MergeStrategy}
    (found : creation context target text overwrite merge = .ok plan) : ∃ change, plan = .single target change := by
  obtain ⟨content, _, found⟩ := exists_of_bind_eq_ok found
  exact ⟨_, (Except.ok.inj found).symm⟩

/-- A new file is written once its content is known. -/
theorem planned_createFile {path text : String} {overwrite : Bool} {merge : Option MergeStrategy}
    (found : createFile tree context path text overwrite merge = .ok plan) :
    Planned tree context skipInstall operation plan :=
  planned_of_ofTemplate found fun _ => exists_single_of_creation

/-- A text is appended once it is rendered. -/
theorem planned_appendToFile {path content : String}
    (found : appendToFile tree context path content = .ok plan) :
    Planned tree context skipInstall operation plan := by
  refine planned_of_ofTemplate found fun target found => ?_
  obtain ⟨text, _, found⟩ := exists_of_bind_eq_ok found
  exact ⟨_, (Except.ok.inj found).symm⟩

/-- A text is put in front of a file once it is rendered. -/
theorem planned_prependToFile {path content : String}
    (found : prependToFile tree context path content = .ok plan) :
    Planned tree context skipInstall operation plan := by
  refine planned_of_ofTemplate found fun target found => ?_
  obtain ⟨text, _, found⟩ := exists_of_bind_eq_ok found
  exact ⟨_, (Except.ok.inj found).symm⟩

/-- A mapping is merged once it is known to be one. -/
theorem planned_mergeJson {path : String} {content : JsonPayload}
    (found : mergeJson tree context path content = .ok plan) :
    Planned tree context skipInstall operation plan := by
  refine planned_of_ofTemplate found fun target found => ?_
  obtain ⟨entries, _, found⟩ := exists_of_bind_eq_ok found
  exact ⟨_, (Except.ok.inj found).symm⟩

/-- A mapping is merged once it is rendered. -/
theorem planned_mergeConfig {path : String} {config : Entries} {mode : MergeMode}
    (found : mergeConfig tree context path config mode = .ok plan) :
    Planned tree context skipInstall operation plan := by
  refine planned_of_ofTemplate found fun target found => ?_
  obtain ⟨entries, _, found⟩ := exists_of_bind_eq_ok found
  exact ⟨_, (Except.ok.inj found).symm⟩

/-- A schema file is replaced once it was read and all additions are rendered. -/
theorem planned_extendSchema {path : String} {tables : List SchemaTable} {imports : List String}
    (found : extendSchema tree context path tables imports = .ok plan) :
    Planned tree context skipInstall operation plan := by
  refine planned_of_ofTemplate found fun target found => ?_
  obtain ⟨present, _, found⟩ := exists_of_bind_eq_ok found
  split at found
  next =>
    obtain ⟨text, _, found⟩ := exists_of_bind_eq_ok found
    obtain ⟨lines, _, found⟩ := exists_of_bind_eq_ok found
    obtain ⟨definitions, _, found⟩ := exists_of_bind_eq_ok found
    exact ⟨_, (Except.ok.inj found).symm⟩
  next => cases found

/-- A file is replaced once its modifier is found and has been applied. -/
theorem planned_enhanceFile {path modifier : String} {params : Entries} {fallback : Fallback}
    (found : enhanceFile tree context path modifier params fallback = .ok (some plan)) :
    Planned tree context skipInstall operation plan := by
  obtain ⟨target, ofTemplate, found⟩ := exists_of_bind_eq_ok found
  split at found
  next => split at found <;> cases found
  next =>
    obtain ⟨content, _, found⟩ := exists_of_bind_eq_ok found
    split at found
    next => cases found
    next =>
      obtain ⟨arguments, _, found⟩ := exists_of_bind_eq_ok found
      split at found
      next =>
        obtain rfl := Option.some.inj (Except.ok.inj found)
        exact .file (Target.isInside_of_ofTemplate ofTemplate)
      next =>
        split at found
        next =>
          obtain rfl := Option.some.inj (Except.ok.inj found)
          exact .file (Target.isInside_of_ofTemplate ofTemplate)
        next => cases found

/-- Every plan has one of the shapes. -/
theorem planned_ofOperation (found : ofOperation tree context skipInstall operation = .ok (some plan)) :
    Planned tree context skipInstall operation plan := by
  cases operation with
  | installPackages => exact planned_installPackages (eq_ok_of_map_some_eq_ok found)
  | addScript => exact planned_addScript (eq_ok_of_map_some_eq_ok found)
  | addEnvVar => exact planned_addEnvVar (eq_ok_of_map_some_eq_ok found)
  | createFile path source =>
      cases source with
      | content => exact planned_createFile (eq_ok_of_map_some_eq_ok found)
      | template => cases found
  | appendToFile => exact planned_appendToFile (eq_ok_of_map_some_eq_ok found)
  | prependToFile => exact planned_prependToFile (eq_ok_of_map_some_eq_ok found)
  | runCommand => exact planned_runCommand (eq_ok_of_map_some_eq_ok found)
  | mergeJson => exact planned_mergeJson (eq_ok_of_map_some_eq_ok found)
  | mergeConfig => exact planned_mergeConfig (eq_ok_of_map_some_eq_ok found)
  | extendSchema => exact planned_extendSchema (eq_ok_of_map_some_eq_ok found)
  | enhanceFile => exact planned_enhanceFile found

end Plan

namespace Workspace

variable {workspace : Workspace}

/-- Only a new file from a template file is planned otherwise than by `Plan.ofOperation`, and what is rendered for
it changes nothing of the workspace but the files. -/
theorem plan_cases (workspace : Workspace) (context : Context) (skipInstall : Bool) (operation : Operation) :
    workspace.plan context skipInstall operation
        = (Plan.ofOperation workspace.tree context skipInstall operation, workspace)
      ∨ ∃ path file overwrite merge, operation = .createFile path (.template file) overwrite merge
        ∧ ((∃ fault, Target.ofTemplate workspace.tree context .createFile path = .error fault
            ∧ workspace.plan context skipInstall operation = (.error fault, workspace))
          ∨ ∃ target, Target.ofTemplate workspace.tree context .createFile path = .ok target
            ∧ workspace.plan context skipInstall operation
              = (match (workspace.render (.ofName context file)).1.answer with
                  | .error failure => .error (.rendering (.ofName context file) failure)
                  | .ok text => (Plan.creation context target text overwrite merge).map some,
                (workspace.render (.ofName context file)).2)) := by
  cases operation with
  | createFile path source overwrite merge =>
      cases source with
      | content => exact .inl rfl
      | template file =>
          refine .inr ⟨path, file, overwrite, merge, rfl, ?_⟩
          cases found : Target.ofTemplate workspace.tree context .createFile path with
          | error fault => exact .inl ⟨fault, rfl, by simp only [plan, found]⟩
          | ok target =>
              refine .inr ⟨target, rfl, ?_⟩
              simp only [plan, found]
              split <;> simp_all
  | _ => exact .inl rfl

end Workspace

/-- A plan changes the manifest, or files that lie inside of the project. -/
theorem Planned.inside_or_manifest (planned : Planned tree context skipInstall operation plan) {edit : Edit}
    (member : edit ∈ plan.edits) :
    edit.target.IsInside tree context.project.root
      ∨ operation.ChangesManifest ∧ edit.target = Target.packageManifest context.project.root := by
  cases planned with
  | manifest changes =>
      obtain rfl := List.mem_singleton.mp member
      exact .inr ⟨changes, rfl⟩
  | install installs =>
      obtain rfl := List.mem_singleton.mp member
      exact .inr ⟨.inl rfl, rfl⟩
  | file inside =>
      obtain rfl := List.mem_singleton.mp member
      exact .inl inside
  | twoFiles present sampleInside actualInside =>
      rcases List.mem_cons.mp member with rfl | second
      · exact .inl sampleInside
      · obtain rfl := List.mem_singleton.mp second
        exact .inl actualInside
  | command => cases member

end Scaffold
