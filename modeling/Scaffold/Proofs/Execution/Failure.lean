import Scaffold.Proofs.Execution.Scoping
import Scaffold.Proofs.Tree.Files

/-!
# What a failure leaves behind

Nothing is undone when an application fails.  Almost all plans have one step, and a step that fails changes
no file, unless its fault shows only when the file is open; the two kinds of plans with two steps leave the
first one done when the second fails.  `Leftover` says so of one application, and `run_failsCleanly` of every
failure in a run, where templates do no more than to answer.
-/

namespace Scaffold

/-- What an application that failed has left: no file is changed; or the package manager failed after the
packages were recorded in the manifest; or a variable could not be declared in the file of variables after
it was declared in the file of examples; or the only file to change was opened for a text that cannot be
encoded, and no other file is changed. -/
inductive Leftover (context : Context) (skipInstall : Bool) (before : Workspace) (after : Tree) :
    Operation → Prop where
  | nothing {operation} (adds : before.tree.AddsFolders after) :
      Leftover context skipInstall before after operation
  | manifest {packages dev change job changed fault} (installs : skipInstall = false)
      (planned : Plan.ofOperation before.tree context skipInstall (.installPackages packages dev)
        = .ok (some ⟨[⟨Target.packageManifest context.project.root, change⟩], some job⟩))
      (recorded : change.makeAt before.tree (context.project.root.child "package.json")
        = (.ok changed, after))
      (revises : before.tree.Revises (context.project.root.child "package.json") after)
      (refused : (job.launch after before.runner).1 = .error fault) :
      Leftover context skipInstall before after (.installPackages packages dev)
  | sample {key value description sample actual change changed fault between}
      (present : before.tree.isFile (context.project.root.child ".env") = .ok true)
      (planned : Plan.ofOperation before.tree context skipInstall (.addEnvVar key value description none)
        = .ok (some ⟨[⟨sample, change⟩, ⟨actual, change⟩], none⟩))
      (declared : change.makeAt before.tree sample.path = (.ok changed, between))
      (revises : before.tree.Revises sample.path between)
      (refused : change.makeAt between actual.path = (.error fault, after))
      (adds : between.AddsFolders after) :
      Leftover context skipInstall before after (.addEnvVar key value description none)
  | unencoded {operation edit job fault}
      (planned : (before.plan context skipInstall operation).1 = .ok (some ⟨[edit], job⟩))
      (refused : edit.change.makeAt before.tree edit.target.path = (.error fault, after))
      (late : fault.isLate) (revises : before.tree.Revises edit.target.path after) :
      Leftover context skipInstall before after operation

variable {workspace after : Workspace} {tree left : Tree} {path : Path} {context : Context}
  {options : RunOptions} {skipInstall : Bool} {operation : Operation} {plan : Plan} {message : String}
  {change : Change} {edit : Edit} {rest : List Edit} {fault : ActionFault} {changed : Bool}

/-- A change settles the text of a file by a rule. -/
theorem Change.exists_rule (change : Change) (path : Path) :
    ∃ rule, ∀ tree : Tree, change.makeAt tree path = tree.revise path rule := by
  cases change with
  | merge strategy content => exact ⟨_, fun _ => rfl⟩
  | mergeData data mode => exact ⟨_, fun _ => rfl⟩
  | unencodable fault => exact ⟨fun _ => .error (.unwritable fault), fun _ => rfl⟩

/-- A change that cannot be made leaves folders, unless its fault shows only when the file is open. -/
theorem Change.addsFolders_or_isLate_of_makeAt {fault : MergeFault}
    (failed : change.makeAt tree path = (.error fault, left)) : tree.AddsFolders left ∨ fault.isLate := by
  obtain ⟨rule, makes⟩ := change.exists_rule path
  exact (Tree.addsFolders_or_empties_of_revise ((makes tree).symm.trans failed)).imp_right (·.isLate)

/-- Entry lines that cannot be merged into a file leave folders. -/
theorem Change.addsFolders_of_merge_lines {block : String} {fault : MergeFault}
    (failed : (Change.merge .lineAppendDedup block).makeAt tree path = (.error fault, left)) :
    tree.AddsFolders left := by
  have fails : tree.Fails path (mergedText? .lineAppendDedup path · block) fault left :=
    Tree.revise_eq_error_iff.mp failed
  cases fails with
  | unread => exact .refl tree
  | refused => exact .refl tree
  | unsaved _ _ _ unsaved => exact Tree.addsFolders_of_writeBelow unsaved
  | unopened _ _ _ unopened => exact Tree.addsFolders_of_writeBelow unopened
  | emptied _ refused => cases refused

/-- A change changes the file at its path, if any. -/
theorem Change.revises_of_makeAt {answer : Except MergeFault Bool}
    (made : change.makeAt tree path = (answer, left)) : tree.Revises path left := by
  obtain ⟨rule, makes⟩ := change.exists_rule path
  have revises := Tree.revises_revise tree path rule
  rwa [← makes, made] at revises

namespace Workspace

/-- An edit that cannot be made is a change that cannot be made. -/
theorem makeAt_of_edit_error (failed : workspace.edit edit = (.error fault, after)) :
    ∃ cause, edit.change.makeAt workspace.tree edit.target.path = (.error cause, after.tree) := by
  unfold Workspace.edit at failed
  cases made : edit.change.makeAt workspace.tree edit.target.path with
  | mk answer left =>
      rw [made] at failed
      cases answer with
      | ok => cases failed
      | error cause =>
          obtain rfl := (Prod.mk.inj failed).2
          exact ⟨cause, rfl⟩

/-- An edit that is made is a change that is made. -/
theorem makeAt_of_edit_ok (done : workspace.edit edit = (.ok changed, after)) :
    edit.change.makeAt workspace.tree edit.target.path = (.ok changed, after.tree)
      ∧ after.runner = workspace.runner := by
  unfold Workspace.edit at done
  cases made : edit.change.makeAt workspace.tree edit.target.path with
  | mk answer left =>
      rw [made] at done
      cases answer with
      | error => cases done
      | ok same =>
          obtain ⟨answered, rfl⟩ := Prod.mk.inj done
          obtain rfl := Except.ok.inj answered
          exact ⟨rfl, rfl⟩

/-- Edits that were made are no failure. -/
theorem isSuccess_effectOf (touched : List (String × Bool)) : (effectOf touched).isSuccess = true := by
  unfold effectOf
  dsimp only
  split <;> rfl

/-- A plan fails in an edit, or when its job is launched after all edits. -/
theorem carryOut_failed (failed : workspace.carryOut plan = (.failed message, after)) :
    (∃ fault, workspace.editAll plan.edits = (.error fault, after))
      ∨ ∃ touched edited fault, workspace.editAll plan.edits = (.ok touched, edited)
          ∧ edited.launch plan.job = (.error fault, after) := by
  unfold carryOut at failed
  split at failed
  next fault left edited =>
    obtain rfl := (Prod.mk.inj failed).2
    exact .inl ⟨fault, edited⟩
  next touched edited made =>
    split at failed
    next fault left launched =>
      obtain rfl := (Prod.mk.inj failed).2
      exact .inr ⟨touched, edited, fault, made, launched⟩
    next done launched =>
      have succeeds := isSuccess_effectOf touched
      rw [(Prod.mk.inj failed).1] at succeeds
      cases succeeds

/-- Edits fail in the first one, or in the others after the first was made. -/
theorem editAll_cons_error (failed : workspace.editAll (edit :: rest) = (.error fault, after)) :
    (∃ cause, edit.change.makeAt workspace.tree edit.target.path = (.error cause, after.tree))
      ∨ ∃ (changed : Bool) (between : Workspace) (cause : ActionFault),
        edit.change.makeAt workspace.tree edit.target.path = (.ok changed, between.tree)
          ∧ between.editAll rest = (.error cause, after) := by
  rw [editAll] at failed
  split at failed
  next cause left refused =>
    obtain rfl := (Prod.mk.inj failed).2
    exact .inl (makeAt_of_edit_error refused)
  next changed between done =>
    dsimp only at failed
    cases others : between.editAll rest with
    | mk answer left =>
        rw [others] at failed
        cases answer with
        | ok => cases failed
        | error cause =>
            obtain rfl := (Prod.mk.inj failed).2
            exact .inr ⟨changed, between, cause, (makeAt_of_edit_ok done).1, others⟩

/-- When edits are made, the first one is made and then the others. -/
theorem editAll_cons_ok {touched : List (String × Bool)}
    (made : workspace.editAll (edit :: rest) = (.ok touched, after)) :
    ∃ (changed : Bool) (between : Workspace) (others : List (String × Bool)),
      edit.change.makeAt workspace.tree edit.target.path = (.ok changed, between.tree)
        ∧ between.runner = workspace.runner ∧ between.editAll rest = (.ok others, after) := by
  rw [editAll] at made
  split at made
  next => cases made
  next changed between done =>
    dsimp only at made
    cases others : between.editAll rest with
    | mk answer left =>
        rw [others] at made
        cases answer with
        | error => cases made
        | ok more =>
            obtain rfl := (Prod.mk.inj made).2
            obtain ⟨makes, same⟩ := makeAt_of_edit_ok done
            exact ⟨changed, between, more, makes, same, others⟩

/-- A job that cannot be launched leaves the files. -/
theorem launch_error {job : Option Job} (refused : workspace.launch job = (.error fault, after)) :
    after.tree = workspace.tree ∧ ∃ launched cause,
      job = some launched ∧ (launched.launch workspace.tree workspace.runner).1 = .error cause := by
  cases job with
  | none => cases refused
  | some launched =>
      unfold launch at refused
      dsimp only at refused
      cases answered : launched.launch workspace.tree workspace.runner with
      | mk answer runner =>
          rw [answered] at refused
          obtain ⟨failed, rfl⟩ := Prod.mk.inj refused
          cases answer with
          | ok => cases failed
          | error cause => exact ⟨rfl, launched, cause, rfl, congrArg (·.1) answered⟩

end Workspace

/-- What a plan for one file leaves when it fails in its edit. -/
theorem leftover_of_editAll_single {job : Option Job} {renderings : Renderings}
    (found : (workspace.plan context skipInstall operation).1 = .ok (some ⟨[edit], job⟩))
    (failed : ({ workspace with renderings } : Workspace).editAll [edit] = (.error fault, after)) :
    Leftover context skipInstall workspace after.tree operation := by
  rcases Workspace.editAll_cons_error failed with ⟨cause, refused⟩ | ⟨_, _, _, _, refused⟩
  · rcases Change.addsFolders_or_isLate_of_makeAt refused with adds | late
    · exact .nothing adds
    · exact .unencoded found refused late (Change.revises_of_makeAt refused)
  · cases refused

/-- What a plan leaves when it fails, whatever is still to be rendered. -/
theorem leftover_of_carryOut {renderings : Renderings}
    (planned : Planned workspace.tree context skipInstall operation plan)
    (found : (workspace.plan context skipInstall operation).1 = .ok (some plan))
    (failed : ({ workspace with renderings } : Workspace).carryOut plan = (.failed message, after)) :
    Leftover context skipInstall workspace after.tree operation := by
  rcases Workspace.carryOut_failed failed with
    ⟨fault, unedited⟩ | ⟨touched, edited, fault, made, unlaunched⟩
  · cases planned with
    | manifest changes => exact leftover_of_editAll_single found unedited
    | install installs => exact leftover_of_editAll_single found unedited
    | file inside => exact leftover_of_editAll_single found unedited
    | twoFiles present sampleInside actualInside =>
        rcases Workspace.editAll_cons_error unedited with ⟨cause, refused⟩
          | ⟨changed, between, cause, declared, unfinished⟩
        · exact .nothing (Change.addsFolders_of_merge_lines refused)
        · rcases Workspace.editAll_cons_error unfinished with ⟨cause, refused⟩ | ⟨_, _, _, _, refused⟩
          · exact .sample present found declared (Change.revises_of_makeAt declared) refused
              (Change.addsFolders_of_merge_lines refused)
          · cases refused
    | command => cases unedited
  · obtain ⟨sameTree, job, cause, hasJob, refused⟩ := Workspace.launch_error unlaunched
    cases planned with
    | manifest changes => cases hasJob
    | install installs =>
        obtain rfl := Option.some.inj hasJob
        obtain ⟨changed, between, others, recorded, sameRunner, done⟩ := Workspace.editAll_cons_ok made
        obtain rfl : between = edited := (Prod.mk.inj done).2
        rw [← sameTree] at recorded refused
        exact .manifest installs found recorded (Change.revises_of_makeAt recorded) (sameRunner ▸ refused)
    | file inside => cases hasJob
    | twoFiles present sampleInside actualInside => cases hasJob
    | command =>
        obtain rfl := (Prod.mk.inj made).2
        exact .nothing (sameTree ▸ .refl _)

namespace Execution

variable {actions : List Action} {before : Workspace} {outcome : Outcome}

/-- What an application leaves when it fails, where templates write nothing. -/
theorem leftover_of_attempt (writes : workspace.renderings.WriteNothing)
    (failed : attempt options context workspace operation = (.failed message, after)) :
    Leftover context options.skipInstall workspace after.tree operation := by
  rcases attempt_cases writes options context operation with same | ⟨plan, left, found, same⟩
  · rw [failed] at same
    exact .nothing (same ▸ .refl _)
  · exact leftover_of_carryOut (Workspace.planned_plan found) found (same.symm.trans failed)

/-- What an application finds bound: the item of its iteration, and what the context binds where it has none. -/
inductive Binds (context : Context) (action : Action) : Option Nat → Option Value → Prop where
  | once : Binds context action none context.item
  | item {items position element} (repeats : Repeats context action items)
      (present : items[position]? = some element) : Binds context action (some position) (some element)

/-- An operation for which a value that no file can hold is rendered into a text. -/
def RendersTorn (context : Context) (skipInstall : Bool) (before : Workspace) (operation : Operation) : Prop :=
  ∃ fault, (before.plan context skipInstall operation).1 = .error (.template (.unwritable fault))
    ∧ fault.isLate = true

/-- A failed outcome stands for an application of its action, to the item of its iteration, that has left no
more than the first of two steps, unless a value that no file can hold was rendered for it. -/
structure FailsCleanly (options : RunOptions) (context : Context) (actions : List Action)
    (before : Workspace) (outcome : Outcome) (after : Workspace) : Prop where
  applies : Applies options context actions before outcome after
  leftover : outcome.effect.isSuccess = false → ∃ action item, actions[outcome.index]? = some action
    ∧ Binds context action outcome.iteration item
    ∧ (¬RendersTorn { context with item } options.skipInstall before action.operation →
      Leftover { context with item } options.skipInstall before after.tree action.operation)

/-- An application that fails leaves what its plan leaves. -/
theorem leftover_of_applyOnce {index : Nat} {iteration : Option Nat} (writes : before.renderings.WriteNothing)
    (failed : (applyOnce options context before index operation iteration).1.effect.isSuccess = false) :
    Leftover context options.skipInstall before
      (applyOnce options context before index operation iteration).2.tree operation := by
  cases attempted : attempt options context before operation with
  | mk effect after =>
      rw [applyOnce_eq attempted] at failed ⊢
      rw [tree_record]
      cases effect with
      | failed message => exact leftover_of_attempt writes attempted
      | _ => cases failed

/-- Every failure of an application is clean. -/
theorem Applies.failsCleanly (writes : before.renderings.WriteNothing)
    (applies : Applies options context actions before outcome after) :
    FailsCleanly options context actions before outcome after := by
  refine ⟨applies, fun failed => ?_⟩
  cases applies with
  | noted stands notes =>
      refine ⟨_, _, stands, .once, fun _ => .nothing ?_⟩
      rw [tree_record]
      exact .refl _
  | once stands wanted single => exact ⟨_, _, stands, .once, fun _ => leftover_of_applyOnce writes failed⟩
  | item stands repeats present =>
      exact ⟨_, _, stands, .item repeats present, fun _ => leftover_of_applyOnce writes failed⟩

/-- Where templates do no more than to answer, a run reports, and whatever fails in it changes no file, but for the
first step of an application of two, and for a text that cannot be encoded. -/
theorem run_failsCleanly (options : RunOptions) (context : Context) (actions : List Action)
    (workspace : Workspace) (keeps : workspace.renderings.KeepContext)
    (writes : workspace.renderings.WriteNothing) :
    ∃ report done, Step.run options actions ⟨context, workspace⟩ = .ok report ⟨context, done⟩
      ∧ Chain (FailsCleanly options context actions) workspace report.outcomes done := by
  refine ⟨_, _, (Step.always_run options actions context workspace keeps).1, ?_⟩
  exact (chain_run options context actions workspace).imp_of_preserves (·.renderings.WriteNothing)
    (fun kept applies => kept.of_leaves applies.continues.left) (fun kept applies => applies.failsCleanly kept) writes

/-- A change that is made is an edit that is made. -/
theorem edit_of_makeAt {target : Target} (made : change.makeAt workspace.tree target.path = (.ok changed, left)) :
    workspace.edit ⟨target, change⟩ = (.ok changed, { workspace with tree := left }) := by
  rw [Workspace.edit, made]
  rfl

/-- A plan for one file is carried out when its edit is made and its job, if any, is launched. -/
theorem carryOut_of_launched {target : Target} {job : Option Job} {done : Workspace}
    (made : change.makeAt workspace.tree target.path = (.ok changed, left))
    (launched : ({ workspace with tree := left } : Workspace).launch job = (.ok (), done)) :
    workspace.carryOut ⟨[⟨target, change⟩], job⟩ = (Workspace.effectOf [(target.label, changed)], done) := by
  rw [Workspace.carryOut, Workspace.editAll, edit_of_makeAt made]
  dsimp only [Workspace.editAll, Except.map]
  rw [launched]

/-- A plan for one file is carried out when its edit is made. -/
theorem carryOut_single {target : Target}
    (made : change.makeAt workspace.tree target.path = (.ok changed, left)) :
    workspace.carryOut (.single target change)
      = (Workspace.effectOf [(target.label, changed)], { workspace with tree := left }) :=
  carryOut_of_launched made rfl

/-- A plan whose job is refused fails after its edit was made. -/
theorem carryOut_of_refused {target : Target} {job : Job} {cause : RunFault} {runner : Runner}
    (made : change.makeAt workspace.tree target.path = (.ok changed, left))
    (refused : job.launch left workspace.runner = (.error cause, runner)) :
    workspace.carryOut ⟨[⟨target, change⟩], some job⟩
      = (.failed (ActionFault.launch cause).message,
        ⟨left, { runner with shown := [] }, workspace.shown ++ runner.shown, workspace.renderings⟩) := by
  rw [Workspace.carryOut, Workspace.editAll, edit_of_makeAt made]
  dsimp only [Workspace.editAll, Except.map]
  rw [Workspace.launch]
  dsimp only
  rw [refused]
  rfl

/-- The context of a blueprint for the project in the folder `proj`. -/
def demoContext : Context :=
  ⟨⟨"demo", ⟨.relative, ["proj"]⟩, "", "", "", "0.1.0", "MIT"⟩, [], none, none, [], none, .none⟩

/-- A workspace with nothing but the folder of the project, in which the first command will fail. -/
def offline : Workspace :=
  ⟨⟨[(["proj"], .folder)], []⟩, .start ⟨some .npm, 60⟩ false [.finished 1 "" "offline"], [], .none⟩

/-- The packages that are recorded. -/
def recordedPackages : Entries := [(.text "dependencies", .mapping [(.text "left-pad", .text "latest")])]

/-- The manifest with these packages. -/
def recordedText : String :=
  "\x7b\n  \"dependencies\": \x7b\n    \"left-pad\": \"latest\"\n  \x7d\n\x7d\n"

/-- The folder of the project is found from the folder that holds it. -/
theorem look_proj {tree : Tree} (home : tree.home = []) (stands : tree.node? ["proj"] = some .folder) :
    tree.look ⟨.relative, ["proj"]⟩ = .ok .folder := by
  refine Tree.look_eq_ok_iff.mpr ⟨["proj"],
    Tree.locate_eq_ok_iff.mpr ⟨by decide, by decide, ?_⟩, stands⟩
  rw [Tree.startOf, if_neg (by decide), home]
  exact .down rfl (by decide) (by decide) stands (fun _ => Node.noConfusion) .arrive

/-- In the workspace the packages can be recorded. -/
theorem recorded_offline :
    (Change.mergeData recordedPackages .deep).makeAt offline.tree ⟨.relative, ["proj", "package.json"]⟩
      = (.ok true, offline.tree.put ["proj", "package.json"] (.file recordedText.toUTF8)) := by
  have located : offline.tree.locate true ⟨.relative, ["proj", "package.json"]⟩
      = .ok ["proj", "package.json"] := by
    rw [Tree.locate_eq_ok_iff]
    exact ⟨by decide, by decide,
      .down rfl (by decide) (by decide) rfl (fun _ => Node.noConfusion)
        (.missing rfl (by decide) (by decide) rfl)⟩
  exact Tree.revise_of_absent (look_proj rfl rfl) located rfl rfl

/-- The package manager fails wherever it is launched. -/
theorem refused_offline (tree : Tree) (home : tree.home = []) (stands : tree.node? ["proj"] = some .folder) :
    ∃ cause runner,
      (Job.install ["left-pad"] false "proj").launch tree offline.runner = (.error cause, runner) := by
  have path : Path.ofText "proj" = ⟨.relative, ["proj"]⟩ := by cbv
  have folder : tree.isFolder (Path.ofText "proj") = .ok true := by
    rw [path, Tree.isFolder, Tree.test, look_proj home stands]
  simp only [Job.launch, Runner.install, Runner.packageManager, offline, Runner.start, Runner.run,
    PackageManager.installWords, folder]
  exact ⟨_, _, rfl⟩

/-- The installation is attempted, and fails behind the record of its packages. -/
theorem run_offline : ∃ message,
    (run ⟨false, false⟩ demoContext [.always (.installPackages ["left-pad"] false)] offline).1.outcomes
        = [⟨0, .installPackages, .failed message, none⟩]
      ∧ (run ⟨false, false⟩ demoContext [.always (.installPackages ["left-pad"] false)]
          offline).2.tree.file? ["proj", "package.json"] = some recordedText.toUTF8 := by
  have planned : Plan.ofOperation offline.tree demoContext false (.installPackages ["left-pad"] false)
      = .ok (some ⟨[⟨Target.packageManifest demoContext.project.root, .mergeData recordedPackages .deep⟩],
        some (.install ["left-pad"] false "proj")⟩) := by
    have rendered : Plan.renderedAll demoContext "" .installPackages ["left-pad"] = .ok ["left-pad"] := by
      rw [Plan.renderedAll, Target.rendered_unbraced _ _ _ (by decide)]
      rfl
    have versions : Plan.versions ["left-pad"] = [(.text "left-pad", .text "latest")] := rfl
    have folder : demoContext.project.root.text = "proj" := by decide
    simp only [Plan.ofOperation, Plan.installPackages, rendered, versions, folder, bind, Except.bind]
    rfl
  obtain ⟨cause, runner, refused⟩ := refused_offline
    (offline.tree.put ["proj", "package.json"] (.file recordedText.toUTF8)) rfl rfl
  have attempted : attempt ⟨false, false⟩ demoContext offline (.installPackages ["left-pad"] false)
      = offline.carryOut ⟨[⟨Target.packageManifest demoContext.project.root,
        .mergeData recordedPackages .deep⟩], some (.install ["left-pad"] false "proj")⟩ :=
    attempt_of_ofOperation planned
  obtain ⟨outcomes, files⟩ := run_always (attempted.trans (carryOut_of_refused recorded_offline refused))
  have nonempty : (["proj", "package.json"] : Location) ≠ [] := List.cons_ne_nil _ _
  exact ⟨_, outcomes, by rw [files, Tree.file?_put_self nonempty]⟩

/-- The failure of the package manager is clean. -/
theorem run_failsCleanly_offline :
    offline.renderings.KeepContext ∧ offline.renderings.WriteNothing
      ∧ ∃ report done, Step.run ⟨false, false⟩ [.always (.installPackages ["left-pad"] false)] ⟨demoContext, offline⟩
          = .ok report ⟨demoContext, done⟩
        ∧ Chain (FailsCleanly ⟨false, false⟩ demoContext [.always (.installPackages ["left-pad"] false)])
            offline report.outcomes done :=
  ⟨Renderings.keepContext_none, Renderings.writeNothing_none,
    run_failsCleanly _ _ _ _ Renderings.keepContext_none Renderings.writeNothing_none⟩

/-- When the package manager fails, the action has failed and its packages are recorded in a new file. -/
theorem run_failed_recorded :
    ∃ report done message,
      Step.run ⟨false, false⟩ [.always (.installPackages ["left-pad"] false)] ⟨demoContext, offline⟩
          = .ok report ⟨demoContext, done⟩
        ∧ report.outcomes = [⟨0, .installPackages, .failed message, none⟩]
        ∧ offline.tree.file? ["proj", "package.json"] = none
        ∧ done.tree.file? ["proj", "package.json"] = some recordedText.toUTF8 := by
  obtain ⟨message, outcomes, recorded⟩ := run_offline
  exact ⟨_, _, message, (Step.always_run _ _ demoContext offline Renderings.keepContext_none).1,
    outcomes, rfl, recorded⟩

end Execution

end Scaffold
