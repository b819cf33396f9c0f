import Scaffold.Proofs.Execution.Failure
import Scaffold.Proofs.Tree.Resolved
import Scaffold.Proofs.Tree.Retaining

/-!
# Files outside of the project

Targets that are found to lie inside of the project are written there and nowhere else; the manifest of the
packages is written where its path leads.  So as long as that path leads into the project and templates write
nothing, no run changes a file outside of it (`run_contained`); where the path is a link out of the project, a
run does (`run_escapes`).
-/

namespace Scaffold

namespace Tree

/-- A path resolves to a location inside of a folder. -/
def ResolvesBelow (tree : Tree) (folder : Location) (path : Path) : Prop :=
  ∃ location, tree.Resolves (tree.startOf path) path.parts location ∧ folder <+: location

/-- Outside of a folder no file was changed, and all links are as they were. -/
structure Contained (folder : Location) (before after : Tree) : Prop where
  links : before.SameLinks after
  files : ∀ location, ¬folder <+: location → after.file? location = before.file? location

variable {tree before between after : Tree} {folder : Location} {path : Path}

theorem Contained.refl (folder : Location) (tree : Tree) : Contained folder tree tree :=
  ⟨.refl tree, fun _ _ => rfl⟩

theorem Contained.trans (first : Contained folder before between) (second : Contained folder between after) :
    Contained folder before after :=
  ⟨first.links.trans second.links, fun location outside =>
    (second.files location outside).trans (first.files location outside)⟩

/-- Paths that take the same way resolve to the same side of a folder. -/
theorem ResolvesBelow.congr (same : before.SameLinks after) (below : before.ResolvesBelow folder path) :
    after.ResolvesBelow folder path := by
  obtain ⟨location, resolves, inside⟩ := below
  refine ⟨location, ?_, inside⟩
  rw [startOf, same.home]
  exact resolves.congr same

/-- A path of a followable tree that is resolved inside of a folder resolves there. -/
theorem IsFollowable.resolvesBelow {location : Location} (followable : tree.IsFollowable)
    (found : tree.resolve path = .ok location) (inside : folder <+: location) :
    tree.ResolvesBelow folder path := ⟨location, followable.resolves found, inside⟩

/-- A change of the file at a path that resolves inside of a folder is contained in it. -/
theorem Revises.contained (revises : tree.Revises path after) (start : tree.IsResolved (tree.startOf path))
    (below : tree.ResolvesBelow folder path) : Contained folder tree after := by
  obtain ⟨location, resolves, inside⟩ := below
  refine ⟨revises.sameLinks start, fun other outside => revises.file?_of_ne resolves ?_⟩
  rintro rfl
  exact outside inside

end Tree

variable {tree : Tree} {context : Context} {options : RunOptions} {folder home : Location} {plan : Plan}
  {operation : Operation} {edits : List Edit} {root : Path} {target : Target}

/-- A target that was found to lie inside of the project resolves inside of it. -/
theorem Target.IsInside.resolvesBelow (inside : target.IsInside tree root)
    (followable : tree.IsFollowable) (resolved : tree.resolve root = .ok home) :
    tree.ResolvesBelow home target.path := by
  obtain ⟨path, found⟩ := inside
  unfold Target.inside at found
  obtain ⟨base, ofRoot, found⟩ := exists_of_bind_eq_ok found
  obtain rfl := Except.ok.inj (resolved.symm.trans (eq_ok_of_mapError_eq_ok ofRoot))
  obtain ⟨location, ofPath, found⟩ := exists_of_bind_eq_ok found
  replace ofPath := eq_ok_of_mapError_eq_ok ofPath
  split at found
  next => cases found
  next names below =>
    obtain rfl := Except.ok.inj found
    unfold Target.below? at below
    split at below
    next isPrefix =>
      have straight := (followable.resolves ofPath).isResolved (followable.start _)
      exact ⟨location, straight.resolves, List.isPrefixOf_iff_prefix.mp isPrefix⟩
    next => cases below

/-- A target is the same in trees in which paths take the same way. -/
theorem Target.ofTemplate_congr {after : Tree} {kind : ActionKind} {written : String}
    (followable : tree.IsFollowable) (same : tree.SameLinks after) :
    Target.ofTemplate after context kind written = Target.ofTemplate tree context kind written := by
  simp only [Target.ofTemplate, Target.inside, followable.resolve_congr same]

namespace Workspace

variable {workspace : Workspace}

/-- An edit of a target inside of a folder is contained in it. -/
theorem contained_edit {edit : Edit} (followable : workspace.tree.IsFollowable)
    (below : workspace.tree.ResolvesBelow folder edit.target.path) :
    workspace.tree.Contained folder (workspace.edit edit).2.tree := by
  have revises : workspace.tree.Revises edit.target.path (workspace.edit edit).2.tree :=
    Change.revises_of_makeAt rfl
  exact revises.contained (followable.start _) below

/-- Edits of targets inside of a folder are contained in it. -/
theorem contained_editAll (followable : workspace.tree.IsFollowable)
    (below : ∀ edit ∈ edits, workspace.tree.ResolvesBelow folder edit.target.path) :
    workspace.tree.Contained folder (workspace.editAll edits).2.tree := by
  induction edits generalizing workspace with
  | nil => exact .refl folder _
  | cons edit rest inductionHypothesis =>
      obtain ⟨here, others⟩ := List.forall_mem_cons.mp below
      have first := contained_edit followable here
      rw [editAll]
      split
      next fault after refused =>
        rw [refused] at first
        exact first
      next changed after done =>
        rw [done] at first
        exact first.trans (inductionHypothesis (followable.congr first.links)
          fun other member => (others other member).congr first.links)

/-- Launching a job leaves the files. -/
theorem tree_launch (job : Option Job) : (workspace.launch job).2.tree = workspace.tree := by
  cases job <;> rfl

/-- A plan that is carried out leaves the files that its edits leave. -/
theorem tree_carryOut (workspace : Workspace) (plan : Plan) :
    (workspace.carryOut plan).2.tree = (workspace.editAll plan.edits).2.tree := by
  unfold carryOut
  split
  next fault after refused => rw [refused]
  next touched after done =>
    rw [done]
    have launched := after.tree_launch plan.job
    split
    next refused => rwa [refused] at launched
    next started => rwa [started] at launched

/-- A plan for targets inside of a folder is contained in it. -/
theorem contained_carryOut (followable : workspace.tree.IsFollowable)
    (below : ∀ edit ∈ plan.edits, workspace.tree.ResolvesBelow folder edit.target.path) :
    workspace.tree.Contained folder (workspace.carryOut plan).2.tree := by
  rw [tree_carryOut]
  exact contained_editAll followable below

end Workspace

namespace Execution

variable {actions : List Action} {action : Action} {before after : Workspace} {outcome : Outcome}

/-- A project lies in a followable tree, and the path of its manifest, if an action changes the manifest, is
resolved inside of the project. -/
structure IsSafe (tree : Tree) (context : Context) (home : Location) (actions : List Action) : Prop where
  followable : tree.IsFollowable
  resolved : tree.resolve context.project.root = .ok home
  manifest : ∀ action ∈ actions, action.operation.ChangesManifest →
    ∃ location, tree.resolve (context.project.root.child "package.json") = .ok location
      ∧ home <+: location

/-- What is safe remains so as long as all links are as they were. -/
theorem IsSafe.congr {other : Tree} (safe : IsSafe tree context home actions)
    (same : tree.SameLinks other) : IsSafe other context home actions :=
  ⟨safe.followable.congr same, (safe.followable.resolve_congr same _).trans safe.resolved,
    fun action member changes => by
      rw [safe.followable.resolve_congr same]
      exact safe.manifest action member changes⟩

/-- The attempt of an action is contained in the project, where templates write nothing. -/
theorem IsSafe.contained_attempt {element : Option Value} (safe : IsSafe before.tree context home actions)
    (writes : before.renderings.WriteNothing) (member : action ∈ actions) :
    before.tree.Contained home
      (attempt options { context with item := element } before action.operation).2.tree := by
  rcases attempt_cases writes options { context with item := element } action.operation with
    same | ⟨plan, left, found, same⟩
  · rw [same]
    exact .refl home _
  · rw [same]
    let handed : Workspace := { before with renderings := left }
    have followable : handed.tree.IsFollowable := safe.followable
    refine Workspace.contained_carryOut followable fun edit edits => ?_
    rcases (Workspace.planned_plan found).inside_or_manifest edits with inside | ⟨changes, same⟩
    · exact inside.resolvesBelow safe.followable safe.resolved
    · obtain ⟨location, found, inside⟩ := safe.manifest action member changes
      rw [same]
      exact safe.followable.resolvesBelow found inside

/-- Whatever is applied to a safe project is contained in it. -/
theorem Applies.contained (applies : Applies options context actions before outcome after)
    (safe : IsSafe before.tree context home actions) (writes : before.renderings.WriteNothing) :
    before.tree.Contained home after.tree := by
  cases applies with
  | noted stands notes =>
      rw [tree_record]
      exact .refl home _
  | once stands wanted single =>
      rw [tree_applyOnce]
      exact safe.contained_attempt writes (List.mem_of_getElem? stands)
  | item stands repeats present =>
      rw [tree_applyOnce]
      exact safe.contained_attempt writes (List.mem_of_getElem? stands)

/-- A run changes no file outside of the project, provided that templates do no more than to answer, that the
path of the manifest, if the manifest is to be changed, leads into the project, and that no link leads back to
itself. -/
theorem run_contained {workspace : Workspace} {location : Location} (keeps : workspace.renderings.KeepContext)
    (writes : workspace.renderings.WriteNothing) (safe : IsSafe workspace.tree context home actions)
    (outside : ¬home <+: location) :
    ∃ report done, Step.run options actions ⟨context, workspace⟩ = .ok report ⟨context, done⟩
      ∧ done.tree.file? location = workspace.tree.file? location := by
  refine ⟨_, _, (Step.always_run options actions context workspace keeps).1, ?_⟩
  have contained := Chain.preserves
    (fun current => current.renderings.WriteNothing ∧ workspace.tree.Contained home current.tree)
    (fun kept applies => ⟨kept.1.of_leaves applies.continues.left,
      kept.2.trans (applies.contained (safe.congr kept.2.links) kept.1)⟩) ⟨writes, .refl home _⟩
    (chain_run options context actions workspace)
  exact contained.2.files location outside

/-- A project with a link from one of its folders to another. -/
def linked : Tree :=
  ⟨[(["proj"], .folder), (["proj", "docs"], .link "notes"), (["proj", "notes"], .folder),
    (["shared.json"], .file ⟨#[]⟩)], []⟩

/-- The links of the project are one. -/
theorem node?_linked {location : Location} {target : String}
    (present : linked.node? location = some (.link target)) :
    location = ["proj", "docs"] ∧ target = "notes" := by
  have nonempty : location ≠ [] := by
    rintro rfl
    cases present
  have member := Tree.mem_nodes nonempty present
  simpa [linked] using member

/-- No link of the project leads back to itself. -/
theorem isFollowable_linked : linked.IsFollowable := by
  refine Tree.isFollowable_of_beside (Tree.isResolved_root linked) fun here name target present => ?_
  obtain ⟨place, rfl⟩ := node?_linked present
  have split : here ++ [name] = ["proj"] ++ ["docs"] := place
  obtain rfl : here = ["proj"] := (List.append_inj' split rfl).1
  refine ⟨"notes", by cbv, by decide, fun further found => ?_⟩
  exact absurd (node?_linked found).1 (by decide)

/-- A file is created behind the link, and a script is recorded in the manifest. -/
def docsBlueprint : List Action :=
  [.always (.createFile "docs/a.md" (.content "a") false none), .always (.addScript "dev" "vite")]

/-- The blueprint is safe, and the file beside the project remains empty. -/
theorem run_contained_linked :
    Renderings.none.KeepContext ∧ Renderings.none.WriteNothing
      ∧ IsSafe linked demoContext ["proj"] docsBlueprint ∧ ¬(["proj"] : Location) <+: ["shared.json"]
      ∧ ∃ report done,
        Step.run ⟨false, false⟩ docsBlueprint ⟨demoContext, linked, .start .default false [], [], .none⟩
            = .ok report ⟨demoContext, done⟩
          ∧ done.tree.file? ["shared.json"] = some ⟨#[]⟩ := by
  have unlinked : ∀ location target, location ≠ ["proj", "docs"] →
      linked.node? location ≠ some (.link target) :=
    fun location target differs found => differs (node?_linked found).1
  have manifest : linked.Resolves [] ["proj", "package.json"] ["proj", "package.json"] :=
    .down (by decide) (fun target => unlinked _ target (by decide))
      (.down (by decide) (fun target => unlinked _ target (by decide)) .arrive)
  have safe : IsSafe linked demoContext ["proj"] docsBlueprint :=
    ⟨isFollowable_linked, by cbv, fun _ _ _ => ⟨["proj", "package.json"],
      isFollowable_linked.resolve_of_resolves (by decide) manifest, by decide⟩⟩
  have outside : ¬(["proj"] : Location) <+: ["shared.json"] := by decide
  let workspace : Workspace := ⟨linked, .start .default false [], [], .none⟩
  have keeps : workspace.renderings.KeepContext := Renderings.keepContext_none
  have writes : workspace.renderings.WriteNothing := Renderings.writeNothing_none
  exact ⟨keeps, writes, safe, outside, run_contained keeps writes safe outside⟩

/-- A project whose manifest is a link to a file beside the project. -/
def sharing : Workspace :=
  ⟨⟨[(["proj"], .folder), (["proj", "package.json"], .link "../shared.json")], []⟩,
    .start .default false [], [], .none⟩

/-- The script that is recorded. -/
def recordedScript : Entries := [(.text "scripts", .mapping [(.text "dev", .text "vite")])]

/-- The manifest with this script. -/
def scriptText : String := "\x7b\n  \"scripts\": \x7b\n    \"dev\": \"vite\"\n  \x7d\n\x7d\n"

/-- A script that is added to the project creates a file outside of it. -/
theorem run_escapes :
    sharing.tree.resolve demoContext.project.root = .ok ["proj"]
      ∧ ¬(["proj"] : Location) <+: ["shared.json"]
      ∧ sharing.tree.file? ["shared.json"] = none
      ∧ ∃ report done,
        Step.run ⟨false, false⟩ [.always (.addScript "dev" "vite")] ⟨demoContext, sharing⟩
            = .ok report ⟨demoContext, done⟩
          ∧ done.tree.file? ["shared.json"] = some scriptText.toUTF8 := by
  have located : sharing.tree.locate true ⟨.relative, ["proj", "package.json"]⟩ = .ok ["shared.json"] := by
    rw [Tree.locate_eq_ok_iff]
    exact ⟨by decide, by decide,
      .down rfl (by decide) (by decide) rfl (fun _ => Node.noConfusion)
        (.follow rfl (by decide) (by decide) rfl (.inr rfl)
          (.up rfl (.missing rfl (by decide) (by decide) rfl)))⟩
  have recorded : (Change.mergeData recordedScript .deep).makeAt sharing.tree
      ⟨.relative, ["proj", "package.json"]⟩
      = (.ok true, sharing.tree.put ["shared.json"] (.file scriptText.toUTF8)) :=
    Tree.revise_of_absent (look_proj rfl rfl) located rfl rfl
  have planned : Plan.ofOperation sharing.tree demoContext false (.addScript "dev" "vite")
      = .ok (some (.single (Target.packageManifest demoContext.project.root)
        (.mergeData recordedScript .deep))) := by
    have name : Target.rendered demoContext "" none "dev" = .ok "dev" :=
      Target.rendered_unbraced _ _ _ (by decide)
    have command : Target.rendered demoContext "" (some .runCommand) "vite" = .ok "vite" :=
      Target.rendered_unbraced _ _ _ (by decide)
    simp only [Plan.ofOperation, Plan.addScript, name, command, bind, Except.bind]
    rfl
  have attempted : attempt ⟨false, false⟩ demoContext sharing (.addScript "dev" "vite")
      = sharing.carryOut (.single (Target.packageManifest demoContext.project.root)
        (.mergeData recordedScript .deep)) := attempt_of_ofOperation planned
  obtain ⟨_, files⟩ := run_always (attempted.trans (carryOut_single recorded))
  have nonempty : (["shared.json"] : Location) ≠ [] := List.cons_ne_nil _ _
  have ran := (Step.always_run ⟨false, false⟩ [.always (.addScript "dev" "vite")] demoContext sharing
    Renderings.keepContext_none).1
  exact ⟨by cbv, by decide, rfl, _, _, ran, by rw [files, Tree.file?_put_self nonempty]⟩

end Execution

end Scaffold

/-! ## What a blueprint retains -/

namespace Scaffold

variable {workspace before after : Workspace} {tree left : Tree} {path : Path} {change : Change}
  {options : RunOptions} {context : Context} {actions : List Action} {outcome : Outcome}

/-- A change of a file retains what is there. -/
theorem Change.retains_makeAt (wellFormed : tree.WellFormed) (change : Change) (path : Path) :
    tree.Retains (change.makeAt tree path).2 := by
  obtain ⟨rule, makes⟩ := change.exists_rule path
  rw [makes]
  exact wellFormed.retains_revise path rule

namespace Workspace

/-- So do edits, also those before a fault. -/
theorem retains_editAll (wellFormed : workspace.tree.WellFormed) (edits : List Edit) :
    workspace.tree.Retains (workspace.editAll edits).2.tree := by
  induction edits generalizing workspace with
  | nil => exact .refl wellFormed
  | cons edit rest inductionHypothesis =>
      have first : workspace.tree.Retains (workspace.edit edit).2.tree :=
        Change.retains_makeAt wellFormed edit.change edit.target.path
      rw [editAll]
      split
      next fault after refused =>
        rw [refused] at first
        exact first
      next changed after done =>
        rw [done] at first
        exact first.trans (inductionHypothesis first.wellFormed)

end Workspace

namespace Execution

/-- So does an attempt, where templates write nothing. -/
theorem retains_attempt (wellFormed : workspace.tree.WellFormed) (writes : workspace.renderings.WriteNothing)
    (options : RunOptions) (context : Context) (operation : Operation) :
    workspace.tree.Retains (attempt options context workspace operation).2.tree := by
  rcases attempt_cases writes options context operation with same | ⟨plan, left, -, same⟩
  · rw [same]
    exact .refl wellFormed
  · rw [same, Workspace.tree_carryOut]
    let handed : Workspace := { workspace with renderings := left }
    have formed : handed.tree.WellFormed := wellFormed
    exact Workspace.retains_editAll formed plan.edits

/-- So does whatever is applied. -/
theorem Applies.retains (applies : Applies options context actions before outcome after)
    (wellFormed : before.tree.WellFormed) (writes : before.renderings.WriteNothing) :
    before.tree.Retains after.tree := by
  cases applies with
  | noted stands notes =>
      rw [tree_record]
      exact .refl wellFormed
  | once stands wanted single =>
      rw [tree_applyOnce]
      exact retains_attempt wellFormed writes _ _ _
  | item stands repeats present =>
      rw [tree_applyOnce]
      exact retains_attempt wellFormed writes _ _ _

/-- A run retains what is there, where templates write nothing. -/
theorem retains_run (wellFormed : workspace.tree.WellFormed) (writes : workspace.renderings.WriteNothing)
    (options : RunOptions) (context : Context) (actions : List Action) :
    workspace.tree.Retains (run options context actions workspace).2.tree :=
  (Chain.preserves (fun current => current.renderings.WriteNothing ∧ workspace.tree.Retains current.tree)
    (fun kept applies => ⟨kept.1.of_leaves applies.continues.left,
      kept.2.trans (applies.retains kept.2.wellFormed kept.1)⟩) ⟨writes, .refl wellFormed⟩
    (chain_run options context actions workspace)).2

end Execution

end Scaffold
