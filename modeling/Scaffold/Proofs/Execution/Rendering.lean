import Scaffold.Proofs.Execution.Plans
import Scaffold.Proofs.Execution.Trace

/-!
# Renderings of an attempt

An attempt makes some of the renderings to come and leaves the others (`Renderings.Leaves`), so what is known of all
renderings is known of those that are left; what was shown stays shown (`Workspace.Continues`).  Nothing else happens
to a workspace while an operation is planned: where templates write nothing, the files are as they were until the
plan is carried out (`plan_of_writeNothing`).
-/

namespace Scaffold

namespace Renderings

variable {first second third : Renderings}

/-- Renderings that are left when some of others were made. -/
def Leaves (first second : Renderings) : Prop := ∃ count, second = first.later count

/-- All renderings are left when none was made. -/
theorem Leaves.refl (renderings : Renderings) : renderings.Leaves renderings := ⟨0, rfl⟩

/-- What is left of what is left. -/
theorem Leaves.trans (left : first.Leaves second) (further : second.Leaves third) : first.Leaves third := by
  obtain ⟨count, rfl⟩ := left
  obtain ⟨more, rfl⟩ := further
  refine ⟨more + count, ?_⟩
  funext position
  simp only [later, Nat.add_assoc]

/-- Renderings that are left keep contexts if all do. -/
theorem KeepContext.of_leaves (keeps : first.KeepContext) (left : first.Leaves second) : second.KeepContext := by
  obtain ⟨count, rfl⟩ := left
  exact fun position => keeps (position + count)

/-- Renderings that are left write nothing if none does. -/
theorem WriteNothing.of_leaves (writes : first.WriteNothing) (left : first.Leaves second) : second.WriteNothing := by
  obtain ⟨count, rfl⟩ := left
  exact fun position => writes (position + count)

/-- A template file that is not found changes no context. -/
theorem keepContext_none : none.KeepContext := fun _ _ _ _ => rfl

/-- A template file that is not found writes nothing. -/
theorem writeNothing_none : none.WriteNothing := fun _ _ _ => rfl

/-- Renderings of template files without anything to fill in, which all hold one text. -/
def plain (text : String) : Renderings := fun _ tree _ => ⟨.ok text, tree, id⟩

/-- A template file without anything to fill in changes no context. -/
theorem keepContext_plain (text : String) : (plain text).KeepContext := fun _ _ _ _ => rfl

end Renderings

namespace Workspace

variable {workspace between after : Workspace} {context : Context} {skipInstall : Bool} {operation : Operation}
  {plan : Plan} {planned : Option Plan}

/-! ## Plans -/

/-- While an operation is planned, nothing of the workspace changes but the files and the renderings to come. -/
theorem exists_plan_eq (workspace : Workspace) (context : Context) (skipInstall : Bool) (operation : Operation) :
    ∃ tree left, workspace.renderings.Leaves left
      ∧ (workspace.plan context skipInstall operation).2 = { workspace with tree, renderings := left } := by
  rcases workspace.plan_cases context skipInstall operation with
    same | ⟨path, file, overwrite, merge, _, ⟨fault, _, same⟩ | ⟨target, _, same⟩⟩
  · exact ⟨_, _, .refl _, by rw [same]⟩
  · exact ⟨_, _, .refl _, by rw [same]⟩
  · exact ⟨_, _, ⟨1, rfl⟩, by rw [same]; rfl⟩

/-- Where templates write nothing, the files are as they were. -/
theorem plan_of_writeNothing (writes : workspace.renderings.WriteNothing) :
    (workspace.plan context skipInstall operation).2.tree = workspace.tree := by
  rcases workspace.plan_cases context skipInstall operation with
    same | ⟨path, file, overwrite, merge, _, ⟨fault, _, same⟩ | ⟨target, _, same⟩⟩
  · rw [same]
  · rw [same]
  · rw [same]
    exact writes 0 workspace.tree _

/-- Every plan has one of the shapes. -/
theorem planned_plan (found : (workspace.plan context skipInstall operation).1 = .ok (some plan)) :
    Planned workspace.tree context skipInstall operation plan := by
  rcases workspace.plan_cases context skipInstall operation with
    same | ⟨path, file, overwrite, merge, _, ⟨fault, _, same⟩ | ⟨target, ofTemplate, same⟩⟩
  · rw [same] at found
    exact Plan.planned_ofOperation found
  · rw [same] at found
    cases found
  · rw [same] at found
    dsimp only at found
    split at found
    next => cases found
    next =>
      obtain ⟨change, rfl⟩ := Plan.exists_single_of_creation (eq_ok_of_map_some_eq_ok found)
      exact .file (Target.isInside_of_ofTemplate ofTemplate)

/-- An operation that is planned without a rendering is planned so. -/
theorem plan_of_ofOperation (found : Plan.ofOperation workspace.tree context skipInstall operation = .ok planned) :
    workspace.plan context skipInstall operation = (.ok planned, workspace) := by
  rcases workspace.plan_cases context skipInstall operation with same | ⟨_, _, _, _, rfl, _⟩
  · rw [same, found]
  · cases found

/-! ## What goes on -/

/-- A workspace comes after another one: what was shown stays shown, and some of the renderings to come are left. -/
structure Continues (before after : Workspace) : Prop where
  shown : before.shown <+: after.shown
  left : before.renderings.Leaves after.renderings

/-- A workspace comes after itself. -/
theorem Continues.refl (workspace : Workspace) : workspace.Continues workspace :=
  ⟨List.prefix_refl _, .refl _⟩

/-- What comes after what comes after. -/
theorem Continues.trans (first : workspace.Continues between) (second : between.Continues after) :
    workspace.Continues after := ⟨first.shown.trans second.shown, first.left.trans second.left⟩

/-- Lines are added to those that were shown. -/
theorem continues_tell (workspace : Workspace) (lines : List Shown) :
    workspace.Continues (workspace.tell lines) := ⟨List.prefix_append .., .refl _⟩

/-- Planning shows nothing. -/
theorem continues_plan (workspace : Workspace) (context : Context) (skipInstall : Bool) (operation : Operation) :
    workspace.Continues (workspace.plan context skipInstall operation).2 := by
  obtain ⟨tree, left, leaves, same⟩ := workspace.exists_plan_eq context skipInstall operation
  rw [same]
  exact ⟨List.prefix_refl _, leaves⟩

/-- Edits change nothing but the files. -/
theorem editAll_eq (edits : List Edit) (workspace : Workspace) :
    ∃ tree, (workspace.editAll edits).2 = { workspace with tree } := by
  induction edits generalizing workspace with
  | nil => exact ⟨_, rfl⟩
  | cons edit rest inductionHypothesis =>
      rw [editAll]
      split
      next fault left refused => exact ⟨_, (congrArg (·.2) refused).symm⟩
      next changed between done =>
        obtain rfl : { workspace with tree := _ } = between := congrArg (·.2) done
        exact inductionHypothesis _

/-- Edits render nothing. -/
theorem renderings_editAll (edits : List Edit) (workspace : Workspace) :
    (workspace.editAll edits).2.renderings = workspace.renderings := by
  obtain ⟨tree, same⟩ := editAll_eq edits workspace
  rw [same]

/-- Launches render nothing. -/
theorem renderings_launch (job : Option Job) (workspace : Workspace) :
    (workspace.launch job).2.renderings = workspace.renderings := by
  cases job <;> rfl

/-- Launches add what they show to what was shown. -/
theorem continues_launch (job : Option Job) (workspace : Workspace) :
    workspace.Continues (workspace.launch job).2 := by
  cases job with
  | none => exact .refl _
  | some job => exact ⟨List.prefix_append .., .refl _⟩

/-- A plan is carried out without renderings, and what it shows is added. -/
theorem continues_carryOut (plan : Plan) (workspace : Workspace) :
    workspace.Continues (workspace.carryOut plan).2 := by
  obtain ⟨tree, same⟩ := editAll_eq plan.edits workspace
  have edited : workspace.Continues (workspace.editAll plan.edits).2 := by
    rw [same]
    exact ⟨List.prefix_refl _, .refl _⟩
  rw [carryOut]
  split
  next fault left refused => rw [refused] at edited; exact edited
  next touched between made =>
    rw [made] at edited
    have launched := continues_launch plan.job between
    split
    next fault left refused => rw [refused] at launched; exact edited.trans launched
    next answer done ended => rw [ended] at launched; exact edited.trans launched

end Workspace

namespace Execution

variable {options : RunOptions} {context : Context} {workspace : Workspace} {operation : Operation}
  {plan : Plan}

/-- An operation that is planned without a rendering is attempted by carrying out the plan. -/
theorem attempt_of_ofOperation
    (found : Plan.ofOperation workspace.tree context options.skipInstall operation = .ok (some plan)) :
    attempt options context workspace operation = workspace.carryOut plan := by
  rw [attempt, Workspace.plan_of_ofOperation found]

/-- Where templates write nothing, an attempt leaves the files, or it carries out a plan in the files as they
were. -/
theorem attempt_cases (writes : workspace.renderings.WriteNothing) (options : RunOptions) (context : Context)
    (operation : Operation) :
    (attempt options context workspace operation).2.tree = workspace.tree
      ∨ ∃ plan left, (workspace.plan context options.skipInstall operation).1 = .ok (some plan)
        ∧ attempt options context workspace operation
          = ({ workspace with renderings := left } : Workspace).carryOut plan := by
  have sameFiles : (workspace.plan context options.skipInstall operation).2.tree = workspace.tree :=
    Workspace.plan_of_writeNothing writes
  obtain ⟨tree, left, -, same⟩ := workspace.exists_plan_eq context options.skipInstall operation
  obtain rfl : tree = workspace.tree := by rwa [same] at sameFiles
  rw [attempt]
  cases found : workspace.plan context options.skipInstall operation with
  | mk answer planned =>
      obtain rfl : planned = _ := (congrArg (·.2) found).symm.trans same
      rcases answer with fault | none | plan
      · exact .inl rfl
      · exact .inl rfl
      · exact .inr ⟨plan, left, rfl, rfl⟩

/-- A workspace goes on with an attempt. -/
theorem continues_attempt (options : RunOptions) (context : Context) (workspace : Workspace)
    (operation : Operation) : workspace.Continues (attempt options context workspace operation).2 := by
  have planned := workspace.continues_plan context options.skipInstall operation
  rw [attempt]
  split
  next fault after found => rw [found] at planned; exact planned
  next after found => rw [found] at planned; exact planned
  next plan after found => rw [found] at planned; exact planned.trans (Workspace.continues_carryOut plan after)

/-- It goes on with an outcome that is recorded. -/
theorem continues_record (options : RunOptions) (workspace : Workspace) (outcome : Outcome) (text : String) :
    workspace.Continues (record options workspace outcome text).2 := by
  rw [record]
  dsimp only
  split
  · exact workspace.continues_tell _
  · exact .refl _

/-- So does it with an application. -/
theorem continues_applyOnce (options : RunOptions) (context : Context) (workspace : Workspace) (index : Nat)
    (operation : Operation) (iteration : Option Nat) :
    workspace.Continues (applyOnce options context workspace index operation iteration).2 :=
  (continues_attempt options context workspace operation).trans (continues_record ..)

/-- So does it at every point of a run. -/
theorem Applies.continues {actions : List Action} {before after : Workspace} {outcome : Outcome}
    (applies : Applies options context actions before outcome after) : before.Continues after := by
  cases applies with
  | noted => exact continues_record ..
  | once => exact continues_applyOnce options context before _ _ none
  | item => exact continues_applyOnce options _ before _ _ _

/-- So does it in a chain of them. -/
theorem Chain.continues {actions : List Action} {before after : Workspace} {outcomes : List Outcome}
    (chain : Chain (Applies options context actions) before outcomes after) : before.Continues after :=
  chain.preserves before.Continues (fun known applies => known.trans applies.continues) (.refl _)

/-- A workspace goes on with an action, wherever it stands. -/
theorem continues_runAction (options : RunOptions) (context : Context) (workspace : Workspace) (index : Nat)
    (action : Action) : workspace.Continues (runAction options context workspace index action).2 := by
  have stands : (List.replicate (index + 1) action)[index]? = some action := by simp
  exact (chain_runAction stands workspace).continues

/-- So does it with a run. -/
theorem continues_run (options : RunOptions) (context : Context) (actions : List Action) (workspace : Workspace) :
    workspace.Continues (run options context actions workspace).2 :=
  (chain_run options context actions workspace).continues

end Execution

end Scaffold
