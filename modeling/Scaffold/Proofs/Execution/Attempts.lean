import Scaffold.Proofs.Execution.FileSteps

/-!
# The steps of an attempt

An attempt takes just the steps that are known beforehand (`Execution.performs_attempt`), be it the first one or one
behind others.  Most plans do not depend on what files hold, so their edits are the steps.  The plans that extend a
schema or enhance a file are made from the text of that file, and a variable is declared in the file of variables
only if there is one: for these the plan is compared with the alteration for every text that the file may have.
-/

namespace Scaffold

namespace Execution

variable {options : RunOptions} {workspace : Workspace} {context : Context} {operation : Operation}
  {base : Tree} {home : Location} {steps : List FileStep} {step : FileStep} {plan : Plan} {target : Target}

/-- An attempt takes the steps of its plan. -/
theorem performs_attempt_of_plan (skips : options.skipInstall = true) (noCommand : operation.kind ≠ .runCommand)
    (planned : Plan.ofOperation workspace.tree context true operation = .ok (some plan))
    (performs : Tree.Performs workspace.tree steps (∃ touched, (workspace.editAll plan.edits).1 = .ok touched)
      (workspace.editAll plan.edits).2.tree) :
    Tree.Performs workspace.tree steps ((attempt options context workspace operation).1.isSuccess = true)
      (attempt options context workspace operation).2.tree := by
  rw [attempt_of_ofOperation (skips ▸ planned)]
  exact Workspace.performs_carryOut (Plan.job_eq_none noCommand planned) performs

/-- An attempt whose plan does not depend on what files hold takes the steps of its plan. -/
theorem performs_attempt_of_congr (project : base.IsProject context.project.root home)
    (planned : (do match ← Plan.ofOperation base context true operation with
      | none => return []
      | some plan => Application.editSteps base .make plan.edits) = Except.ok steps)
    (same : Plan.ofOperation workspace.tree context true operation
      = Plan.ofOperation base context true operation)
    (short : ∀ step ∈ steps, Tree.pathDefect? step.location = none)
    (skips : options.skipInstall = true) (noCommand : operation.kind ≠ .runCommand)
    (retains : base.Retains workspace.tree) :
    Tree.Performs workspace.tree steps ((attempt options context workspace operation).1.isSuccess = true)
      (attempt options context workspace operation).2.tree := by
  obtain ⟨plan?, found, planned⟩ := exists_of_bind_eq_ok planned
  cases plan? with
  | none =>
      obtain rfl := Except.ok.inj planned
      rw [attempt, Workspace.plan_of_ofOperation (skips ▸ same.trans found)]
      exact .refl retains.wellFormed rfl
  | some plan =>
      exact performs_attempt_of_plan skips noCommand (same.trans found)
        (Workspace.performs_editAll planned retains (Plan.reaches_edits project found short))

/-- The text that an attempt settles on which makes a change, or none, or fails before. -/
def settledText (path : Path) (existing : Option String) :
    Except ActionFault (Option Change) → Option (Option String)
  | .error _ => none
  | .ok none => some none
  | .ok (some change) => (change.rule path existing).toOption

/-- The rule by which a text becomes what was chosen for it.  How the choice fails does not matter here, since the file
is not touched then. -/
def chosenRule (choose : Option String → Except ActionFault (Option Change)) (path : Path)
    (existing : Option String) : Except MergeFault (Option String) :=
  match choose existing with
  | .error _ => .error (.unknownMode "" "")
  | .ok none => .ok none
  | .ok (some change) => change.rule path existing

/-- The rule settles on the text that the attempt settles on. -/
theorem toOption_chosenRule (choose : Option String → Except ActionFault (Option Change)) (path : Path)
    (existing : Option String) :
    (chosenRule choose path existing).toOption = settledText path existing (choose existing) := by
  rw [chosenRule]
  rcases choose existing with fault | none | change <;> rfl

/-- The change that was chosen for the text of a file is made as the rule revises that file. -/
theorem makeAt_of_chosen {tree : Tree} {choose : Option String → Except ActionFault (Option Change)} {path : Path}
    {existing : Option String} {change : Change} (found : tree.existingText path = .ok existing)
    (chosen : choose existing = .ok (some change)) :
    change.makeAt tree path = tree.revise path (chosenRule choose path) := by
  have same : chosenRule choose path existing = change.rule path existing := by rw [chosenRule, chosen]
  rw [change.makeAt_eq, Tree.revise, Tree.revise, found]
  dsimp only
  rw [same]

/-- An attempt whose plan depends on the text of its file takes a step if the plan settles on what the alteration
makes of the text. -/
theorem performs_attempt_of_text (choose : Option String → Except ActionFault (Option Change))
    (wellFormed : workspace.tree.WellFormed) (reaches : workspace.tree.Reaches target.path step.location)
    (wants : ∀ existing, settledText target.path existing (choose existing) = step.alteration.wanted existing)
    (unread : ∀ cause, workspace.tree.existingText target.path = .error cause →
      ∃ fault, workspace.plan context options.skipInstall operation = (.error fault, workspace))
    (planned : ∀ existing, workspace.tree.existingText target.path = .ok existing →
      workspace.plan context options.skipInstall operation
        = ((choose existing).map (Option.map (.single target)), workspace)) :
    Tree.Performs workspace.tree [step] ((attempt options context workspace operation).1.isSuccess = true)
      (attempt options context workspace operation).2.tree := by
  have performs := Tree.performs_revise (chosenRule choose target.path) wellFormed reaches fun existing =>
    (toOption_chosenRule choose target.path existing).trans (wants existing)
  rw [attempt]
  cases found : workspace.tree.existingText target.path with
  | error cause =>
      obtain ⟨fault, failed⟩ := unread cause found
      rw [failed]
      rw [Tree.revise, found] at performs
      exact performs.congr (iff_of_false (by rintro ⟨_, ⟨⟩⟩) (by rintro ⟨⟩))
  | ok existing =>
      rw [planned existing found]
      cases chosen : choose existing with
      | ok change? =>
          cases change? with
          | some change =>
              obtain ⟨success, left⟩ := Workspace.carryOut_single_iff (makeAt_of_chosen found chosen)
              dsimp only [Except.map, Option.map_some]
              rw [left]
              exact performs.congr success.symm
          | none =>
              rw [Tree.revise, found] at performs
              dsimp only at performs
              rw [chosenRule, chosen] at performs
              exact performs.congr (iff_of_true ⟨false, rfl⟩ rfl)
      | error fault =>
          rw [Tree.revise, found] at performs
          dsimp only at performs
          rw [chosenRule, chosen] at performs
          exact performs.congr (iff_of_false (by rintro ⟨_, ⟨⟩⟩) (by rintro ⟨⟩))

/-! ## Schemas -/

/-- A file that is not there has no text. -/
theorem isFile_of_existingText {tree : Tree} {path : Path} (found : tree.existingText path = .ok none) :
    tree.isFile path = .ok false := by
  obtain ⟨present, isFile, found⟩ := exists_of_bind_eq_ok found
  cases present with
  | false => exact eq_ok_of_mapError_eq_ok isFile
  | true =>
      obtain ⟨_, _, found⟩ := exists_of_bind_eq_ok found
      cases found

/-- The change of a schema, given the text of its file. -/
def extension (addition : SchemaAddition) : Option String → Except ActionFault (Option Change)
  | some text => .ok (some (.merge .replace (addition.extended text)))
  | none => .error (.missingSchema addition.target.label)

/-- An attempt to extend a schema takes one step. -/
theorem performs_attempt_extendSchema {path : String} {tables : List SchemaTable} {imports : List String}
    (project : base.IsProject context.project.root home)
    (planned : (Application.steps base ⟨context, .extendSchema path tables imports⟩) = .ok steps)
    (short : ∀ step ∈ steps, Tree.pathDefect? step.location = none) (retains : base.Retains workspace.tree) :
    Tree.Performs workspace.tree steps
      ((attempt options context workspace (.extendSchema path tables imports)).1.isSuccess = true)
      (attempt options context workspace (.extendSchema path tables imports)).2.tree := by
  obtain ⟨target, named, planned⟩ := exists_of_bind_eq_ok planned
  obtain ⟨lines, ofImports, planned⟩ := exists_of_bind_eq_ok planned
  obtain ⟨definitions, ofTables, planned⟩ := exists_of_bind_eq_ok planned
  obtain ⟨step, ofTarget, planned⟩ := exists_of_bind_eq_ok planned
  obtain rfl := Except.ok.inj planned
  obtain ⟨location, found, ofTarget⟩ := exists_of_bind_eq_ok ofTarget
  obtain rfl := Except.ok.inj ofTarget
  have reaches := (Target.isInside_of_ofTemplate named).reaches project.followable
    (eq_ok_of_mapError_eq_ok found) (short _ List.mem_cons_self)
  have still := (Target.ofTemplate_congr project.followable retains.links).trans named
  let addition : SchemaAddition := ⟨target, lines, definitions⟩
  have rendered : addition.IsRendered workspace.tree context path tables imports := ⟨still, ofImports, ofTables⟩
  have plans : workspace.plan context options.skipInstall (.extendSchema path tables imports)
      = ((Plan.extendSchema workspace.tree context path tables imports).map some, workspace) := rfl
  refine performs_attempt_of_text (extension addition) retains.wellFormed (reaches.later retains)
    (fun existing => ?_) (fun cause read => ?_) fun existing read => ?_
  · cases existing <;> rfl
  · rw [plans]
    cases plan : Plan.extendSchema workspace.tree context path tables imports with
    | error fault => exact ⟨fault, rfl⟩
    | ok plan =>
        obtain ⟨other, text, again, found⟩ := Plan.exists_of_extendSchema plan
        obtain rfl := again.unique rendered
        rw [read] at found
        cases found
  · rw [plans]
    cases existing with
    | some text =>
        rw [rendered.extendSchema_eq read]
        rfl
    | none =>
        simp only [Plan.extendSchema, still, isFile_of_existingText read, Except.mapError, bind, Except.bind]
        rfl

/-! ## Modifiers -/

/-- The text that a modifier starts from, given the text of its file; none to skip the action. -/
def enhancedFrom (label : String) (fallback : Fallback) : Option String → Except ActionFault (Option String)
  | some text => .ok (some text)
  | none =>
    match fallback with
    | .skip => .ok none
    | .create => .ok (some "")
    | .error => .error (.missingFile label)

/-- The change of an enhanced file, given the text that the modifier makes of it.  A text with a lone half cannot be
encoded. -/
def enhancedChange : Except ModifierFault String → Except ActionFault (Option Change)
  | .ok enhanced => .ok (some (.merge .replace enhanced))
  | .error fault =>
    match fault.lateFault? with
    | some late => .ok (some (.unencodable late))
    | none => .error (.modifier fault)

/-- The change of a file that is enhanced, given the text of the file; none to skip the action. -/
def enhancement (label : String) (modifier : Modifier) (arguments : Except ActionFault Entries)
    (fallback : Fallback) (existing : Option String) : Except ActionFault (Option Change) := do
  match ← enhancedFrom label fallback existing with
  | none => return none
  | some text => enhancedChange (modifier text (← arguments))

/-- Whether a file can be enhanced, and with which result, is what the alteration says. -/
theorem settledText_enhancement (label : String) (path : Path) (modifier : Modifier)
    (arguments : Except ActionFault Entries) (fallback : Fallback) (existing : Option String) :
    settledText path existing (enhancement label modifier arguments fallback existing)
      = (Alteration.enhance modifier arguments fallback).wanted existing := by
  have enhances : ∀ text : String,
      settledText path existing (do enhancedChange (modifier text (← arguments)))
        = (do return some (← (modifier text (← arguments.toOption)).toOption)) := by
    intro text
    cases arguments with
    | error fault => rfl
    | ok entries =>
        simp only [bind, Except.bind, Except.toOption, Option.bind]
        cases modifier text entries with
        | ok enhanced => rfl
        | error fault =>
            rw [enhancedChange]
            cases fault.lateFault? <;> rfl
  cases existing with
  | some text => exact enhances text
  | none =>
      cases fallback with
      | skip => rfl
      | create => exact enhances ""
      | error => rfl

/-- The content that a modifier starts from is the text of its file, or what is said for a missing file. -/
theorem contentToEnhance_eq (tree : Tree) (target : Target) (fallback : Fallback) :
    (∀ cause, tree.existingText target.path = .error cause →
        ∃ fault, Plan.contentToEnhance tree target fallback = .error fault)
      ∧ ∀ existing, tree.existingText target.path = .ok existing →
        Plan.contentToEnhance tree target fallback = enhancedFrom target.label fallback existing := by
  unfold Tree.existingText Plan.contentToEnhance
  rcases tree.isFile target.path with error | present
  · exact ⟨fun _ _ => ⟨_, rfl⟩, fun _ => nofun⟩
  · cases present with
    | false =>
        refine ⟨fun _ => nofun, fun existing found => ?_⟩
        obtain rfl := Except.ok.inj found
        cases fallback <;> rfl
    | true =>
        rcases tree.readText target.path with failure | text
        · exact ⟨fun _ _ => ⟨_, rfl⟩, fun _ => nofun⟩
        · refine ⟨fun _ => nofun, fun existing found => ?_⟩
          obtain rfl := Except.ok.inj found
          rfl

/-- The plan of an enhancement makes the change of the file, if it can be read. -/
theorem enhanceFile_eq {tree : Tree} {path modifier : String} (params : Entries) (fallback : Fallback)
    {change : Modifier} (named : Target.ofTemplate tree context .enhanceFile path = .ok target)
    (known : Modifier.named modifier = .ok change) :
    (∀ cause, tree.existingText target.path = .error cause →
        ∃ fault, Plan.enhanceFile tree context path modifier params fallback = .error fault)
      ∧ ∀ existing, tree.existingText target.path = .ok existing →
        Plan.enhanceFile tree context path modifier params fallback
          = (enhancement target.label change
              (Plan.renderedEntries context target.label .enhanceFile params) fallback existing).map
            (Option.map (.single target)) := by
  obtain ⟨unread, content⟩ := contentToEnhance_eq tree target fallback
  refine ⟨fun cause read => ?_, fun existing read => ?_⟩
  · obtain ⟨fault, failed⟩ := unread cause read
    refine ⟨fault, ?_⟩
    simp only [Plan.enhanceFile, named, known, failed, bind, Except.bind]
  · simp only [Plan.enhanceFile, named, known, content existing read, enhancement, bind, Except.bind]
    rcases enhancedFrom target.label fallback existing with fault | text
    · rfl
    · cases text with
      | none => rfl
      | some text =>
          rcases Plan.renderedEntries context target.label .enhanceFile params with fault | entries
          · rfl
          · dsimp only
            cases change text entries with
            | ok enhanced => rfl
            | error fault =>
                rw [enhancedChange]
                dsimp only
                cases fault.lateFault? <;> rfl

/-- An attempt to enhance a file takes one step, or none if its modifier is unknown. -/
theorem performs_attempt_enhanceFile {path modifier : String} {params : Entries} {fallback : Fallback}
    (project : base.IsProject context.project.root home)
    (planned : (Application.steps base ⟨context, .enhanceFile path modifier params fallback⟩) = .ok steps)
    (short : ∀ step ∈ steps, Tree.pathDefect? step.location = none) (retains : base.Retains workspace.tree) :
    Tree.Performs workspace.tree steps
      ((attempt options context workspace (.enhanceFile path modifier params fallback)).1.isSuccess = true)
      (attempt options context workspace (.enhanceFile path modifier params fallback)).2.tree := by
  obtain ⟨target, named, planned⟩ := exists_of_bind_eq_ok planned
  have still := (Target.ofTemplate_congr project.followable retains.links).trans named
  cases known : Modifier.named modifier with
  | error fault =>
      rw [known] at planned
      dsimp only at planned
      split at planned
      next skips =>
        obtain rfl := Except.ok.inj planned
        have skipped : Plan.ofOperation workspace.tree context options.skipInstall
            (.enhanceFile path modifier params fallback) = .ok none := by
          simp only [Plan.ofOperation, Plan.enhanceFile, still, known, bind, Except.bind, if_pos skips]
          rfl
        rw [attempt, Workspace.plan_of_ofOperation skipped]
        exact .refl retains.wellFormed rfl
      next => cases planned
  | ok change =>
      rw [known] at planned
      obtain ⟨step, ofTarget, planned⟩ := exists_of_bind_eq_ok planned
      obtain rfl := Except.ok.inj planned
      obtain ⟨location, found, ofTarget⟩ := exists_of_bind_eq_ok ofTarget
      obtain rfl := Except.ok.inj ofTarget
      have reaches := (Target.isInside_of_ofTemplate named).reaches project.followable
        (eq_ok_of_mapError_eq_ok found) (short _ List.mem_cons_self)
      obtain ⟨unread, content⟩ := enhanceFile_eq params fallback still known
      refine performs_attempt_of_text _ retains.wellFormed (reaches.later retains)
        (settledText_enhancement target.label target.path change _ fallback) (fun cause read => ?_)
        fun existing read => congrArg (·, workspace) (content existing read)
      obtain ⟨fault, failed⟩ := unread cause read
      exact ⟨fault, congrArg (·, workspace) failed⟩

/-! ## Variables -/

/-- The target of the file of variables is where its name leads in the folder of the project. -/
theorem reaches_env {location : Location} (project : base.IsProject context.project.root home)
    (named : Target.ofTemplate base context .addEnvVar ".env" = .ok target)
    (found : base.resolve target.path = .ok location) :
    base.Reaches (context.project.root.child ".env") location := by
  have child : base.IsChild context.project.root home ".env" := project.isChild (by simp)
  have resolved := (Tree.locate_eq_ok_iff.mp child.locate).2.2.resolves.isResolved
    (project.followable.start (context.project.root.child ".env"))
  have whole : base.IsResolved ([] ++ (home ++ [".env"])) := resolved
  obtain ⟨reached, place, ofRoot, ofPath, targetPath, _⟩ :=
    Target.exists_of_inside (Target.inside_of_ofTemplate_env named)
  obtain rfl := Except.ok.inj (ofRoot.symm.trans (project.followable.resolve_of_locate project.located))
  rw [Tree.join_pathOf (by cbv)] at ofPath
  obtain rfl : reached ++ [".env"] = place := whole.resolves.unique (project.followable.resolves ofPath)
  rw [targetPath] at found
  obtain rfl : reached ++ [".env"] = location := whole.resolves.unique (project.followable.resolves found)
  exact Tree.reaches_child child

/-- A variable is declared once it is rendered and the files are found. -/
theorem addEnvVar_eq {tree : Tree} {key value : String} {description path : Option String}
    {declared : EnvVariable} {targets : List Target}
    (rendered : declared.IsRendered context key value description)
    (named : Plan.envTargets tree context path = .ok targets) :
    Plan.addEnvVar tree context key value description path
      = .ok ⟨targets.map fun target => ⟨target, .merge .lineAppendDedup declared.block⟩, none⟩ := by
  obtain ⟨text, ofKey, same⟩ := rendered.name
  have proper : ((Text.trimmed text).isEmpty || (Text.trimmed text).toList.contains '=') = false := by
    rw [← same, rendered.nonempty, rendered.unsigned]
    rfl
  simp only [Plan.addEnvVar, ofKey, proper, rendered.content, rendered.comment, named, bind, Except.bind,
    Bool.false_eq_true, if_false, EnvVariable.block, same]
  rfl

/-- A single edit takes one step. -/
theorem exists_of_editSteps_single {target : Target} {alter : Change → Alteration} {change : Change}
    (planned : Application.editSteps base alter [⟨target, change⟩] = .ok steps) :
    ∃ location, base.resolve target.path = .ok location ∧ steps = [⟨location, alter change⟩] := by
  obtain ⟨step, ofEdit, planned⟩ := exists_of_bind_eq_ok planned
  obtain rfl := Except.ok.inj planned
  obtain ⟨location, found, ofEdit⟩ := exists_of_bind_eq_ok ofEdit
  obtain rfl := Except.ok.inj ofEdit
  exact ⟨location, eq_ok_of_mapError_eq_ok found, rfl⟩

/-- Amending a file that is there, before another one is changed, is changing it behind that one. -/
theorem turns_amend_of_some {location actual sample : Location} {change : Change} {before after : Option ByteArray}
    (there : actual = location → before.isSome = true) :
    Alteration.Turns (FileStep.alterationsAt location [⟨sample, .make change⟩, ⟨actual, .make change⟩]) before after
      ↔ Alteration.Turns (FileStep.alterationsAt location [⟨actual, .amend change⟩, ⟨sample, .make change⟩]) before
        after := by
  by_cases here : actual = location
  · have same : ∀ rest, Alteration.Turns (.amend change :: rest) before after
        ↔ Alteration.Turns (.make change :: rest) before after := fun _ => Alteration.turns_amend_iff (there here)
    by_cases too : sample = location <;> simp [FileStep.alterationsAt, here, too, same]
  · by_cases too : sample = location <;> simp [FileStep.alterationsAt, here, too]

/-- Amending a file that is not there does nothing. -/
theorem turns_amend_of_none {location actual sample : Location} {change : Change} {before after : Option ByteArray}
    (absent : actual = location → before = none) :
    Alteration.Turns (FileStep.alterationsAt location [⟨sample, .make change⟩]) before after
      ↔ Alteration.Turns (FileStep.alterationsAt location [⟨actual, .amend change⟩, ⟨sample, .make change⟩]) before
        after := by
  by_cases here : actual = location
  · obtain rfl := absent here
    by_cases too : sample = location <;> simp [FileStep.alterationsAt, here, too, Alteration.turns_amend_none_iff]
  · by_cases too : sample = location <;> simp [FileStep.alterationsAt, here, too]

/-- The steps of an action that names no file of variables. -/
theorem exists_of_steps_addEnvVar {key value : String} {description : Option String}
    (planned : Application.steps base ⟨context, .addEnvVar key value description none⟩ = .ok steps) :
    ∃ (declared : EnvVariable) (actual sample : Target) (actualPlace samplePlace : Location),
      declared.IsRendered context key value description
        ∧ (Target.ofTemplate base context .addEnvVar ".env" = .ok actual
          ∧ base.resolve actual.path = .ok actualPlace)
        ∧ (Target.ofTemplate base context .addEnvVar ".env.example" = .ok sample
          ∧ base.resolve sample.path = .ok samplePlace)
        ∧ steps = [⟨actualPlace, .amend (.merge .lineAppendDedup declared.block)⟩,
          ⟨samplePlace, .make (.merge .lineAppendDedup declared.block)⟩] := by
  obtain ⟨actualPlan, ofActual, planned⟩ := exists_of_bind_eq_ok planned
  obtain ⟨samplePlan, ofSample, planned⟩ := exists_of_bind_eq_ok planned
  obtain ⟨declared, targets, rendered, actualTargets, rfl⟩ := Plan.exists_of_addEnvVar ofActual
  obtain ⟨again, others, renderedToo, sampleTargets, rfl⟩ := Plan.exists_of_addEnvVar ofSample
  obtain rfl := renderedToo.unique rendered
  obtain ⟨actual, actualNamed, only⟩ := exists_of_bind_eq_ok actualTargets
  obtain rfl := Except.ok.inj only
  obtain ⟨sample, sampleNamed, only⟩ := exists_of_bind_eq_ok sampleTargets
  obtain rfl := Except.ok.inj only
  obtain ⟨amends, ofActualEdits, planned⟩ := exists_of_bind_eq_ok planned
  obtain ⟨makes, ofSampleEdits, planned⟩ := exists_of_bind_eq_ok planned
  obtain rfl := Except.ok.inj planned
  obtain ⟨actualPlace, actualFound, rfl⟩ := exists_of_editSteps_single ofActualEdits
  obtain ⟨samplePlace, sampleFound, rfl⟩ := exists_of_editSteps_single ofSampleEdits
  exact ⟨again, actual, sample, actualPlace, samplePlace, rendered, ⟨actualNamed, actualFound⟩,
    ⟨sampleNamed, sampleFound⟩, rfl⟩

/-- An attempt to declare a variable takes the steps of its edits, whether the file of variables is among their
targets or not. -/
theorem performs_declaring {key value : String} {description : Option String} {declared : EnvVariable}
    {targets : List Target} (project : base.IsProject context.project.root home)
    (rendered : declared.IsRendered context key value description) (skips : options.skipInstall = true)
    (retains : base.Retains workspace.tree)
    (named : Plan.envTargets workspace.tree context none = .ok targets)
    (inside : ∀ target ∈ targets, target.IsInside base context.project.root)
    (ofEdits : Application.editSteps base .make
      (targets.map fun target => ⟨target, .merge .lineAppendDedup declared.block⟩) = .ok steps)
    (short : ∀ step ∈ steps, Tree.pathDefect? step.location = none) :
    Tree.Performs workspace.tree steps
      ((attempt options context workspace (.addEnvVar key value description none)).1.isSuccess = true)
      (attempt options context workspace (.addEnvVar key value description none)).2.tree := by
  refine performs_attempt_of_plan skips nofun
    (congrArg (Except.map some) (addEnvVar_eq rendered named)) (Workspace.performs_editAll ofEdits retains ?_)
  intro edit member step among found
  obtain ⟨target, listed, rfl⟩ := List.mem_map.mp member
  exact (inside target listed).reaches project.followable found (short step among)

/-- An attempt to declare a variable in the file of examples and in the file of variables, if there is one, takes
a step in each of them. -/
theorem performs_attempt_addEnvVar {key value : String} {description : Option String}
    (project : base.IsProject context.project.root home)
    (planned : Application.steps base ⟨context, .addEnvVar key value description none⟩ = .ok steps)
    (short : ∀ step ∈ steps, Tree.pathDefect? step.location = none)
    (skips : options.skipInstall = true) (retains : base.Retains workspace.tree) :
    Tree.Performs workspace.tree steps
      ((attempt options context workspace (.addEnvVar key value description none)).1.isSuccess = true)
      (attempt options context workspace (.addEnvVar key value description none)).2.tree := by
  obtain ⟨declared, actual, sample, actualPlace, samplePlace, rendered, ⟨actualNamed, actualFound⟩,
    ⟨sampleNamed, sampleFound⟩, rfl⟩ := exists_of_steps_addEnvVar planned
  obtain ⟨shortActual, shortSample⟩ : Tree.pathDefect? actualPlace = none ∧ Tree.pathDefect? samplePlace = none :=
    ⟨short _ List.mem_cons_self, short _ (List.mem_cons_of_mem _ List.mem_cons_self)⟩
  have atEnv := (reaches_env project actualNamed actualFound).later retains
  have actualStill := (Target.ofTemplate_congr project.followable retains.links).trans actualNamed
  have sampleStill := (Target.ofTemplate_congr project.followable retains.links).trans sampleNamed
  obtain ⟨present, isFile⟩ := atEnv.told (.refl retains.wellFormed)
  have isPresent := Tree.eq_isSome_of_isFile isFile
  rw [atEnv.leads (.refl retains.wellFormed)] at isPresent
  cases present with
  | true =>
      have named : Plan.envTargets workspace.tree context none = .ok [sample, actual] := by
        simp only [Plan.envTargets, sampleStill, actualStill, isFile, Except.mapError, bind, Except.bind, if_true]
        rfl
      have ofEdits : Application.editSteps base .make
          ([sample, actual].map fun target => ⟨target, .merge .lineAppendDedup declared.block⟩)
          = .ok [⟨samplePlace, .make (.merge .lineAppendDedup declared.block)⟩,
            ⟨actualPlace, .make (.merge .lineAppendDedup declared.block)⟩] := by
        simp only [List.map_cons, List.map_nil, Application.editSteps, Application.step, sampleFound, actualFound,
          Except.mapError, bind, Except.bind]
        rfl
      have inside := List.forall_mem_cons.mpr ⟨Target.isInside_of_ofTemplate sampleNamed,
        List.forall_mem_singleton.mpr (Target.isInside_of_ofTemplate actualNamed)⟩
      refine (performs_declaring project rendered skips retains named inside ofEdits
        (List.forall_mem_cons.mpr ⟨shortSample, List.forall_mem_singleton.mpr shortActual⟩)).exchange
        fun location new => turns_amend_of_some ?_
      rintro rfl
      exact isPresent.symm
  | false =>
      have named : Plan.envTargets workspace.tree context none = .ok [sample] := by
        simp only [Plan.envTargets, sampleStill, isFile, Except.mapError, bind, Except.bind, Bool.false_eq_true,
          if_false]
        rfl
      have ofEdits : Application.editSteps base .make
          ([sample].map fun target => ⟨target, .merge .lineAppendDedup declared.block⟩)
          = .ok [⟨samplePlace, .make (.merge .lineAppendDedup declared.block)⟩] := by
        simp only [List.map_cons, List.map_nil, Application.editSteps, Application.step, sampleFound,
          Except.mapError, bind, Except.bind]
        rfl
      have inside := List.forall_mem_singleton.mpr (Target.isInside_of_ofTemplate sampleNamed)
      refine (performs_declaring project rendered skips retains named inside ofEdits
        (List.forall_mem_singleton.mpr shortSample)).exchange fun location new => turns_amend_of_none ?_
      rintro rfl
      simpa using isPresent.symm

/-! ## All operations -/

/-- An attempt takes the steps that were planned in a tree of which everything is retained, if it needs no
rendering. -/
theorem performs_attempt_of_steps (project : base.IsProject context.project.root home)
    (planned : Application.steps base ⟨context, operation⟩ = .ok steps)
    (short : ∀ step ∈ steps, Tree.pathDefect? step.location = none)
    (skips : options.skipInstall = true) (noCommand : operation.kind ≠ .runCommand)
    (retains : base.Retains workspace.tree) :
    Tree.Performs workspace.tree steps ((attempt options context workspace operation).1.isSuccess = true)
      (attempt options context workspace operation).2.tree := by
  have congr : (∀ key value description, operation ≠ .addEnvVar key value description none) →
      (∀ path tables imports, operation ≠ .extendSchema path tables imports) →
      (∀ path modifier params fallback, operation ≠ .enhanceFile path modifier params fallback) →
      Plan.ofOperation workspace.tree context true operation = Plan.ofOperation base context true operation :=
    Plan.ofOperation_congr project.followable retains.links
  cases operation with
  | extendSchema path tables imports => exact performs_attempt_extendSchema project planned short retains
  | enhanceFile path modifier params fallback => exact performs_attempt_enhanceFile project planned short retains
  | addEnvVar key value description path =>
      cases path with
      | none => exact performs_attempt_addEnvVar project planned short skips retains
      | some written =>
          exact performs_attempt_of_congr project planned (congr nofun nofun nofun) short skips noCommand retains
  | runCommand => exact absurd rfl noCommand
  | installPackages | addScript | createFile | appendToFile | prependToFile | mergeJson | mergeConfig =>
      exact performs_attempt_of_congr project planned (congr nofun nofun nofun) short skips noCommand retains

/-! ## Template files -/

variable {start : Workspace} {application rendered : Application}

/-- Only a template file is rendered. -/
theorem filled_cases (start : Workspace) (application : Application) :
    application.filled start = .ok application
      ∨ ∃ path file overwrite merge, application.operation = .createFile path (.template file) overwrite merge
        ∧ ∀ {rendered : Application}, application.filled start = .ok rendered →
          ∃ text, (start.renderings 0 start.tree (.ofName application.context file)).answer = .ok text
            ∧ rendered = ⟨application.context, .createFile path (.content text) overwrite merge⟩ := by
  obtain ⟨context, operation⟩ := application
  cases operation with
  | createFile path source overwrite merge =>
      cases source with
      | content text => exact .inl rfl
      | template file =>
          refine .inr ⟨path, file, overwrite, merge, rfl, fun {rendered} fills => ?_⟩
          obtain ⟨text, answered, fills⟩ := exists_of_bind_eq_ok fills
          exact ⟨text, eq_ok_of_mapError_eq_ok answered, (Except.ok.inj fills).symm⟩
  | _ => exact .inl rfl

/-- An application whose template file is rendered is an application of the same kind, in the same context. -/
theorem eq_of_filled (fills : application.filled start = .ok rendered) :
    rendered.context = application.context ∧ rendered.operation.kind = application.operation.kind := by
  rcases filled_cases start application with same | ⟨path, file, overwrite, merge, operation, given⟩
  · obtain rfl := Except.ok.inj (same.symm.trans fills)
    exact ⟨rfl, rfl⟩
  · obtain ⟨text, _, rfl⟩ := given fills
    exact ⟨rfl, operation ▸ rfl⟩

/-- A template file is attempted as the text that it is rendered to. -/
theorem exists_attempt_eq_of_filled (fills : application.filled start = .ok rendered)
    (writes : start.renderings.WriteNothing) (left : start.renderings.Leaves workspace.renderings)
    (alike : application.RendersAlike start workspace.tree) (options : RunOptions) :
    ∃ renderings, attempt options application.context workspace application.operation
      = attempt options rendered.context { workspace with renderings } rendered.operation := by
  rcases filled_cases start application with same | ⟨path, file, overwrite, merge, operation, given⟩
  · obtain rfl := Except.ok.inj (same.symm.trans fills)
    exact ⟨workspace.renderings, rfl⟩
  · obtain ⟨text, answered, rfl⟩ := given fills
    obtain ⟨count, later⟩ := left
    have answer : (workspace.render (.ofName application.context file)).1.answer = .ok text := by
      have same := alike path file overwrite merge operation count
      rw [answered] at same
      rw [Workspace.render, later, Renderings.later, Nat.zero_add]
      exact same
    have rest : (workspace.render (.ofName application.context file)).2
        = { workspace with renderings := workspace.renderings.later 1 } := by
      have files : (workspace.render (.ofName application.context file)).1.tree = workspace.tree := by
        rw [Workspace.render, later]
        exact writes _ _ _
      exact congrArg (fun tree => Workspace.mk tree workspace.runner workspace.shown (workspace.renderings.later 1))
        files
    have content : ∀ renderings, ({ workspace with renderings } : Workspace).plan application.context
          options.skipInstall (.createFile path (.content text) overwrite merge)
        = ((Plan.createFile workspace.tree application.context path text overwrite merge).map some,
          { workspace with renderings }) := fun _ => rfl
    rw [operation]
    simp only [attempt, content]
    cases named : Target.ofTemplate workspace.tree application.context .createFile path with
    | error fault =>
        refine ⟨workspace.renderings, ?_⟩
        simp only [Workspace.plan, Plan.createFile, named]
        rfl
    | ok target =>
        refine ⟨workspace.renderings.later 1, ?_⟩
        simp only [Workspace.plan, Plan.createFile, named, answer, rest]
        rfl

/-- An attempt takes the steps that were planned before others were made, where templates write nothing and its own
is rendered as it was then. -/
theorem performs_attempt (project : start.tree.IsProject application.context.project.root home)
    (fills : application.filled start = .ok rendered) (planned : rendered.steps start.tree = .ok steps)
    (short : ∀ step ∈ steps, Tree.pathDefect? step.location = none)
    (skips : options.skipInstall = true) (noCommand : application.operation.kind ≠ .runCommand)
    (writes : start.renderings.WriteNothing) (left : start.renderings.Leaves workspace.renderings)
    (alike : application.RendersAlike start workspace.tree) (retains : start.tree.Retains workspace.tree) :
    Tree.Performs workspace.tree steps
      ((attempt options application.context workspace application.operation).1.isSuccess = true)
      (attempt options application.context workspace application.operation).2.tree := by
  obtain ⟨sameContext, sameKind⟩ := eq_of_filled fills
  obtain ⟨renderings, same⟩ := exists_attempt_eq_of_filled fills writes left alike options
  rw [same]
  let handed : Workspace := { workspace with renderings }
  have retained : start.tree.Retains handed.tree := retains
  exact performs_attempt_of_steps (sameContext.symm ▸ project) planned short skips (sameKind.symm ▸ noCommand) retained

end Execution

end Scaffold
