import Scaffold.Proofs.Execution.Accounting
import Scaffold.Proofs.Execution.Attempts

/-!
# The steps of a blueprint

A blueprint stands for the operations that it attempts, each in its context (`Application.ofActions`).  Running it
takes the steps of all of them in turn, wherever what they depend on was kept (`performs_run`): links, and what
template files are rendered to.
-/

namespace Scaffold

/-- What an action attempts: nothing if it is passed over, and its operation for every element if it is
repeated. -/
def Action.applications (context : Context) (action : Action) : Except ActionFault (List Application) :=
  if Execution.isWanted context action then
    match action.forEach with
    | none => .ok [⟨context, action.operation⟩]
    | some selector => do
      return (← Execution.elements context selector).map fun element =>
        ⟨context.withItem element, action.operation⟩
  else .ok []

namespace Application

/-- What actions attempt in order. -/
def ofActions (context : Context) : List Action → Except ActionFault (List Application)
  | [] => .ok []
  | action :: rest => do return (← action.applications context) ++ (← ofActions context rest)

/-- The steps that attempts take in turn. -/
def allSteps (base : Workspace) : List Application → Except ActionFault (List FileStep)
  | [] => .ok []
  | application :: rest => do
    return (← (← application.filled base).steps base.tree) ++ (← allSteps base rest)

variable {base : Workspace}
  {first second applications : List Application} {application : Application} {steps : List FileStep}

/-- What actions attempt are their operations, in the project of the context. -/
theorem of_mem_ofActions {context : Context} {actions : List Action} {attempted : List Application}
    (attempts : ofActions context actions = .ok attempted) (member : application ∈ attempted) :
    application.context.project = context.project
      ∧ ∃ action ∈ actions, application.operation = action.operation := by
  induction actions generalizing attempted with
  | nil =>
      obtain rfl := Except.ok.inj attempts
      cases member
  | cons action rest inductionHypothesis =>
      obtain ⟨here, ofHere, attempts⟩ := exists_of_bind_eq_ok attempts
      obtain ⟨others, ofOthers, attempts⟩ := exists_of_bind_eq_ok attempts
      obtain rfl := Except.ok.inj attempts
      rcases List.mem_append.mp member with first | later
      · unfold Action.applications at ofHere
        split at ofHere
        next =>
          split at ofHere
          next =>
            obtain rfl := Except.ok.inj ofHere
            obtain rfl := List.mem_singleton.mp first
            exact ⟨rfl, action, List.mem_cons_self, rfl⟩
          next =>
            obtain ⟨items, _, ofHere⟩ := exists_of_bind_eq_ok ofHere
            obtain rfl := Except.ok.inj ofHere
            obtain ⟨element, _, rfl⟩ := List.mem_map.mp first
            exact ⟨rfl, action, List.mem_cons_self, rfl⟩
        next =>
          obtain rfl := Except.ok.inj ofHere
          cases first
      · obtain ⟨same, other, inside, operation⟩ := inductionHypothesis ofOthers later
        exact ⟨same, other, List.mem_cons_of_mem _ inside, operation⟩

/-- The steps of attempts in two parts. -/
theorem exists_of_allSteps_append (planned : allSteps base (first ++ second) = .ok steps) :
    ∃ early late, allSteps base first = .ok early ∧ allSteps base second = .ok late ∧ steps = early ++ late := by
  induction first generalizing steps with
  | nil => exact ⟨[], steps, rfl, planned, rfl⟩
  | cons application rest inductionHypothesis =>
      obtain ⟨rendered, fills, planned⟩ := exists_of_bind_eq_ok planned
      obtain ⟨here, ofHere, planned⟩ := exists_of_bind_eq_ok planned
      obtain ⟨others, ofOthers, planned⟩ := exists_of_bind_eq_ok planned
      obtain rfl := Except.ok.inj planned
      obtain ⟨early, late, ofEarly, ofLate, rfl⟩ := inductionHypothesis ofOthers
      refine ⟨here ++ early, late, ?_, ofLate, (List.append_assoc ..).symm⟩
      simp only [allSteps, fills, ofHere, ofEarly, bind, Except.bind]
      rfl

end Application

/-- A tree retains another one, and holds the same files but for some locations. -/
structure Tree.KeepsBut (base : Tree) (touched : Location → Prop) (now : Tree) : Prop where
  retains : base.Retains now
  files : ∀ location, ¬touched location → now.file? location = base.file? location

/-- A workspace keeps what attempts depend on: its files, but for some locations, and renderings of which some were
made. -/
structure Workspace.KeepsBut (base : Workspace) (touched : Location → Prop) (now : Workspace) : Prop where
  tree : base.tree.KeepsBut touched now.tree
  left : base.renderings.Leaves now.renderings

/-- An attempt that may be made while files at some locations are altered: it launches no command, and a template
file that it names is rendered to the same again. -/
structure Application.IsSteady (base : Workspace) (home : Location) (touched : Location → Prop)
    (application : Application) : Prop where
  project : base.tree.IsProject application.context.project.root home
  noCommand : application.operation.kind ≠ .runCommand
  alike : ∀ now, base.tree.KeepsBut touched now → application.RendersAlike base now

/-- Attempts whose steps are known beforehand, at locations that are not too long. -/
structure Application.ArePlanned (base : Workspace) (home : Location) (touched : Location → Prop)
    (applications : List Application) (steps : List FileStep) : Prop where
  writes : base.renderings.WriteNothing
  steady : ∀ application ∈ applications, application.IsSteady base home touched
  planned : allSteps base applications = .ok steps
  proper : ∀ step ∈ steps, Tree.pathDefect? step.location = none ∧ touched step.location

variable {base now after : Workspace} {home : Location} {touched : Location → Prop}
  {first second applications : List Application} {application : Application} {steps : List FileStep}

theorem Workspace.KeepsBut.refl (wellFormed : base.tree.WellFormed) : base.KeepsBut touched base :=
  ⟨⟨.refl wellFormed, fun _ _ => rfl⟩, .refl _⟩

/-- What is shown is nothing that attempts depend on. -/
theorem Workspace.KeepsBut.tell (keeps : base.KeepsBut touched now) (lines : List Shown) :
    base.KeepsBut touched (now.tell lines) := ⟨keeps.tree, keeps.left⟩

/-- Steps at the locations keep the rest. -/
theorem Tree.KeepsBut.alters {base now after : Tree} (keeps : base.KeepsBut touched now)
    (alters : now.Alters steps after) (inside : ∀ step ∈ steps, touched step.location) :
    base.KeepsBut touched after := by
  refine ⟨keeps.retains.trans alters.retains, fun location outside => ?_⟩
  have apart : ∀ step ∈ steps, step.location ≠ location := by
    rintro step member rfl
    exact outside (inside step member)
  rw [alters.file?_of_ne apart]
  exact keeps.files location outside

/-- So does a workspace in which they are taken and some renderings are made. -/
theorem Workspace.KeepsBut.alters (keeps : base.KeepsBut touched now) (alters : now.tree.Alters steps after.tree)
    (left : now.renderings.Leaves after.renderings) (inside : ∀ step ∈ steps, touched step.location) :
    base.KeepsBut touched after :=
  ⟨keeps.tree.alters alters inside, keeps.left.trans left⟩

/-- Attempts in two parts. -/
theorem Application.ArePlanned.split (arePlanned : ArePlanned base home touched (first ++ second) steps) :
    ∃ early late, ArePlanned base home touched first early ∧ ArePlanned base home touched second late
      ∧ steps = early ++ late := by
  obtain ⟨early, late, ofEarly, ofLate, rfl⟩ := exists_of_allSteps_append arePlanned.planned
  obtain ⟨steadyFirst, steadySecond⟩ := List.forall_mem_append.mp arePlanned.steady
  obtain ⟨properEarly, properLate⟩ := List.forall_mem_append.mp arePlanned.proper
  exact ⟨early, late, ⟨arePlanned.writes, steadyFirst, ofEarly, properEarly⟩,
    ⟨arePlanned.writes, steadySecond, ofLate, properLate⟩, rfl⟩

namespace Execution

variable {options : RunOptions} {context : Context} {workspace between done : Workspace} {action : Action}
  {actions : List Action} {operation : Operation} {outcomes others : List Outcome}

/-- Nothing that was applied failed. -/
def Succeeds (outcomes : List Outcome) : Prop := ∀ outcome ∈ outcomes, outcome.effect.isSuccess = true

theorem succeeds_append : Succeeds (outcomes ++ others) ↔ Succeeds outcomes ∧ Succeeds others :=
  List.forall_mem_append

/-- An application that is recorded takes the steps of its attempt. -/
theorem performs_applyOnce (index : Nat) (iteration : Option Nat) (skips : options.skipInstall = true)
    (arePlanned : Application.ArePlanned base home touched [⟨context, operation⟩] steps)
    (keeps : base.KeepsBut touched workspace) :
    Tree.Performs workspace.tree steps
      ((applyOnce options context workspace index operation iteration).1.effect.isSuccess = true)
      (applyOnce options context workspace index operation iteration).2.tree := by
  obtain ⟨rendered, fills, planned⟩ := exists_of_bind_eq_ok arePlanned.planned
  obtain ⟨here, ofHere, planned⟩ := exists_of_bind_eq_ok planned
  obtain rfl := Except.ok.inj planned
  obtain ⟨project, noCommand, alike⟩ := List.forall_mem_singleton.mp arePlanned.steady
  rw [tree_applyOnce, applyOnce, List.append_nil]
  exact performs_attempt project fills ofHere
    (fun step member => (arePlanned.proper step (by simpa using member)).1) skips noCommand arePlanned.writes
    keeps.left (alike _ keeps.tree) keeps.tree.retains

/-- Applications to elements take their steps in turn. -/
theorem performs_applyEach {index position : Nat} {items : List Value} (skips : options.skipInstall = true)
    (arePlanned : Application.ArePlanned base home touched
      (items.map fun element => ⟨context.withItem element, operation⟩) steps)
    (keeps : base.KeepsBut touched workspace) :
    Tree.Performs workspace.tree steps (Succeeds (applyEach options context workspace index operation position items).1)
      (applyEach options context workspace index operation position items).2.tree := by
  induction items generalizing steps workspace position with
  | nil =>
      obtain rfl := Except.ok.inj arePlanned.planned
      exact .refl keeps.tree.retains.wellFormed (List.forall_mem_nil _)
  | cons element rest inductionHypothesis =>
      rw [List.map_cons, ← List.singleton_append] at arePlanned
      obtain ⟨early, late, here, others, rfl⟩ := arePlanned.split
      have begins := performs_applyOnce index (some position) skips here keeps
      refine begins.append (fun succeeds => succeeds _ List.mem_cons_self) fun made => ?_
      have onward := keeps.alters (begins.alters made) (continues_applyOnce ..).left fun step member =>
        (here.proper step member).2
      exact (inductionHypothesis others onward).congr
        ⟨fun rest => List.forall_mem_cons.mpr ⟨made, rest⟩, fun all => (List.forall_mem_cons.mp all).2⟩

/-- An outcome that is only recorded takes no steps. -/
theorem performs_recordOnly {outcome : Outcome} {text : String} (success : outcome.effect.isSuccess = true)
    (wellFormed : workspace.tree.WellFormed) :
    Tree.Performs workspace.tree [] (Succeeds (recordOnly options workspace outcome text).1)
      (recordOnly options workspace outcome text).2.tree := by
  have files : (recordOnly options workspace outcome text).2.tree = workspace.tree := tree_record
  rw [files]
  exact .refl wellFormed (List.forall_mem_singleton.mpr success)

/-- Running an action takes the steps of what it attempts. -/
theorem performs_runAction (index : Nat) (skips : options.skipInstall = true)
    (attempts : action.applications context = .ok applications)
    (arePlanned : Application.ArePlanned base home touched applications steps)
    (keeps : base.KeepsBut touched workspace) :
    Tree.Performs workspace.tree steps (Succeeds (runAction options context workspace index action).1)
      (runAction options context workspace index action).2.tree := by
  rw [Action.applications] at attempts
  rw [runAction]
  by_cases wanted : isWanted context action = true
  · rw [if_pos wanted] at attempts
    rw [if_neg (by simp [wanted])]
    cases selects : action.forEach with
    | none =>
        rw [selects] at attempts
        obtain rfl := Except.ok.inj attempts
        exact (performs_applyOnce index none skips arePlanned keeps).congr List.forall_mem_singleton.symm
    | some selector =>
        rw [selects] at attempts
        obtain ⟨items, selected, attempts⟩ := exists_of_bind_eq_ok attempts
        obtain rfl := Except.ok.inj attempts
        dsimp only
        rw [selected]
        cases items with
        | nil =>
            obtain rfl := Except.ok.inj arePlanned.planned
            exact performs_recordOnly rfl keeps.tree.retains.wellFormed
        | cons element rest => exact performs_applyEach skips arePlanned keeps
  · rw [if_neg wanted] at attempts
    obtain rfl := Except.ok.inj attempts
    obtain rfl := Except.ok.inj arePlanned.planned
    rw [if_pos (by simpa using wanted)]
    exact performs_recordOnly rfl keeps.tree.retains.wellFormed

/-- Running actions takes the steps of all that they attempt. -/
theorem performs_runActions (index : Nat) (skips : options.skipInstall = true)
    (attempts : Application.ofActions context actions = .ok applications)
    (arePlanned : Application.ArePlanned base home touched applications steps)
    (keeps : base.KeepsBut touched workspace) :
    Tree.Performs workspace.tree steps (Succeeds (runActions options context workspace index actions).1)
      (runActions options context workspace index actions).2.tree := by
  induction actions generalizing applications steps workspace index with
  | nil =>
      obtain rfl := Except.ok.inj attempts
      obtain rfl := Except.ok.inj arePlanned.planned
      exact .refl keeps.tree.retains.wellFormed (List.forall_mem_nil _)
  | cons action rest inductionHypothesis =>
      obtain ⟨here, ofHere, attempts⟩ := exists_of_bind_eq_ok attempts
      obtain ⟨others, ofOthers, attempts⟩ := exists_of_bind_eq_ok attempts
      obtain rfl := Except.ok.inj attempts
      obtain ⟨early, late, plannedHere, plannedOthers, rfl⟩ := arePlanned.split
      have begins := performs_runAction index skips ofHere plannedHere keeps
      refine begins.append (fun succeeds => (succeeds_append.mp succeeds).1) fun made => ?_
      have onward := keeps.alters (begins.alters made) (continues_runAction ..).left fun step member =>
        (plannedHere.proper step member).2
      exact (inductionHypothesis (index + 1) ofOthers plannedOthers onward).congr
        ⟨fun rest => succeeds_append.mpr ⟨made, rest⟩, fun all => (succeeds_append.mp all).2⟩

/-- A run takes the steps of all that its actions attempt. -/
theorem performs_run (options : RunOptions) (workspace : Workspace) (skips : options.skipInstall = true)
    (attempts : Application.ofActions context actions = .ok applications)
    (arePlanned : Application.ArePlanned base home touched applications steps)
    (keeps : base.KeepsBut touched workspace) :
    Tree.Performs workspace.tree steps ((run options context actions workspace).1.isSuccess = true)
      (run options context actions workspace).2.tree :=
  (performs_runActions 0 skips attempts arePlanned keeps).congr (isSuccess_run ..).symm

end Execution

end Scaffold
