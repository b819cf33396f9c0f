import Scaffold.Proofs.Execution.Applications
import Scaffold.Proofs.Execution.Settling
import Scaffold.Proofs.Install.Growth
import Scaffold.Proofs.Install.Stored

/-!
# Installations that settle

An installation stands for the operations that its blueprints attempt, and these for the files that they alter
(`Install.applications`).  A request that was installed is installed again, and leaves every file but the
state file as the first installation left it, exactly if the alterations of each file settle on what it stores
(`installTimes_lasts_iff`).
-/

namespace Scaffold.Install

/-- What the blueprints of modules attempt in order. -/
def applications (values : List (String × Entries)) : Context → List Module →
    Except ActionFault (List Application)
  | _, [] => .ok []
  | context, descriptor :: rest => do
    let entered := context.enter descriptor (given values descriptor.id)
    return (← Application.ofActions entered descriptor.blueprint) ++ (← applications values entered rest)

/-- Every module that was looked at is installed. -/
def AllInstalled (outcomes : ModuleOutcomes) : Prop := ∀ entry ∈ outcomes, entry.2.isInstalled = true

variable {config : Config} {registry : Registry} {requested : List String}
  {values : List (String × Entries)} {session : Session} {context : Context} {report : InstallReport}
  {now : String} {descriptor : Module} {modules : List Module} {done outcomes : ModuleOutcomes}
  {final : Session} {attempted : List Application} {steps : List FileStep}
  {base : Workspace} {home state : Location} {touched : Location → Prop} {console : Console}

/-! ## What is attempted -/

/-- What blueprints attempt are their operations, in one project. -/
theorem of_mem_applications {application : Application}
    (attempts : applications values context modules = .ok attempted) (member : application ∈ attempted) :
    application.context.project = context.project
      ∧ ∃ descriptor ∈ modules, ∃ action ∈ descriptor.blueprint, application.operation = action.operation := by
  induction modules generalizing context attempted with
  | nil =>
      obtain rfl := Except.ok.inj attempts
      cases member
  | cons descriptor rest inductionHypothesis =>
      obtain ⟨here, ofHere, attempts⟩ := exists_of_bind_eq_ok attempts
      obtain ⟨others, ofOthers, attempts⟩ := exists_of_bind_eq_ok attempts
      obtain rfl := Except.ok.inj attempts
      rcases List.mem_append.mp member with first | later
      · obtain ⟨same, action, inside, operation⟩ := Application.of_mem_ofActions ofHere first
        exact ⟨same, descriptor, List.mem_cons_self, action, inside, operation⟩
      · obtain ⟨same, other, inside, action, listed, operation⟩ := inductionHypothesis ofOthers later
        exact ⟨same, other, List.mem_cons_of_mem _ inside, action, listed, operation⟩

/-! ## Modules -/

/-- Running the blueprint of a module takes its steps. -/
theorem performs_runModule {supplied : Entries} (skips : config.skipInstall = true)
    (attempts : Application.ofActions (session.context.enter descriptor supplied) descriptor.blueprint
      = .ok attempted)
    (arePlanned : Application.ArePlanned base home touched attempted steps)
    (keeps : base.KeepsBut touched session.workspace) :
    Tree.Performs session.workspace.tree steps ((runModule config descriptor supplied session).1.isSuccess = true)
      (runModule config descriptor supplied session).2.workspace.tree := by
  let started := session.workspace.tell (Shown.sectionHeading ("Installing " ++ descriptor.displayName))
  exact Execution.performs_run ⟨config.skipInstall, config.verbose⟩ started skips attempts arePlanned (keeps.tell _)

/-- The outcomes so far are those that an installation starts with. -/
theorem Runs.startsWith (runs : Runs config values done session modules outcomes final) : done <+: outcomes := by
  induction runs with
  | finished => exact List.prefix_refl _
  | goesOn step continues onward inductionHypothesis =>
      exact (List.prefix_append ..).trans inductionHypothesis
  | ends step failed stops =>
      rw [List.append_assoc]
      exact List.prefix_append ..

/-- A module that was installed lacked no value. -/
theorem Runs.complete (runs : Runs config values done session modules outcomes final)
    (all : AllInstalled outcomes) :
    ∀ descriptor ∈ modules, descriptor.missingRequired (given values descriptor.id) = [] := by
  induction runs with
  | finished => exact List.forall_mem_nil _
  | goesOn step continues onward inductionHypothesis =>
      refine List.forall_mem_cons.mpr ⟨?_, inductionHypothesis all⟩
      have installed := all _ (onward.startsWith.subset (List.mem_append_right _ List.mem_cons_self))
      cases step with
      | blocked => cases installed
      | incomplete => cases installed
      | ran free complete => exact complete
  | @ends done session descriptor rest outcome after step failed stops =>
      have installed := all (descriptor.id, outcome)
        (List.mem_append_left _ (List.mem_append_right _ List.mem_cons_self))
      exact absurd failed (by cases outcome <;> simp_all [ModuleOutcome.isInstalled, ModuleOutcome.isFailed])

variable (session) in
/-- Installing modules takes the steps of their blueprints in turn, if none of them lacks a value. -/
theorem performs_installEach (skips : config.skipInstall = true)
    (complete : ∀ descriptor ∈ modules, descriptor.missingRequired (given values descriptor.id) = [])
    (installed : AllInstalled done)
    (attempts : applications values session.context modules = .ok attempted)
    (arePlanned : Application.ArePlanned base home touched attempted steps)
    (keeps : base.KeepsBut touched session.workspace) :
    Tree.Performs session.workspace.tree steps (AllInstalled (installEach config values done session modules).1)
      (installEach config values done session modules).2.workspace.tree := by
  induction modules generalizing done session attempted steps with
  | nil =>
      obtain rfl := Except.ok.inj attempts
      obtain rfl := Except.ok.inj arePlanned.planned
      exact .refl keeps.tree.retains.wellFormed installed
  | cons descriptor rest inductionHypothesis =>
      obtain ⟨completeHere, completeRest⟩ := List.forall_mem_cons.mp complete
      obtain ⟨here, ofHere, attempts⟩ := exists_of_bind_eq_ok attempts
      obtain ⟨others, ofOthers, attempts⟩ := exists_of_bind_eq_ok attempts
      obtain rfl := Except.ok.inj attempts
      obtain ⟨early, late, plannedHere, plannedOthers, rfl⟩ := arePlanned.split
      have begins := performs_runModule skips ofHere plannedHere keeps
      have free : blockers done descriptor = [] :=
        blockers_eq_nil_iff.mpr fun entry member _ => installed entry member
      have tried : installModule config values done descriptor session
          = (.ran (runModule config descriptor (given values descriptor.id) session).1,
            (runModule config descriptor (given values descriptor.id) session).2) := by
        unfold given at completeHere
        simp only [installModule, free, completeHere]
        rfl
      rw [installEach, tried]
      dsimp only
      by_cases success : (runModule config descriptor (given values descriptor.id) session).1.isSuccess = true
      · have isInstalled : AllInstalled (done ++ [(descriptor.id,
            .ran (runModule config descriptor (given values descriptor.id) session).1)]) :=
          List.forall_mem_append.mpr ⟨installed, List.forall_mem_singleton.mpr success⟩
        rw [if_neg (by simp [ModuleOutcome.isFailed, success])]
        refine begins.append (fun _ => success) fun made => ?_
        let told := (runModule config descriptor (given values descriptor.id) session).2.tell
          (notes descriptor.id (.ran (runModule config descriptor (given values descriptor.id) session).1))
        have left := (continues_runModule config descriptor (given values descriptor.id) session).left
        have onward := keeps.alters (begins.alters made) left fun step member => (plannedHere.proper step member).2
        exact inductionHypothesis told completeRest isInstalled ofOthers plannedOthers (onward.tell _)
      · -- The module is in the list of outcomes, however the installation goes on.
        refine begins.append (fun all => ?_) fun made => absurd made success
        have listed := List.mem_append_right done (List.mem_singleton_self (descriptor.id,
          ModuleOutcome.ran (runModule config descriptor (given values descriptor.id) session).1))
        split at all
        next => exact all _ (List.mem_append_left _ listed)
        next => exact all _ ((runs_installEach config values _ _ rest).startsWith.subset listed)

/-- Installing a request takes the steps of its blueprints. -/
theorem performs_carriedOut (skips : config.skipInstall = true)
    (complete : ∀ descriptor ∈ registry.ordered requested,
      descriptor.missingRequired (given values descriptor.id) = [])
    (attempts : applications values session.context (registry.ordered requested) = .ok attempted)
    (arePlanned : Application.ArePlanned base home touched attempted steps)
    (keeps : base.KeepsBut touched session.workspace) :
    Tree.Performs session.workspace.tree steps
      (AllInstalled (carriedOut config registry requested values session).1)
      (carriedOut config registry requested values session).2.workspace.tree :=
  performs_installEach (opened registry requested session) skips complete (List.forall_mem_nil _) attempts
    arePlanned (keeps.tell _)

/-- An installation that succeeds has installed every module. -/
theorem allInstalled_of_run (resolved : (registry.resolve requested).isOk = true)
    (answer : (run config registry now requested values session).1 = .ok report)
    (success : report.isSuccess = true) :
    AllInstalled (carriedOut config registry requested values session).1 := by
  rw [(run_of_isOk resolved).1] at answer
  obtain ⟨_, _, rfl⟩ := exists_of_map_eq_ok answer
  simp only [InstallReport.isSuccess, Bool.and_eq_true, List.isEmpty_iff, InstallReport.failed,
    InstallReport.skipped, ModuleOutcomes.idsWhere, List.map_eq_nil_iff, List.filter_eq_nil_iff] at success
  intro entry member
  have sorts := entry.2.isSkipped_eq
  have unfailed := success.1.2 entry member
  have unskipped := success.2 entry member
  simp_all

variable (now) in
/-- An installation changes the files that its blueprints change, and the state file. -/
theorem keepsBut_run (resolved : (registry.resolve requested).isOk = true)
    (wellFormed : (carriedOut config registry requested values session).2.workspace.tree.WellFormed)
    (located : (carriedOut config registry requested values session).2.workspace.tree.Resolves
      ((carriedOut config registry requested values session).2.workspace.tree.startOf config.statePath)
      config.statePath.parts state) :
    (carriedOut config registry requested values session).2.workspace.tree.KeepsBut (· = state)
      (run config registry now requested values session).2.workspace.tree := by
  rw [(run_of_isOk resolved).2]
  exact ⟨retains_remember config now registry _ wellFormed, fun location outside =>
    (revises_remember config now registry _ _).file?_of_ne located outside⟩

/-! ## Installing again -/

/-- The locations that an installation writes to. -/
def Written (state : Location) (steps : List FileStep) (location : Location) : Prop :=
  location = state ∨ ∃ step ∈ steps, step.location = location

/-- A request whose installation can be followed file by file: it resolves, launches nothing, and its targets are
known beforehand.  They lie in a project whose folder is there; none of them is the state file, and none has a path
that is too long.  Templates do no more than answer, and answer alike while what is written changes. -/
structure IsTraceable (config : Config) (registry : Registry) (requested : List String)
    (values : List (String × Entries)) (session : Session) (home state : Location) (attempted : List Application)
    (steps : List FileStep) : Prop where
  resolved : (registry.resolve requested).isOk = true
  skips : config.skipInstall = true
  noCommand : ∀ descriptor ∈ registry.ordered requested, ∀ action ∈ descriptor.blueprint,
    action.operation.kind ≠ .runCommand
  project : session.workspace.tree.IsProject session.context.project.root home
  located : session.workspace.tree.resolve config.statePath = .ok state
  attempts : applications values session.context (registry.ordered requested) = .ok attempted
  planned : Application.allSteps session.workspace attempted = .ok steps
  short : ∀ step ∈ steps, Tree.pathDefect? step.location = none
  apart : ∀ step ∈ steps, step.location ≠ state
  keeps : session.workspace.renderings.KeepContext
  writes : session.workspace.renderings.WriteNothing
  alike : ∀ application ∈ attempted, ∀ now : Tree,
    session.workspace.tree.KeepsBut (Written state steps) now → application.RendersAlike session.workspace now

namespace IsTraceable

variable {later : Session}
  (traceable : IsTraceable config registry requested values session home state attempted steps)

include traceable

theorem arePlanned : Application.ArePlanned session.workspace home (Written state steps) attempted steps where
  writes := traceable.writes
  steady application member := by
    obtain ⟨same, descriptor, listed, action, inside, operation⟩ := of_mem_applications traceable.attempts member
    exact ⟨same ▸ traceable.project, operation ▸ traceable.noCommand descriptor listed action inside,
      traceable.alike application member⟩
  planned := traceable.planned
  proper step member := ⟨traceable.short step member, .inr ⟨step, member, rfl⟩⟩

/-- Wherever the request is installed, with the same inputs and the rest of the files kept, it takes its steps. -/
theorem performs (context : later.context = session.context)
    (keeps : session.workspace.KeepsBut (Written state steps) later.workspace)
    (complete : ∀ descriptor ∈ registry.ordered requested,
      descriptor.missingRequired (given values descriptor.id) = []) :
    Tree.Performs later.workspace.tree steps
      (AllInstalled (carriedOut config registry requested values later).1)
      (carriedOut config registry requested values later).2.workspace.tree :=
  performs_carriedOut traceable.skips complete (context ▸ traceable.attempts) traceable.arePlanned keeps

/-- The state file aside, the files are those that the blueprints leave. -/
theorem leaves (now : String)
    (alters : later.workspace.tree.Alters steps
      (carriedOut config registry requested values later).2.workspace.tree)
    (keeps : session.workspace.KeepsBut (Written state steps) later.workspace) :
    session.workspace.KeepsBut (Written state steps) (run config registry now requested values later).2.workspace
      ∧ ∀ location, location ≠ state →
        (run config registry now requested values later).2.workspace.tree.file? location
          = (carriedOut config registry requested values later).2.workspace.tree.file? location := by
  have made := keeps.tree.alters alters fun step member => .inr ⟨step, member, rfl⟩
  have resolves := traceable.project.followable.resolves traceable.located
  have located := resolves.congr made.retains.links
  have start : (carriedOut config registry requested values later).2.workspace.tree.startOf config.statePath
      = session.workspace.tree.startOf config.statePath := by
    rw [Tree.startOf, Tree.startOf, made.retains.links.home]
  rw [← start] at located
  have remembered := keepsBut_run now traceable.resolved made.retains.wellFormed located
  have continues : later.workspace.Continues (run config registry now requested values later).2.workspace :=
    Attended.continues_run (traceable.keeps.of_leaves keeps.left)
  refine ⟨⟨⟨made.retains.trans remembered.retains, fun location outside => ?_⟩, keeps.left.trans continues.left⟩,
    remembered.files⟩
  rw [remembered.files location fun same => outside (.inl same)]
  exact made.files location outside

end IsTraceable

open Alteration (Settles Converges pass)
open FileStep (alterationsAt)

variable {times : Nat → String} {after : Session}

/-- Every file that is to be altered goes through its alterations in the first installation. -/
theorem IsTraceable.turns
    (traceable : IsTraceable config registry requested values session home state attempted steps)
    (answer : (run config registry now requested values session).1 = .ok report)
    (success : report.isSuccess = true) :
    session.workspace.KeepsBut (Written state steps) (run config registry now requested values session).2.workspace
      ∧ (∀ descriptor ∈ registry.ordered requested, descriptor.missingRequired (given values descriptor.id) = [])
      ∧ ∀ location, location ≠ state → Alteration.Turns (alterationsAt location steps)
          (session.workspace.tree.file? location)
          ((run config registry now requested values session).2.workspace.tree.file? location) := by
  have all := allInstalled_of_run traceable.resolved answer success
  have complete := (runs_installEach config values [] (opened registry requested session)
    (registry.ordered requested)).complete all
  have start : session.workspace.KeepsBut (Written state steps) session.workspace :=
    .refl traceable.project.wellFormed
  have alters := (traceable.performs rfl start complete).alters all
  obtain ⟨keeps, same⟩ := traceable.leaves now alters start
  exact ⟨keeps, complete, fun location outside => same location outside ▸ alters.turns location⟩

/-- Where the alterations of each file leave what is stored, the request is installed and leaves it. -/
theorem IsTraceable.again {later : Session} (now : String)
    (traceable : IsTraceable config registry requested values session home state attempted steps)
    (context : later.context = session.context)
    (keeps : session.workspace.KeepsBut (Written state steps) later.workspace)
    (complete : ∀ descriptor ∈ registry.ordered requested,
      descriptor.missingRequired (given values descriptor.id) = [])
    (repeats : ∀ location, location ≠ state → Alteration.Turns (alterationsAt location steps)
      (later.workspace.tree.file? location) (later.workspace.tree.file? location)) :
    AllInstalled (carriedOut config registry requested values later).1
      ∧ session.workspace.KeepsBut (Written state steps) (run config registry now requested values later).2.workspace
      ∧ ∀ location, location ≠ state →
        (run config registry now requested values later).2.workspace.tree.file? location
          = later.workspace.tree.file? location := by
  have performs := traceable.performs context keeps complete
  have awaits : later.workspace.tree.Awaits steps := by
    intro location
    refine ⟨later.workspace.tree.file? location, ?_, id⟩
    by_cases outside : location = state
    · subst outside
      rw [FileStep.alterationsAt_of_ne traceable.apart]
      exact .done
    · exact repeats location outside
  have all := performs.succeeds awaits
  have alters := performs.alters all
  obtain ⟨further, same⟩ := traceable.leaves now alters keeps
  exact ⟨all, further, fun location outside =>
    (same location outside).trans ((repeats location outside).unique (alters.turns location)).symm⟩

/-- Installed again and again from the same inputs, a request has all its modules installed each time, and leaves
every file but the state file as the first installation left it. -/
def Lasts (console : Console) (config : Config) (registry : Registry) (times : Nat → String)
    (requested : List String) (values : List (String × Entries)) (session : Session) (state : Location) : Prop :=
  ∀ count,
    AllInstalled (carriedOut config registry requested values
        (installTimes console config registry times requested values session (count + 1))).1
      ∧ ∀ location, location ≠ state →
        (installTimes console config registry times requested values session
            (count + 2)).workspace.tree.file? location
          = (installTimes console config registry times requested values session 1).workspace.tree.file? location

/-- The alterations of each file settle on what the file stores, if it stores a text or is not there. -/
def AllSettle (tree : Tree) (steps : List FileStep) : Prop :=
  ∀ location (stored : Option String), tree.file? location = stored.map String.toUTF8 →
    Settles (alterationsAt location steps) stored

section Lasting

variable
  (traceable : IsTraceable config registry requested values session home state attempted steps)
  (shown : AreShown console config registry times requested values session)
  (answer : Attended.run console config registry (times 0) requested values session = .ok report after)
  (success : report.isSuccess = true)

include traceable shown answer success

/-- Every file that is to be altered went through its alterations when the request was installed once. -/
theorem IsTraceable.once :
    session.workspace.KeepsBut (Written state steps)
        (installTimes console config registry times requested values session 1).workspace
      ∧ (∀ descriptor ∈ registry.ordered requested, descriptor.missingRequired (given values descriptor.id) = [])
      ∧ ∀ location, location ≠ state → Alteration.Turns (alterationsAt location steps)
          (session.workspace.tree.file? location)
          ((installTimes console config registry times requested values session 1).workspace.tree.file? location) := by
  have answered := (Attended.does_run config registry (times 0) requested values session shown.keeps).of_ok answer
  rw [shown.workspace_eq 0]
  exact traceable.turns (congrArg Prod.fst answered) success

/-- What settles lasts: each installation starts from the same files, the state file aside. -/
theorem IsTraceable.lasts (settles : AllSettle session.workspace.tree steps) :
    Lasts console config registry times requested values session state := by
  obtain ⟨keeps, complete, turns⟩ := traceable.once shown answer success
  let left (count : Nat) : Workspace :=
    (installTimes console config registry times requested values session count).workspace
  have repeats : ∀ location, location ≠ state →
      Alteration.Turns (alterationsAt location steps) ((left 1).tree.file? location)
        ((left 1).tree.file? location) := by
    intro location outside
    have first : Alteration.Turns (alterationsAt location steps) (session.workspace.tree.file? location)
      ((left 1).tree.file? location) := turns location outside
    by_cases none : alterationsAt location steps = []
    · rw [none]
      exact .done
    · obtain ⟨stored, stands⟩ := first.exists_stored none
      rw [stands] at first
      obtain ⟨later, passed, ends⟩ := Alteration.turns_iff_pass.mp first
      rw [ends]
      exact Alteration.turns_iff_pass.mpr ⟨later, settles location stored stands later passed, rfl⟩
  -- From files that are those of the first installation, the next one takes the same steps and leaves them.
  have next (count : Nat) (kept : session.workspace.KeepsBut (Written state steps) (left (count + 1)))
      (same : ∀ location, location ≠ state →
        (left (count + 1)).tree.file? location = (left 1).tree.file? location) :=
    traceable.again (times (count + 1)) (context_installTimes console times (count + 1)) kept complete
      fun location outside => (same location outside).symm ▸ repeats location outside
  have stays : ∀ count, session.workspace.KeepsBut (Written state steps) (left (count + 1))
      ∧ ∀ location, location ≠ state → (left (count + 1)).tree.file? location = (left 1).tree.file? location := by
    intro count
    induction count with
    | zero => exact ⟨keeps, fun _ _ => rfl⟩
    | succ count inductionHypothesis =>
        obtain ⟨kept, same⟩ := inductionHypothesis
        obtain ⟨_, further, still⟩ := next count kept same
        rw [← shown.workspace_eq (count + 1)] at further still
        exact ⟨further, fun location outside => (still location outside).trans (same location outside)⟩
  intro count
  obtain ⟨kept, same⟩ := stays count
  exact ⟨(next count kept same).1, (stays (count + 1)).2⟩

/-- What lasts settles: the second installation makes the alterations of each file once more. -/
theorem IsTraceable.allSettle (lasts : Lasts console config registry times requested values session state) :
    AllSettle session.workspace.tree steps := by
  obtain ⟨keeps, complete, turns⟩ := traceable.once shown answer success
  intro location stored stands later passed
  by_cases outside : location = state
  · subst outside
    rw [FileStep.alterationsAt_of_ne traceable.apart]
    rfl
  · let once := installTimes console config registry times requested values session 1
    obtain ⟨all, same⟩ := lasts 0
    have kept : session.workspace.KeepsBut (Written state steps) once.workspace := keeps
    have inputs : once.context = session.context := rfl
    have alters := (traceable.performs inputs kept complete).alters all
    have files := (traceable.leaves (times 1) alters kept).2 location outside
    have still := same location outside
    rw [shown.workspace_eq 1] at still
    have first := turns location outside
    have second := alters.turns location
    rw [stands] at first
    have ends : once.workspace.tree.file? location = later.map String.toUTF8 :=
      first.unique (Alteration.turns_iff_pass.mpr ⟨later, passed, rfl⟩)
    have again : (carriedOut config registry requested values once).2.workspace.tree.file? location
        = later.map String.toUTF8 := files.symm.trans (still.trans ends)
    rw [ends, again] at second
    obtain ⟨further, passes, unchanged⟩ := Alteration.turns_iff_pass.mp second
    rwa [Alteration.eq_of_map_toUTF8 unchanged.symm] at passes

/-- A request that was installed is installed again, any number of times, and leaves every file but the state file
as the first installation left it, exactly if the alterations of each file settle; and they do where they
converge. -/
theorem installTimes_lasts_iff :
    (AllSettle session.workspace.tree steps
        ↔ Lasts console config registry times requested values session state)
      ∧ ((∀ location (stored : Option String), session.workspace.tree.file? location = stored.map String.toUTF8 →
          Converges stored (alterationsAt location steps)) →
        Lasts console config registry times requested values session state) := by
  refine ⟨⟨traceable.lasts shown answer success, traceable.allSettle shown answer success⟩, fun converges => ?_⟩
  exact traceable.lasts shown answer success fun location stored stands =>
    (converges location stored stands).settles

end Lasting

/-! ## A project with notes -/

/-- A module that appends a line without a carriage return to the notes. -/
def notesModule : Module := { docsModule with blueprint := [.always (.appendToFile "NOTES.md" "two\n")] }

/-- The registry of this module. -/
def notesRegistry : Registry := (Registry.empty.registerAll [notesModule]).1

/-- The context in which the module runs. -/
def notesContext : Context := (sessionIn docsTree).context.enter notesModule []

/-- The step that the module takes. -/
def notesStep : FileStep := ⟨["proj", "NOTES.md"], .make (.merge .append "two\n")⟩

/-- The place of the state file. -/
def notesState : Location := ["proj", ".stackforge", "install-state.json"]

/-- The request is resolved to the module. -/
theorem ordered_notes : notesRegistry.ordered ["docs"] = [notesModule] := by cbv

/-- The request can be resolved. -/
theorem isOk_notes : (notesRegistry.resolve ["docs"]).isOk = true := by cbv

/-- The module is planned to append its line. -/
theorem planned_notes : Plan.ofOperation docsTree notesContext true (.appendToFile "NOTES.md" "two\n")
    = .ok (some (.single docsTarget (.merge .append "two\n"))) := by
  have named : Target.ofTemplate docsTree notesContext .appendToFile "NOTES.md" = .ok docsTarget :=
    ofTemplate_docsTarget rfl
  have rendered : Target.rendered notesContext docsTarget.label (some .appendToFile) "two\n" = .ok "two\n" :=
    Target.rendered_unbraced _ _ _ (by decide)
  simp [Plan.ofOperation, Plan.appendToFile, named, rendered, plain_docsTarget, bind, Except.bind, pure,
    Except.pure, Except.map]

/-- The installation of the module can be followed. -/
theorem isTraceable_notes :
    IsTraceable projConfig notesRegistry ["docs"] [] (sessionIn docsTree) ["proj"] notesState
      [⟨notesContext, .appendToFile "NOTES.md" "two\n"⟩] [notesStep] where
  resolved := isOk_notes
  skips := rfl
  noCommand := by
    rw [ordered_notes]
    exact List.forall_mem_singleton.mpr (List.forall_mem_singleton.mpr fun same => ActionKind.noConfusion same)
  project :=
    { wellFormed := wellFormed_docsTree
      followable := isFollowable_docsTree
      located := by
        rw [Tree.locate_eq_ok_iff]
        exact ⟨by decide, by decide,
          .down rfl (by decide) (by decide) rfl (fun _ => Node.noConfusion) .arrive⟩
      folder := rfl
      unlinked := fun _ _ => unlinked_docsTree _
      short := by decide }
  located := resolve_statePath_docsTree
  attempts := by
    rw [ordered_notes]
    rfl
  planned := by
    have step : Application.step docsTree docsTarget.path (.make (.merge .append "two\n")) = .ok notesStep := by
      rw [Application.step, resolve_docsTarget]
      rfl
    have steps : Application.steps docsTree ⟨notesContext, .appendToFile "NOTES.md" "two\n"⟩ = .ok [notesStep] := by
      simp only [Application.steps, planned_notes, bind, Except.bind, Plan.single, Application.editSteps, step]
      rfl
    have tree : (sessionIn docsTree).workspace.tree = docsTree := rfl
    simp only [Application.allSteps, Application.filled, tree, steps, bind, Except.bind]
    rfl
  short := by decide
  apart := List.forall_mem_singleton.mpr (by decide)
  keeps := Renderings.keepContext_none
  writes := Renderings.writeNothing_none
  alike := List.forall_mem_singleton.mpr fun _ _ _ _ _ _ same => Operation.noConfusion same

/-- The line is appended. -/
theorem makeAt_docsTarget : (Change.merge .append "two\n").makeAt docsTree docsTarget.path
    = (.ok true, docsTree.put ["proj", "NOTES.md"] (.file "one\ntwo\n".toUTF8)) := by
  have absent : Block.contains "one\n".toList "two\n".toList = false := by decide
  have joined : String.ofList (Block.append "one\n".toList "two\n".toList) = "one\ntwo\n" := by decide
  have ruled : mergedText? .append docsTarget.path (some "one\n") "two\n" = .ok (some "one\ntwo\n") := by
    simp only [mergedText?, absent, joined]
    rfl
  have file : docsTree.node? ["proj", "NOTES.md"] = some (.file "one\n".toUTF8) := by decide
  have written := wellFormed_docsTree.writeBelow_of_file locate_docsTarget file "one\ntwo\n"
  rw [Change.makeAt, Tree.merge, Tree.revise, existingText_docsTarget]
  dsimp only
  rw [ruled]
  dsimp only [Tree.settle]
  rw [if_neg (by decide), written]

/-- The module is installed. -/
theorem run_notes :
    ∃ report after, Attended.run openConsole projConfig notesRegistry "now" ["docs"] [] (sessionIn docsTree)
        = .ok report after
      ∧ report.isSuccess = true := by
  have complete : notesModule.missingRequired (given [] notesModule.id) = [] := by cbv
  obtain ⟨shown, carried⟩ := carriedOut_single projConfig (sessionIn docsTree) ordered_notes complete
  let started := (opened notesRegistry ["docs"] (sessionIn docsTree)).workspace.tell
    (Shown.sectionHeading ("Installing " ++ notesModule.displayName))
  have planned : Plan.ofOperation started.tree notesContext true (.appendToFile "NOTES.md" "two\n")
      = .ok (some (.single docsTarget (.merge .append "two\n"))) := planned_notes
  have attempted : Execution.attempt ⟨true, false⟩ notesContext started (.appendToFile "NOTES.md" "two\n")
      = (Workspace.effectOf [(docsTarget.label, true)],
        { started with tree := docsTree.put ["proj", "NOTES.md"] (.file "one\ntwo\n".toUTF8) }) :=
    (Execution.attempt_of_ofOperation planned).trans (Execution.carryOut_single makeAt_docsTarget)
  obtain ⟨outcomes, files⟩ := Execution.run_always attempted
  have success : (Execution.run ⟨true, false⟩ notesContext notesModule.blueprint started).1.isSuccess = true := by
    refine (Execution.isSuccess_run ..).mpr fun outcome member => ?_
    rw [show notesModule.blueprint = [.always (.appendToFile "NOTES.md" "two\n")] from rfl, outcomes] at member
    obtain rfl := List.mem_singleton.mp member
    exact Workspace.isSuccess_effectOf [(docsTarget.label, true)]
  exact run_of_put isOk_notes (congrArg Prod.fst carried) success
    ((congrArg (·.2.workspace.tree) carried).trans files)

/-- The alterations of each file of the project converge. -/
theorem converges_notes (location : Location) (stored : Option String) :
    Converges stored (alterationsAt location [notesStep]) := by
  by_cases here : location = ["proj", "NOTES.md"]
  · subst here
    have line : (Alteration.make (.merge .append "two\n")).Adds :=
      .block ⟨.append, "two\n", .inl rfl, by decide, by decide⟩
    have converges : Converges stored ([] ++ [.make (.merge .append "two\n")]) :=
      .additions (List.forall_mem_singleton.mpr line) (List.forall_mem_nil _) fun _ _ =>
        List.forall_mem_singleton.mpr fun _ same => Alteration.noConfusion same
    exact converges
  · rw [FileStep.alterationsAt_of_ne (List.forall_mem_singleton.mpr fun same => here same.symm)]
    have converges : Converges stored (([] : List Payload).map Payload.alteration) :=
      .objects (List.forall_mem_nil _)
    exact converges

/-- However often the line is installed, the notes stay as the first installation left them. -/
theorem installTimes_lasts_notes :
    IsTraceable projConfig notesRegistry ["docs"] [] (sessionIn docsTree) ["proj"] notesState
        [⟨notesContext, .appendToFile "NOTES.md" "two\n"⟩] [notesStep]
      ∧ AreShown openConsole projConfig notesRegistry (fun _ => "now") ["docs"] [] (sessionIn docsTree)
      ∧ (∃ report after,
        Attended.run openConsole projConfig notesRegistry "now" ["docs"] [] (sessionIn docsTree) = .ok report after
          ∧ report.isSuccess = true)
      ∧ Lasts openConsole projConfig notesRegistry (fun _ => "now") ["docs"] [] (sessionIn docsTree)
          notesState := by
  obtain ⟨report, after, answer, success⟩ := run_notes
  have shown := areShown_docsTree notesRegistry ["docs"]
  refine ⟨isTraceable_notes, shown, ⟨report, after, answer, success⟩, ?_⟩
  exact (installTimes_lasts_iff isTraceable_notes shown answer success).2 fun location stored _ =>
    converges_notes location stored

end Scaffold.Install
