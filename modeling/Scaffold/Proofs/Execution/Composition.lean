import Scaffold.Proofs.Execution.Failure

/-!
# Runs in parts

Where templates keep the values that they are handed, neither the context nor the console carries anything from
one action of a run to the next.  So a run of two lists of actions is a run of the first and then of the second,
and a repeated action acts like runs of the single action, one for each element (`run_composes`).
-/

namespace Scaffold

/-- Two workspaces have the same files, the same commands and the same renderings to come, and the same console
as well unless every application is shown. -/
structure Workspace.Agrees (options : RunOptions) (left right : Workspace) : Prop where
  tree : left.tree = right.tree
  runner : left.runner = right.runner
  renderings : left.renderings = right.renderings
  shown : options.verbose = false → left.shown = right.shown

/-- An action that is applied once, whatever it is repeated for. -/
def Action.once (action : Action) : Action := { action with forEach := none }

/-- An outcome of an action that stands further behind in its blueprint. -/
def Outcome.later (count : Nat) (outcome : Outcome) : Outcome :=
  { outcome with index := outcome.index + count }

variable {options : RunOptions} {context : Context} {operation : Operation} {plan : Plan} {action : Action}
  {left right middle workspace : Workspace} {index other count : Nat} {element : Value}
  {iteration repetition : Option Nat} {shown : List Shown}

/-! ## Conditions do not see the element -/

/-- A reference to a parameter stands for the same whatever the element is. -/
theorem Context.lookup_withItem {reference : String}
    (parameter : (parameterName? reference).isSome = true) :
    (context.withItem element).lookup reference = context.lookup reference := by
  obtain ⟨name, named⟩ := Option.isSome_iff_exists.mp parameter
  simp only [lookup, named]
  rfl

/-- A condition holds for one element as it holds for all. -/
theorem Template.holds_withItem (condition : List Char) :
    holds condition (context.withItem element) = holds condition context := by
  simp only [holds]
  split
  next => rfl
  next =>
    split
    next refers =>
      rw [Bool.and_eq_true] at refers
      rw [Context.lookup_withItem refers.1]
    next => rfl

/-! ## What is done does not depend on what was shown -/

namespace Workspace

theorem Agrees.refl (options : RunOptions) (workspace : Workspace) : Agrees options workspace workspace :=
  ⟨rfl, rfl, rfl, fun _ => rfl⟩

theorem Agrees.trans (first : Agrees options left middle) (second : Agrees options middle right) :
    Agrees options left right :=
  ⟨first.tree.trans second.tree, first.runner.trans second.runner, first.renderings.trans second.renderings,
    fun quiet => (first.shown quiet).trans (second.shown quiet)⟩

theorem Agrees.symm (agrees : Agrees options left right) : Agrees options right left :=
  ⟨agrees.tree.symm, agrees.runner.symm, agrees.renderings.symm, fun quiet => (agrees.shown quiet).symm⟩

/-- A workspace with another console. -/
def showing (workspace : Workspace) (shown : List Shown) : Workspace := { workspace with shown }

/-- Workspaces that agree differ in the console at most. -/
theorem Agrees.eq_showing (agrees : Agrees options left right) : left = right.showing left.shown := by
  obtain ⟨tree, runner, shown, renderings⟩ := left
  obtain ⟨rfl, rfl, rfl, _⟩ := agrees
  rfl

/-- An operation is planned alike under every console. -/
theorem plan_showing (workspace : Workspace) (shown : List Shown) (context : Context) (skipInstall : Bool)
    (operation : Operation) :
    (workspace.showing shown).plan context skipInstall operation
      = ((workspace.plan context skipInstall operation).1,
        (workspace.plan context skipInstall operation).2.showing shown) := by
  cases operation with
  | createFile path source overwrite merge =>
      cases source with
      | content => rfl
      | template file =>
          simp only [plan]
          have same : (workspace.showing shown).tree = workspace.tree := rfl
          rw [same]
          cases Target.ofTemplate workspace.tree context .createFile path with
          | error fault => rfl
          | ok target =>
              have rendered : (workspace.showing shown).render (.ofName context file)
                  = ((workspace.render (.ofName context file)).1,
                    (workspace.render (.ofName context file)).2.showing shown) := rfl
              dsimp only
              rw [rendered]
              dsimp only
              cases (workspace.render (.ofName context file)).1.answer <;> rfl
  | _ => rfl

/-- An edit is made alike under every console. -/
theorem edit_showing (workspace : Workspace) (shown : List Shown) (edit : Edit) :
    (workspace.showing shown).edit edit
      = ((workspace.edit edit).1, (workspace.edit edit).2.showing shown) := rfl

/-- Edits are made alike under every console. -/
theorem editAll_showing (workspace : Workspace) (shown : List Shown) (edits : List Edit) :
    (workspace.showing shown).editAll edits
      = ((workspace.editAll edits).1, (workspace.editAll edits).2.showing shown) := by
  induction edits generalizing workspace with
  | nil => rfl
  | cons first rest inductionHypothesis =>
      rw [editAll, editAll, edit_showing]
      cases workspace.edit first with
      | mk answer after =>
          cases answer with
          | error fault => rfl
          | ok changed =>
              dsimp only
              rw [inductionHypothesis after]

/-- A job is launched alike under every console. -/
theorem launch_showing (workspace : Workspace) (shown : List Shown) (job : Option Job) :
    ∃ later, (workspace.showing shown).launch job
      = ((workspace.launch job).1, (workspace.launch job).2.showing later) := by
  cases job with
  | none => exact ⟨shown, rfl⟩
  | some job => exact ⟨_, rfl⟩

/-- A plan is carried out alike under every console. -/
theorem carryOut_showing (workspace : Workspace) (shown : List Shown) (plan : Plan) :
    ∃ later, (workspace.showing shown).carryOut plan
      = ((workspace.carryOut plan).1, (workspace.carryOut plan).2.showing later) := by
  rw [carryOut, carryOut, editAll_showing]
  cases workspace.editAll plan.edits with
  | mk answer edited =>
      cases answer with
      | error fault => exact ⟨shown, rfl⟩
      | ok touched =>
          obtain ⟨later, launched⟩ := launch_showing edited shown plan.job
          dsimp only
          rw [launched]
          cases edited.launch plan.job with
          | mk answer done => cases answer <;> exact ⟨later, rfl⟩

end Workspace

namespace Execution

open Workspace (Agrees)

/-- An operation is attempted alike under every console. -/
theorem attempt_showing (options : RunOptions) (context : Context) (workspace : Workspace)
    (shown : List Shown) (operation : Operation) :
    ∃ later, attempt options context (workspace.showing shown) operation
      = ((attempt options context workspace operation).1,
        (attempt options context workspace operation).2.showing later) := by
  rw [attempt, attempt, Workspace.plan_showing]
  cases workspace.plan context options.skipInstall operation with
  | mk answer planned =>
      rcases answer with fault | none | plan
      · exact ⟨shown, rfl⟩
      · exact ⟨shown, rfl⟩
      · exact Workspace.carryOut_showing planned shown plan

/-- In workspaces that agree, an operation has the same effect and leaves workspaces that agree. -/
theorem attempt_of_agrees (agrees : Agrees options left right) (context : Context) (operation : Operation) :
    (attempt options context left operation).1 = (attempt options context right operation).1
      ∧ Agrees options (attempt options context left operation).2
        (attempt options context right operation).2 := by
  obtain ⟨later, attempted⟩ := attempt_showing options context right left.shown operation
  rw [← agrees.eq_showing] at attempted
  refine ⟨by rw [attempted], ?_⟩
  have same : options.verbose = false → left = right := fun quiet => by
    rw [agrees.eq_showing, agrees.shown quiet]
    rfl
  exact {
    tree := by rw [attempted]; rfl
    runner := by rw [attempted]; rfl
    renderings := by rw [attempted]; rfl
    shown := fun quiet => by rw [same quiet] }

/-- Recording an outcome is seen on the console at most. -/
theorem agrees_record (workspace : Workspace) (outcome : Outcome) (text : String) :
    Agrees options (record options workspace outcome text).2 workspace := by
  unfold record
  cases shows : options.verbose with
  | false => exact .refl options workspace
  | true => exact ⟨rfl, rfl, rfl, fun quiet => absurd (shows.symm.trans quiet) (by decide)⟩

/-- Whatever is recorded, workspaces go on to agree. -/
theorem agrees_records (agrees : Agrees options left right) (first second : Outcome) (text note : String) :
    Agrees options (record options left first text).2 (record options right second note).2 :=
  (agrees_record left first text).trans (agrees.trans (agrees_record right second note).symm)

/-- What an application records. -/
theorem applyOnce_fst (options : RunOptions) (context : Context) (workspace : Workspace) (index : Nat)
    (operation : Operation) (iteration : Option Nat) :
    (applyOnce options context workspace index operation iteration).1
      = ⟨index, operation.kind, (attempt options context workspace operation).1, iteration⟩ := rfl

/-- An application leaves workspaces that agree, wherever its action stands. -/
theorem agrees_applyOnce (agrees : Agrees options left right) (context : Context) (operation : Operation) :
    Agrees options (applyOnce options context left index operation iteration).2
      (applyOnce options context right other operation repetition).2 :=
  agrees_records (attempt_of_agrees agrees context operation).2 _ _ _ _

/-! ## Runs that start further behind -/

/-- A part of a run, and the same part where it stands further behind. -/
structure IsLater (options : RunOptions) (count : Nat) (late early : List Outcome × Workspace) : Prop where
  outcomes : late.1 = early.1.map (Outcome.later count)
  agrees : Agrees options late.2 early.2

/-- An application of an action that stands further behind. -/
theorem isLater_applyOnce (agrees : Agrees options left right) (context : Context) (operation : Operation) :
    (applyOnce options context left (index + count) operation iteration).1
      = (applyOnce options context right index operation iteration).1.later count := by
  rw [applyOnce_fst, applyOnce_fst, (attempt_of_agrees agrees context operation).1]
  rfl

/-- The applications to the elements of an action that stands further behind. -/
theorem isLater_applyEach (agrees : Agrees options left right) (context : Context) (index position : Nat)
    (operation : Operation) (elements : List Value) :
    IsLater options count (applyEach options context left (index + count) operation position elements)
      (applyEach options context right index operation position elements) := by
  induction elements generalizing left right position with
  | nil => exact ⟨rfl, agrees⟩
  | cons element rest inductionHypothesis =>
      obtain ⟨outcomes, further⟩ :=
        inductionHypothesis (agrees_applyOnce agrees (context.withItem element) operation) (position + 1)
      refine ⟨?_, further⟩
      rw [applyEach, applyEach, List.map_cons]
      exact congrArg₂ List.cons (isLater_applyOnce agrees _ operation) outcomes

/-- An outcome that is recorded alone further behind. -/
theorem isLater_recordOnly (agrees : Agrees options left right) (kind : ActionKind) (effect : Effect)
    (text : String) :
    IsLater options count (recordOnly options left ⟨index + count, kind, effect, none⟩ text)
      (recordOnly options right ⟨index, kind, effect, none⟩ text) :=
  ⟨rfl, agrees_records agrees _ _ _ _⟩

/-- An action that stands further behind. -/
theorem isLater_runAction (agrees : Agrees options left right) (context : Context) (index count : Nat)
    (action : Action) :
    IsLater options count (runAction options context left (index + count) action)
      (runAction options context right index action) := by
  unfold runAction
  split
  next => exact isLater_recordOnly agrees _ _ _
  next =>
    split
    next =>
      exact ⟨congrArg (fun outcome => [outcome]) (isLater_applyOnce agrees context _),
        agrees_applyOnce agrees context _⟩
    next =>
      split
      next => exact isLater_recordOnly agrees _ _ _
      next => exact isLater_recordOnly agrees _ _ _
      next => exact isLater_applyEach agrees context index 0 _ _

/-- The first action is run before the others. -/
theorem runActions_cons (options : RunOptions) (context : Context) (workspace : Workspace) (index : Nat)
    (action : Action) (rest : List Action) :
    runActions options context workspace index (action :: rest)
      = ((runAction options context workspace index action).1
          ++ (runActions options context (runAction options context workspace index action).2 (index + 1)
            rest).1,
        (runActions options context (runAction options context workspace index action).2 (index + 1) rest).2) :=
  rfl

/-- Actions that stand further behind. -/
theorem isLater_runActions (agrees : Agrees options left right) (context : Context) (index count : Nat)
    (actions : List Action) :
    IsLater options count (runActions options context left (index + count) actions)
      (runActions options context right index actions) := by
  induction actions generalizing left right index with
  | nil => exact ⟨rfl, agrees⟩
  | cons action rest inductionHypothesis =>
      have here := isLater_runAction agrees context index count action
      have others := inductionHypothesis here.agrees (index + 1)
      rw [Nat.add_right_comm] at others
      rw [runActions_cons, runActions_cons]
      refine ⟨?_, others.agrees⟩
      rw [List.map_append, ← here.outcomes, ← others.outcomes]

/-- Actions are run in parts. -/
theorem runActions_append (options : RunOptions) (context : Context) (first second : List Action)
    (index : Nat) (workspace : Workspace) :
    runActions options context workspace index (first ++ second)
      = ((runActions options context workspace index first).1
          ++ (runActions options context (runActions options context workspace index first).2
            (index + first.length) second).1,
        (runActions options context (runActions options context workspace index first).2
          (index + first.length) second).2) := by
  induction first generalizing index workspace with
  | nil => rfl
  | cons action rest inductionHypothesis =>
      rw [List.cons_append, runActions_cons, inductionHypothesis, runActions_cons, List.length_cons,
        List.append_assoc, Nat.add_assoc, Nat.add_comm 1]

/-! ## Repeated actions -/

/-- The condition of an action holds for one element as it holds for all. -/
theorem isWanted_once (context : Context) (element : Value) (action : Action) :
    isWanted (context.withItem element) action.once = isWanted context action := by
  unfold isWanted
  have same : action.once.condition = action.condition := rfl
  rw [same]
  cases action.condition with
  | none => rfl
  | some condition => exact Template.holds_withItem condition.toList

/-- A run of an action that is passed over is seen on the console at most. -/
theorem agrees_run_of_unwanted (unwanted : isWanted context action = false) (workspace : Workspace) :
    Agrees options (run options context [action] workspace).2 workspace := by
  have recorded : (run options context [action] workspace).2 = (runAction options context workspace 0 action).2 :=
    rfl
  rw [recorded, runAction, unwanted]
  exact agrees_record workspace _ _

/-- A run of an action that is applied once leaves what the application leaves. -/
theorem run_once (wanted : isWanted context action = true) (workspace : Workspace)
    (applied : action.forEach = none) :
    (run options context [action] workspace).2
      = (applyOnce options context workspace 0 action.operation none).2 := by
  have only : (run options context [action] workspace).2 = (runAction options context workspace 0 action).2 :=
    rfl
  rw [only, runAction, wanted, applied]
  rfl

/-- Applying an operation to elements leaves what runs of the single action leave, one for each element. -/
theorem agrees_applyEach (wanted : isWanted context action = true) (agrees : Agrees options left right)
    (index position : Nat) (elements : List Value) :
    Agrees options (applyEach options context left index action.operation position elements).2
      (elements.foldl (fun current element => (run options (context.withItem element) [action.once]
        current).2) right) := by
  induction elements generalizing left right position with
  | nil => exact agrees
  | cons element rest inductionHypothesis =>
      rw [List.foldl_cons, run_once ((isWanted_once context element action).trans wanted) right rfl]
      exact inductionHypothesis (agrees_applyOnce agrees (context.withItem element) action.operation)
        (position + 1)

/-- Runs of an action that is passed over are seen on the console at most. -/
theorem agrees_foldl_of_unwanted (unwanted : isWanted context action = false)
    (agrees : Agrees options left right) (elements : List Value) :
    Agrees options left
      (elements.foldl (fun current element => (run options (context.withItem element) [action.once]
        current).2) right) := by
  induction elements generalizing right with
  | nil => exact agrees
  | cons element rest inductionHypothesis =>
      have passed := (isWanted_once context element action).trans unwanted
      exact inductionHypothesis (agrees.trans (agrees_run_of_unwanted passed right).symm)

/-- A run of a repeated action leaves what runs of the single action leave, one for each element. -/
theorem agrees_run_repeated {selector : String} {items : List Value} (repeated : action.forEach = some selector)
    (found : elements context selector = .ok items) (workspace : Workspace) :
    Agrees options (run options context [action] workspace).2
      (items.foldl (fun current element => (run options (context.withItem element) [action.once]
        current).2) workspace) := by
  cases wanted : isWanted context action with
  | false =>
      exact agrees_foldl_of_unwanted wanted (agrees_run_of_unwanted wanted workspace) items
  | true =>
      have only : (run options context [action] workspace).2
          = (runAction options context workspace 0 action).2 := rfl
      rw [only, runAction, wanted, repeated]
      dsimp only
      rw [found]
      cases items with
      | nil => exact agrees_record workspace _ _
      | cons element rest => exact agrees_applyEach wanted (.refl options workspace) 0 0 (element :: rest)

/-- A run in parts: the outcomes of the second part are counted from the end of the first. -/
theorem run_append (options : RunOptions) (context : Context) (first second : List Action)
    (workspace : Workspace) :
    (run options context (first ++ second) workspace).1
        = Report.ofOutcomes ((context.current.map Module.id).getD "")
          ((run options context first workspace).1.outcomes
            ++ (run options context second (run options context first workspace).2).1.outcomes.map
              (Outcome.later first.length))
      ∧ Agrees options (run options context (first ++ second) workspace).2
        (run options context second (run options context first workspace).2).2 := by
  have late := isLater_runActions (.refl options (runActions options context workspace 0 first).2) context 0
    first.length second
  simp only [run, runActions_append]
  exact ⟨by rw [late.outcomes]; rfl, late.agrees⟩

/-- A run in a shared scope ends with a report, whatever fails in it, and leaves the context as it was. -/
def RunsTo (options : RunOptions) (context : Context) (actions : List Action) (before : Workspace)
    (report : Report) (after : Workspace) : Prop :=
  Step.run options actions ⟨context, before⟩ = .ok report ⟨context, after⟩

/-- Runs of the single action, one for each element, in order. -/
inductive RunsEach (options : RunOptions) (context : Context) (action : Action) :
    List Value → Workspace → Workspace → Prop where
  | none (workspace : Workspace) : RunsEach options context action [] workspace workspace
  | next {element : Value} {rest : List Value} {before between after : Workspace} {report : Report}
      (ran : RunsTo options (context.withItem element) [action.once] before report between)
      (onward : RunsEach options context action rest between after) :
      RunsEach options context action (element :: rest) before after

/-- A run in a shared scope is the run in its context, where templates keep this. -/
theorem runsTo_run (options : RunOptions) (context : Context) (actions : List Action)
    (keeps : workspace.renderings.KeepContext) :
    RunsTo options context actions workspace (run options context actions workspace).1
      (run options context actions workspace).2 :=
  (Step.always_run options actions context workspace keeps).1

/-- Runs of the single action are those in the contexts with the elements. -/
theorem runsEach_foldl (options : RunOptions) (context : Context) (action : Action) (items : List Value)
    (keeps : workspace.renderings.KeepContext) :
    RunsEach options context action items workspace
      (items.foldl (fun current element => (run options (context.withItem element) [action.once] current).2)
        workspace) := by
  induction items generalizing workspace with
  | nil => exact .none workspace
  | cons element rest inductionHypothesis =>
      exact .next (runsTo_run options (context.withItem element) [action.once] keeps)
        (inductionHypothesis (keeps.of_leaves (continues_run options _ _ workspace).left))

/-- Where templates keep the values that they are handed, a run leaves the context as it was, whatever fails in
it.  So a run of two lists of actions is a run of the first and then of the second, whose outcomes are counted
from the end of the first; and a run of a repeated action leaves what runs of the single action leave, one for
each element, in order. -/
theorem run_composes (options : RunOptions) (context : Context) (workspace : Workspace)
    (keeps : workspace.renderings.KeepContext) :
    (∀ actions, ∃ report after, RunsTo options context actions workspace report after)
      ∧ (∀ first second, ∃ early between late after whole done,
        RunsTo options context first workspace early between
          ∧ RunsTo options context second between late after
          ∧ RunsTo options context (first ++ second) workspace whole done
          ∧ whole = Report.ofOutcomes ((context.current.map Module.id).getD "")
            (early.outcomes ++ late.outcomes.map (Outcome.later first.length))
          ∧ Agrees options done after)
      ∧ ∀ action selector items, action.forEach = some selector → elements context selector = .ok items →
        ∃ report done after, RunsTo options context [action] workspace report done
          ∧ RunsEach options context action items workspace after ∧ Agrees options done after := by
  refine ⟨?_, ?_, ?_⟩
  · intro actions
    exact ⟨_, _, runsTo_run options context actions keeps⟩
  · intro first second
    have kept : (run options context first workspace).2.renderings.KeepContext :=
      keeps.of_leaves (continues_run options context first workspace).left
    obtain ⟨whole, agrees⟩ := run_append options context first second workspace
    exact ⟨_, _, _, _, _, _, runsTo_run options context first keeps, runsTo_run options context second kept,
      runsTo_run options context (first ++ second) keeps, whole, agrees⟩
  · intro action selector items repeated found
    exact ⟨_, _, _, runsTo_run options context [action] keeps, runsEach_foldl options context action items keeps,
      agrees_run_repeated repeated found workspace⟩

/-- An action that is repeated for the elements of the element at hand. -/
def nested : Action :=
  ⟨none, some "\x7b\x7b item \x7d\x7d", .createFile "\x7b\x7bitem\x7d\x7d.md" (.template "page.j2") false none⟩

/-- The element at hand. -/
def pages : List Value := [.text "one", .text "../two", .text "three"]

/-- A file is created from a template for each of three names, although the second one leads out of the
project. -/
theorem run_composes_pages :
    (Renderings.plain "a").KeepContext ∧ nested.forEach = some "\x7b\x7b item \x7d\x7d"
      ∧ elements (demoContext.withItem (.list pages)) "\x7b\x7b item \x7d\x7d" = .ok pages
      ∧ ∃ report done after,
        RunsTo ⟨false, true⟩ (demoContext.withItem (.list pages)) [nested]
            { offline with renderings := .plain "a" } report done
          ∧ RunsEach ⟨false, true⟩ (demoContext.withItem (.list pages)) nested pages
            { offline with renderings := .plain "a" } after
          ∧ Agrees ⟨false, true⟩ done after := by
  have bare : bareSelector "\x7b\x7b item \x7d\x7d" = "item" := by decide
  have trimmed : Text.trimmed "item" = "item" := by decide
  have selected : (demoContext.withItem (.list pages)).select "item" = some (.list pages) := by
    rw [Context.select, trimmed]
    rfl
  have found : elements (demoContext.withItem (.list pages)) "\x7b\x7b item \x7d\x7d" = .ok pages := by
    unfold elements
    rw [bare, selected]
  refine ⟨Renderings.keepContext_plain "a", rfl, found, ?_⟩
  exact (run_composes ⟨false, true⟩ _ _ (Renderings.keepContext_plain "a")).2.2 nested _ pages rfl found

end Execution

end Scaffold
