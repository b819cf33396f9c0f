import Scaffold.Proofs.Repetition
import Scaffold.Proofs.Execution.Failure

/-!
# What the report of a blueprint accounts for

`Report.AccountsFor` is what a report says of the actions that were run: which outcomes each of them has, in
which order they stand, and how the errors and the files follow from them.  It holds of every run, whatever
fails in it, as long as templates keep the values that they are handed (`run_accountsFor`).
-/

namespace Scaffold

/-- An outcome stands before another: its action comes first, or an earlier item of the same action. -/
def Outcome.Before (earlier later : Outcome) : Prop :=
  earlier.index < later.index
    ∨ earlier.index = later.index ∧ ∃ first second, earlier.iteration = some first
        ∧ later.iteration = some second ∧ first < second

/-- The item numbers of an action's outcomes: one outcome without a number, or one for every item that the
action is repeated for. -/
inductive Execution.Numbers (context : Context) (action : Action) : List (Option Nat) → Prop where
  | single (unrepeated : ∀ items, ¬Repeats context action items) : Numbers context action [none]
  | each {items} (repeats : Repeats context action items) :
      Numbers context action ((List.range items.length).map some)

namespace Report

/-- The outcomes of the action at an index. -/
def outcomesOf (report : Report) (index : Nat) : List Outcome :=
  report.outcomes.filter fun outcome => outcome.index == index

/-- What a report says of actions that were run in a context. -/
structure AccountsFor (report : Report) (context : Context) (actions : List Action) : Prop where
  /-- Every outcome is one of an action. -/
  known : ∀ outcome ∈ report.outcomes,
    ∃ action, actions[outcome.index]? = some action ∧ outcome.kind = action.kind
  /-- They stand in the order of the actions, those of one action in the order of its items. -/
  ordered : report.outcomes.Pairwise Outcome.Before
  /-- An action has one outcome, or one for every item that it is repeated for. -/
  complete : ∀ index action, actions[index]? = some action →
    Execution.Numbers context action ((report.outcomesOf index).map Outcome.iteration)
  /-- The errors are those of the outcomes that failed, one each and in their order. -/
  errors : report.errors.map some
    = (report.outcomes.filter fun outcome => !outcome.effect.isSuccess).map Outcome.errorLine?
  /-- The files are the paths of the outcomes that did not fail, each once. -/
  files : IsFirsts ((report.outcomes.filter fun outcome => outcome.effect.isSuccess).flatMap
    fun outcome => outcome.effect.paths) report.files
  /-- No file is listed twice among the changed ones. -/
  distinct : report.changedFiles.Nodup
  changed : report.changedFiles ⊆ report.files
  success : report.isSuccess = true ↔ ∀ outcome ∈ report.outcomes, outcome.effect.isSuccess = true

end Report

namespace Effect

/-- A failure names no paths. -/
theorem paths_of_not_isSuccess {effect : Effect} (failed : effect.isSuccess = false) :
    effect.paths = [] := by
  cases effect with
  | failed => rfl
  | _ => cases failed

/-- New paths are paths. -/
theorem newPaths_subset_paths (effect : Effect) : effect.newPaths ⊆ effect.paths := by
  cases effect with
  | applied paths => exact List.Subset.refl _
  | _ => exact List.nil_subset _

end Effect

/-- An outcome has an error line if it failed, and only then. -/
theorem Outcome.isSome_errorLine? (outcome : Outcome) :
    outcome.errorLine?.isSome = !outcome.effect.isSuccess := by
  rw [Outcome.errorLine?, Option.isSome_map, Effect.isSuccess]
  cases outcome.effect.message? <;> rfl

namespace Report

variable (moduleId : String) (outcomes : List Outcome)

/-- The errors of a report, in their order. -/
theorem map_some_errors : (ofOutcomes moduleId outcomes).errors.map some
    = (outcomes.filter fun outcome => !outcome.effect.isSuccess).map Outcome.errorLine? := by
  change (outcomes.filterMap Outcome.errorLine?).map some = _
  induction outcomes with
  | nil => rfl
  | cons outcome rest inductionHypothesis =>
      have failed := outcome.isSome_errorLine?
      cases line : outcome.errorLine? with
      | none =>
          rw [line] at failed
          rw [List.filterMap_cons_none line, List.filter_cons_of_neg (by simp [← failed])]
          exact inductionHypothesis
      | some text =>
          rw [line] at failed
          rw [List.filterMap_cons_some line, List.filter_cons_of_pos (by rw [← failed]; rfl),
            List.map_cons, List.map_cons, line]
          exact congrArg (some text :: ·) inductionHypothesis

/-- Only outcomes that did not fail contribute files. -/
theorem flatMap_paths : outcomes.flatMap (fun outcome => outcome.effect.paths)
    = (outcomes.filter fun outcome => outcome.effect.isSuccess).flatMap
        fun outcome => outcome.effect.paths := by
  induction outcomes with
  | nil => rfl
  | cons outcome rest inductionHypothesis =>
      cases succeeded : outcome.effect.isSuccess with
      | true =>
          rw [List.filter_cons, if_pos succeeded, List.flatMap_cons, List.flatMap_cons, inductionHypothesis]
      | false =>
          rw [List.filter_cons_of_neg (by simp [succeeded]), List.flatMap_cons,
            Effect.paths_of_not_isSuccess succeeded, inductionHypothesis]
          rfl

/-- The changed files are among the files. -/
theorem changedFiles_subset_files :
    (ofOutcomes moduleId outcomes).changedFiles ⊆ (ofOutcomes moduleId outcomes).files := by
  intro path member
  obtain ⟨outcome, present, new⟩ := List.mem_flatMap.mp (List.mem_eraseDups.mp member)
  exact List.mem_eraseDups.mpr
    (List.mem_flatMap.mpr ⟨outcome, present, outcome.effect.newPaths_subset_paths new⟩)

/-- A report says success if no outcome failed. -/
theorem isSuccess_ofOutcomes : (ofOutcomes moduleId outcomes).isSuccess = true
    ↔ ∀ outcome ∈ outcomes, outcome.effect.isSuccess = true := by
  change (outcomes.filterMap Outcome.errorLine?).isEmpty = true ↔ _
  rw [List.isEmpty_iff, List.filterMap_eq_nil_iff]
  refine forall₂_congr fun outcome _ => ?_
  rw [← Option.not_isSome_iff_eq_none, outcome.isSome_errorLine?]
  simp

end Report

namespace Execution

variable {options : RunOptions} {context : Context} {actions : List Action} {action : Action}
  {before : Workspace} {index : Nat} {items : List Value} {outcome : Outcome}

/-- Items are numbered from a position on. -/
theorem places_applyEach (operation : Operation) (position : Nat) (before : Workspace) :
    (applyEach options context before index operation position items).1.map
        (fun outcome => (outcome.index, outcome.kind, outcome.iteration))
      = (List.range' position items.length).map fun number => (index, operation.kind, some number) := by
  induction items generalizing position before with
  | nil => rfl
  | cons element rest inductionHypothesis =>
      rw [List.length_cons, List.range'_succ, List.map_cons, ← inductionHypothesis]
      rfl

/-- The outcomes of an action are its own, with the numbers that it has. -/
theorem places_runAction (options : RunOptions) (context : Context) (before : Workspace) (index : Nat)
    (action : Action) : ∃ numbers, Numbers context action numbers
      ∧ (runAction options context before index action).1.map
          (fun outcome => (outcome.index, outcome.kind, outcome.iteration))
        = numbers.map fun number => (index, action.kind, number) := by
  unfold runAction
  split
  next unwanted =>
    refine ⟨_, .single fun items repeats => ?_, rfl⟩
    rw [repeats.wanted] at unwanted
    cases unwanted
  next wanted =>
    replace wanted : isWanted context action = true := by simpa using wanted
    split
    next single =>
      refine ⟨_, .single fun items repeats => ?_, rfl⟩
      obtain ⟨selector, repeated, _⟩ := repeats.selected
      rw [single] at repeated
      cases repeated
    next selector repeated =>
      split
      next fault refused =>
        refine ⟨_, .single fun items repeats => ?_, rfl⟩
        rw [repeats.elements_eq repeated] at refused
        cases refused
      next none =>
        refine ⟨_, .single fun items repeats => ?_, rfl⟩
        exact repeats.nonempty (Except.ok.inj ((repeats.elements_eq repeated).symm.trans none))
      next items nonempty found =>
        refine ⟨_, .each (repeats_of_elements wanted repeated found nonempty), ?_⟩
        rw [places_applyEach, List.map_map, List.range_eq_range']
        rfl

/-- Every outcome of an action has its index and its kind. -/
theorem place_of_mem_runAction (member : outcome ∈ (runAction options context before index action).1) :
    outcome.index = index ∧ outcome.kind = action.kind := by
  obtain ⟨numbers, _, places⟩ := places_runAction options context before index action
  have listed := List.mem_map_of_mem
    (f := fun outcome : Outcome => (outcome.index, outcome.kind, outcome.iteration)) member
  rw [places] at listed
  obtain ⟨number, _, same⟩ := List.mem_map.mp listed
  obtain ⟨sameIndex, sameRest⟩ := Prod.mk.inj same
  exact ⟨sameIndex.symm, (Prod.mk.inj sameRest).1.symm⟩

/-- The outcomes of an action have the numbers that it has. -/
theorem numbers_runAction (options : RunOptions) (context : Context) (before : Workspace) (index : Nat)
    (action : Action) : Numbers context action
      ((runAction options context before index action).1.map Outcome.iteration) := by
  obtain ⟨numbers, isNumbers, places⟩ := places_runAction options context before index action
  have same := congrArg (List.map fun place : Nat × ActionKind × Option Nat => place.2.2) places
  rw [List.map_map, List.map_map] at same
  rw [← List.map_id numbers] at isNumbers
  exact same ▸ isNumbers

/-- The outcomes of an action stand in the order of its items. -/
theorem ordered_runAction (options : RunOptions) (context : Context) (before : Workspace) (index : Nat)
    (action : Action) : (runAction options context before index action).1.Pairwise Outcome.Before := by
  have ascending : ∀ {numbers}, Numbers context action numbers →
      numbers.Pairwise fun earlier later =>
        ∃ first second, earlier = some first ∧ later = some second ∧ first < second := by
    intro numbers isNumbers
    cases isNumbers with
    | single => exact List.pairwise_singleton _ _
    | each repeats =>
        rw [List.pairwise_map]
        exact List.pairwise_lt_range.imp fun less => ⟨_, _, rfl, rfl, less⟩
  have pairwise := ascending (numbers_runAction options context before index action)
  rw [List.pairwise_map] at pairwise
  refine pairwise.imp_of_mem fun earlierMember laterMember numbered => .inr ⟨?_, numbered⟩
  rw [(place_of_mem_runAction earlierMember).1, (place_of_mem_runAction laterMember).1]

/-- The outcomes of the first action stand before those of the others. -/
theorem outcomes_runActions_cons (options : RunOptions) (context : Context) (before : Workspace)
    (index : Nat) (action : Action) (rest : List Action) :
    (runActions options context before index (action :: rest)).1
      = (runAction options context before index action).1
        ++ (runActions options context (runAction options context before index action).2 (index + 1)
            rest).1 := by
  rw [runActions]

/-- Every outcome of actions that are counted from an index is one of theirs. -/
theorem known_runActions (member : outcome ∈ (runActions options context before index actions).1) :
    ∃ offset action, outcome.index = index + offset ∧ actions[offset]? = some action
      ∧ outcome.kind = action.kind := by
  induction actions generalizing index before with
  | nil => cases member
  | cons action rest inductionHypothesis =>
      rw [outcomes_runActions_cons] at member
      rcases List.mem_append.mp member with here | further
      · obtain ⟨same, kind⟩ := place_of_mem_runAction here
        exact ⟨0, action, same, rfl, kind⟩
      · obtain ⟨offset, other, same, stands, kind⟩ := inductionHypothesis further
        exact ⟨offset + 1, other, by rw [same, Nat.add_assoc, Nat.add_comm 1], stands, kind⟩

/-- The outcomes of actions stand in the order of the actions. -/
theorem ordered_runActions (options : RunOptions) (context : Context) (before : Workspace) (index : Nat)
    (actions : List Action) :
    (runActions options context before index actions).1.Pairwise Outcome.Before := by
  induction actions generalizing index before with
  | nil => exact .nil
  | cons action rest inductionHypothesis =>
      rw [outcomes_runActions_cons]
      refine List.pairwise_append.mpr
        ⟨ordered_runAction options context before index action, inductionHypothesis _ _, ?_⟩
      intro earlier here later further
      obtain ⟨offset, _, same, _, _⟩ := known_runActions further
      refine .inl ?_
      rw [(place_of_mem_runAction here).1, same]
      omega

/-- Of actions that are counted from an index, each has the outcomes with its own index. -/
theorem complete_runActions {offset : Nat} (stands : actions[offset]? = some action) :
    Numbers context action
      (((runActions options context before index actions).1.filter fun outcome =>
        outcome.index == index + offset).map Outcome.iteration) := by
  induction actions generalizing index before offset with
  | nil => cases stands
  | cons first rest inductionHypothesis =>
      rw [outcomes_runActions_cons, List.filter_append]
      cases offset with
      | zero =>
          obtain rfl := Option.some.inj stands
          rw [List.filter_eq_self.mpr, List.filter_eq_nil_iff.mpr, List.append_nil]
          · exact numbers_runAction options context before index first
          · intro outcome further
            obtain ⟨offset, _, same, _, _⟩ := known_runActions further
            simp only [same, beq_iff_eq]
            omega
          · intro outcome here
            simp [(place_of_mem_runAction here).1]
      | succ offset =>
          rw [List.filter_eq_nil_iff.mpr, List.nil_append, Nat.add_comm offset, ← Nat.add_assoc]
          · exact inductionHypothesis stands
          · intro outcome here
            simp only [(place_of_mem_runAction here).1, beq_iff_eq]
            omega

/-- A run succeeds if no outcome failed. -/
theorem isSuccess_run (options : RunOptions) (context : Context) (actions : List Action)
    (workspace : Workspace) : (run options context actions workspace).1.isSuccess = true
      ↔ ∀ outcome ∈ (run options context actions workspace).1.outcomes, outcome.effect.isSuccess = true :=
  Report.isSuccess_ofOutcomes _ _

/-- The report of a run accounts for its actions. -/
theorem accountsFor_run (options : RunOptions) (context : Context) (actions : List Action)
    (workspace : Workspace) :
    (run options context actions workspace).1.AccountsFor context actions where
  known outcome member := by
    obtain ⟨offset, action, same, stands, kind⟩ := known_runActions member
    rw [Nat.zero_add] at same
    exact ⟨action, same ▸ stands, kind⟩
  ordered := ordered_runActions options context workspace 0 actions
  complete index action stands := by
    rw [← Nat.zero_add index, Report.outcomesOf]
    exact complete_runActions stands
  errors := Report.map_some_errors _ _
  files := by
    rw [← Report.flatMap_paths]
    exact isFirsts_eraseDups _
  distinct := nodup_eraseDups _
  changed := Report.changedFiles_subset_files _ _
  success := isSuccess_run options context actions workspace

/-- A run in a shared scope always ends with a report, whatever fails in it, and the report accounts for its
actions, where templates keep the values that they are handed. -/
theorem run_accountsFor (options : RunOptions) (context : Context) (actions : List Action)
    (workspace : Workspace) (keeps : workspace.renderings.KeepContext) :
    ∃ report done, Step.run options actions ⟨context, workspace⟩ = .ok report ⟨context, done⟩
      ∧ report.AccountsFor context actions :=
  ⟨_, _, (Step.always_run options actions context workspace keeps).1,
    accountsFor_run options context actions workspace⟩

/-- A page for each element of the element at hand, from a template file. -/
def pageFromFile : Action :=
  ⟨none, some "item", .createFile "\x7b\x7bitem\x7d\x7d.md" (.template "page.j2") false none⟩

/-- The pages are accounted for, also the second one, whose path leads out of the project. -/
theorem run_accountsFor_pages :
    (Renderings.plain "a").KeepContext
      ∧ ∃ report done,
        Step.run ⟨false, true⟩ [pageFromFile]
            ⟨demoContext.withItem (.list [.text "one", .text "../two"]), { offline with renderings := .plain "a" }⟩
          = .ok report ⟨demoContext.withItem (.list [.text "one", .text "../two"]), done⟩
        ∧ report.AccountsFor (demoContext.withItem (.list [.text "one", .text "../two"])) [pageFromFile] :=
  ⟨Renderings.keepContext_plain "a", run_accountsFor _ _ _ _ (Renderings.keepContext_plain "a")⟩

end Execution

end Scaffold
