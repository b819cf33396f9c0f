import Scaffold.Execution.Run

/-!
# The trace of a blueprint

`Execution.Applies` is what is recorded at one point of a run, as a relation between the workspaces before
and after it, and `Execution.Chain` puts such points one after the other.  `chain_run` says that every run is
a chain of applications of its actions, in the order of the outcomes that it reports.
-/

namespace Scaffold

/-- An action that is always applied, and applied once. -/
def Action.always (operation : Operation) : Action := ⟨none, none, operation⟩

namespace Execution

/-- An action is repeated for the items of a list: its condition holds, and its selector stands for the list,
which has items. -/
structure Repeats (context : Context) (action : Action) (items : List Value) : Prop where
  wanted : isWanted context action = true
  selected : ∃ selector, action.forEach = some selector
    ∧ context.select (bareSelector selector) = some (.list items)
  nonempty : items ≠ []

/-- What an action records without being applied. -/
inductive Notes (context : Context) (action : Action) : Effect → Prop where
  | passedOver (unwanted : isWanted context action = false) : Notes context action .skipped
  | empty {selector} (repeated : action.forEach = some selector)
      (none : elements context selector = .ok []) : Notes context action .skipped
  | unlisted {selector} (repeated : action.forEach = some selector)
      (refused : elements context selector = .error (.notList selector)) :
      Notes context action (.failed (ActionFault.notList selector).message)

/-- An outcome is recorded: an action is passed over, or applied once, or applied to an item. -/
inductive Applies (options : RunOptions) (context : Context) (actions : List Action) :
    Workspace → Outcome → Workspace → Prop where
  | noted {before index action effect text} (stands : actions[index]? = some action)
      (notes : Notes context action effect) :
      Applies options context actions before ⟨index, action.kind, effect, none⟩
        (record options before ⟨index, action.kind, effect, none⟩ text).2
  | once {before index action} (stands : actions[index]? = some action)
      (wanted : isWanted context action = true) (single : action.forEach = none) :
      Applies options context actions before
        (applyOnce options context before index action.operation none).1
        (applyOnce options context before index action.operation none).2
  | item {before index action items position element} (stands : actions[index]? = some action)
      (repeats : Repeats context action items) (present : items[position]? = some element) :
      Applies options context actions before
        (applyOnce options (context.withItem element) before index action.operation (some position)).1
        (applyOnce options (context.withItem element) before index action.operation (some position)).2

/-- Outcomes are recorded one after the other, each as a relation on workspaces allows. -/
inductive Chain (step : Workspace → Outcome → Workspace → Prop) :
    Workspace → List Outcome → Workspace → Prop where
  | ended {workspace} : Chain step workspace [] workspace
  | goesOn {before between after outcome outcomes} (first : step before outcome between)
      (onward : Chain step between outcomes after) : Chain step before (outcome :: outcomes) after

variable {options : RunOptions} {context : Context} {actions rest : List Action} {action : Action}
  {before between after : Workspace} {index : Nat} {outcomes others : List Outcome} {items : List Value}
  {step other : Workspace → Outcome → Workspace → Prop}

theorem Chain.append (first : Chain step before outcomes between)
    (second : Chain step between others after) : Chain step before (outcomes ++ others) after := by
  induction first with
  | ended => exact second
  | goesOn here onward inductionHypothesis => exact .goesOn here (inductionHypothesis second)

theorem Chain.single {outcome : Outcome} (only : step before outcome after) :
    Chain step before [outcome] after := .goesOn only .ended

/-- What every step implies is there at every step of a chain. -/
theorem Chain.imp (implies : ∀ {before outcome after}, step before outcome after → other before outcome after)
    (chain : Chain step before outcomes after) : Chain other before outcomes after := by
  induction chain with
  | ended => exact .ended
  | goesOn first onward inductionHypothesis => exact .goesOn (implies first) inductionHypothesis

/-- A step may rely on what all steps keep. -/
theorem Chain.imp_of_preserves (kept : Workspace → Prop)
    (keeps : ∀ {before outcome after}, kept before → step before outcome after → kept after)
    (implies : ∀ {before outcome after}, kept before → step before outcome after → other before outcome after)
    (start : kept before) (chain : Chain step before outcomes after) : Chain other before outcomes after := by
  induction chain with
  | ended => exact .ended
  | goesOn first onward inductionHypothesis =>
      exact .goesOn (implies start first) (inductionHypothesis (keeps start first))

/-- What every step keeps is kept by a chain. -/
theorem Chain.preserves (kept : Workspace → Prop)
    (keeps : ∀ {before outcome after}, kept before → step before outcome after → kept after)
    (start : kept before) (chain : Chain step before outcomes after) : kept after := by
  induction chain with
  | ended => exact start
  | goesOn first onward inductionHypothesis => exact inductionHypothesis (keeps start first)

/-- Recording an outcome leaves the files. -/
theorem tree_record {outcome : Outcome} {text : String} :
    (record options before outcome text).2.tree = before.tree := by
  unfold record
  dsimp only
  split <;> rfl

/-- An application is recorded under its effect. -/
theorem applyOnce_eq {operation : Operation} {effect : Effect} {iteration : Option Nat}
    (attempted : attempt options context before operation = (effect, after)) :
    applyOnce options context before index operation iteration
      = record options after ⟨index, operation.kind, effect, iteration⟩ (note effect) := by
  rw [applyOnce, attempted]

/-- An application leaves the files that its attempt leaves. -/
theorem tree_applyOnce (options : RunOptions) (context : Context) (before : Workspace) (index : Nat)
    (operation : Operation) (iteration : Option Nat) :
    (applyOnce options context before index operation iteration).2.tree
      = (attempt options context before operation).2.tree := by
  cases attempted : attempt options context before operation with
  | mk effect after => rw [applyOnce_eq attempted, tree_record]

/-- What remains of a list behind a position starts with the item there. -/
theorem split_of_drop_eq_cons {Item : Type} {all left : List Item} {item : Item} {position : Nat}
    (remaining : all.drop position = item :: left) :
    all[position]? = some item ∧ all.drop (position + 1) = left := by
  rw [← List.head?_drop, ← List.tail_drop, remaining]
  exact ⟨rfl, rfl⟩

/-- The elements that a selector names are none, or they are those of a list that the action is repeated
for. -/
theorem repeats_of_elements {selector : String} (wanted : isWanted context action = true)
    (repeated : action.forEach = some selector) (found : elements context selector = .ok items)
    (nonempty : items ≠ []) : Repeats context action items := by
  refine ⟨wanted, ⟨selector, repeated, ?_⟩, nonempty⟩
  unfold elements at found
  split at found
  next => exact absurd (Except.ok.inj found).symm nonempty
  next => exact absurd (Except.ok.inj found).symm nonempty
  next list selected => rw [selected, Except.ok.inj found]
  next => cases found

/-- The selector of an action that is repeated names the items. -/
theorem Repeats.elements_eq {selector : String} (repeats : Repeats context action items)
    (repeated : action.forEach = some selector) : elements context selector = .ok items := by
  obtain ⟨other, same, selected⟩ := repeats.selected
  obtain rfl := Option.some.inj (repeated.symm.trans same)
  unfold elements
  rw [selected]

/-- A selector that names no list is reported under its name. -/
theorem eq_notList_of_elements {selector : String} {fault : ActionFault}
    (refused : elements context selector = .error fault) : fault = .notList selector := by
  unfold elements at refused
  split at refused
  next => cases refused
  next => cases refused
  next => cases refused
  next => exact (Except.error.inj refused).symm

/-- Items are handled in order. -/
theorem chain_applyEach (stands : actions[index]? = some action) (repeats : Repeats context action items)
    {position : Nat} {left : List Value} (remaining : items.drop position = left) (before : Workspace) :
    Chain (Applies options context actions) before
      (applyEach options context before index action.operation position left).1
      (applyEach options context before index action.operation position left).2 := by
  induction left generalizing position before with
  | nil => exact .ended
  | cons element left inductionHypothesis =>
      obtain ⟨present, further⟩ := split_of_drop_eq_cons remaining
      exact .goesOn (.item stands repeats present) (inductionHypothesis further _)

/-- An action is handled as its condition and its selector say. -/
theorem chain_runAction (stands : actions[index]? = some action) (before : Workspace) :
    Chain (Applies options context actions) before
      (runAction options context before index action).1
      (runAction options context before index action).2 := by
  unfold runAction
  split
  next unwanted => exact .single (.noted stands (.passedOver (by simpa using unwanted)))
  next wanted =>
    replace wanted : isWanted context action = true := by simpa using wanted
    split
    next single => exact .single (.once stands wanted single)
    next selector repeated =>
      split
      next fault refused =>
        obtain rfl := eq_notList_of_elements refused
        exact .single (.noted stands (.unlisted repeated refused))
      next none => exact .single (.noted stands (.empty repeated none))
      next items nonempty found =>
        exact chain_applyEach stands (repeats_of_elements wanted repeated found nonempty) rfl before

/-- Actions are handled in order. -/
theorem chain_runActions (remaining : actions.drop index = rest) (before : Workspace) :
    Chain (Applies options context actions) before (runActions options context before index rest).1
      (runActions options context before index rest).2 := by
  induction rest generalizing index before with
  | nil => exact .ended
  | cons action rest inductionHypothesis =>
      obtain ⟨stands, further⟩ := split_of_drop_eq_cons remaining
      exact (chain_runAction stands before).append (inductionHypothesis further _)

/-- A run is a chain of applications, in the order of its outcomes. -/
theorem chain_run (options : RunOptions) (context : Context) (actions : List Action)
    (workspace : Workspace) :
    Chain (Applies options context actions) workspace (run options context actions workspace).1.outcomes
      (run options context actions workspace).2 :=
  chain_runActions rfl workspace

/-- A run of one action that is always applied has the outcome and the files of its attempt. -/
theorem run_always {operation : Operation} {effect : Effect}
    (attempted : attempt options context before operation = (effect, after)) :
    (run options context [.always operation] before).1.outcomes = [⟨0, operation.kind, effect, none⟩]
      ∧ (run options context [.always operation] before).2.tree = after.tree := by
  have ran : runActions options context before 0 [.always operation]
      = ([⟨0, operation.kind, effect, none⟩],
        (record options after ⟨0, operation.kind, effect, none⟩ (note effect)).2) := by
    rw [runActions, runAction, if_neg (by simp [isWanted, Action.always])]
    dsimp only [Action.always]
    rw [applyOnce_eq attempted]
    rfl
  rw [run, ran]
  exact ⟨rfl, tree_record⟩

end Execution

end Scaffold
