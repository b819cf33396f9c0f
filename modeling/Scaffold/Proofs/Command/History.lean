import Scaffold.Command.Runner
import Mathlib.Tactic.Common

/-!
# What a runner remembers

A call of a runner is rejected, which leaves the runner as it is, or it launches one command, which the runner
remembers with its answer (`Call.performs`).  So after any calls, with whatever happens to the files in between, the
runner remembers the launched commands and nothing else, in order (`account_performAll`).
-/

namespace Scaffold.Runner

/-- A call of a runner. -/
inductive Call where
  | run (words : List String) (folder : String) (check : Bool)
  | install (packages : List String) (folder : String) (dev check : Bool)

/-- What a call ends with. -/
abbrev Outcome := Except RunFault CommandResult

namespace Call

/-- The folder in which a command is to run. -/
def folder : Call → String
  | .run _ folder _ => folder
  | .install _ folder _ _ => folder

/-- Whether the caller accepts only a command that succeeds. -/
def check : Call → Bool
  | .run _ _ check => check
  | .install _ _ _ check => check

/-- The words that a call passes on; none if it cannot find out the package manager. -/
def words? (config : RunnerConfig) (tree : Tree) : Call → Option (List String)
  | .run words _ _ => some words
  | .install packages folder dev _ =>
    (config.packageManager.or (PackageManager.detect tree (Path.ofText folder)).toOption).map
      fun manager => manager.installWords packages dev

/-- The command that a call launches: it has words and a folder to run in. -/
def launch? (config : RunnerConfig) (tree : Tree) (call : Call) : Option Launch :=
  match call.words? config tree, tree.isFolder (Path.ofText call.folder) with
  | some (program :: arguments), .ok true => some ⟨program :: arguments, call.folder, config.timeout⟩
  | _, _ => none

/-- Calls that are rejected before anything is launched, and why. -/
inductive Rejected (config : RunnerConfig) (tree : Tree) : Call → RunFault → Prop where
  | empty {folder check} : Rejected config tree (.run [] folder check) .empty
  | noFolder {call program arguments} (asks : call.words? config tree = some (program :: arguments))
      (missing : tree.isFolder (Path.ofText call.folder) = .ok false) :
      Rejected config tree call (.noFolder call.folder)
  | file {call program arguments error} (asks : call.words? config tree = some (program :: arguments))
      (fails : tree.isFolder (Path.ofText call.folder) = .error error) : Rejected config tree call (.file error)
  /-- The lock files, which show the package manager, cannot be looked at. -/
  | unmanaged {packages folder dev check error} (free : config.packageManager = none)
      (fails : PackageManager.detect tree (Path.ofText folder) = .error error) :
      Rejected config tree (.install packages folder dev check) (.file error)

/-- Performs a call. -/
def perform (runner : Runner) (tree : Tree) : Call → Outcome × Runner
  | .run words folder check => runner.run tree words folder check
  | .install packages folder dev check => runner.install tree packages folder dev check

end Call

/-- The commands that calls launch, in order. -/
def launchedBy (config : RunnerConfig) (calls : List (Tree × Call)) : List Launch :=
  calls.filterMap fun (tree, call) => call.launch? config tree

/-- Performs calls one after the other, each with the files there are by then. -/
def performAll (runner : Runner) : List (Tree × Call) → List Outcome × Runner
  | [] => ([], runner)
  | (tree, call) :: later =>
    let (outcome, next) := call.perform runner tree
    let (outcomes, after) := performAll next later
    (outcome :: outcomes, after)

/-- What an answer says of a launched command. -/
inductive Answered (launch : Launch) : CommandAnswer → CommandResult → Prop where
  | finished {exitCode stdout stderr duration} : Answered launch (.finished exitCode stdout stderr)
      ⟨launch.words, decide (exitCode = 0), exitCode, stdout, stderr, duration, launch.folder⟩
  | notStarted {reason program arguments duration} (words : launch.words = program :: arguments) :
      Answered launch (.notStarted reason)
        ⟨launch.words, false, 127, "", program ++ ": " ++ reason, duration, launch.folder⟩

/-- What is remembered of commands that were launched one after the other, each with the next answer. -/
inductive Remembered : List Launch → List CommandAnswer → List CommandResult → Prop where
  | nil {answers} : Remembered [] answers []
  | cons {launch launches answers result results} (first : Answered launch (nextAnswer answers).1 result)
      (later : Remembered launches (nextAnswer answers).2 results) :
      Remembered (launch :: launches) answers (result :: results)

/-- A call that launches a command: the runner remembers it, and a caller that checks the command is told of a
command that did not succeed, with what is remembered. -/
structure Launches (call : Call) (launch : Launch) (before : Runner) (outcome : Outcome) (after : Runner)
    (result : CommandResult) : Prop where
  launches : after.launches = before.launches ++ [launch]
  answered : Answered launch (nextAnswer before.answers).1 result
  answers : after.answers = (nextAnswer before.answers).2
  config : after.config = before.config
  history : after.history = before.history ++ [result]
  fails_iff : (∃ fault, outcome = .error fault) ↔ call.check = true ∧ result.success = false
  fault : ∀ fault, outcome = .error fault → fault = .failed (failureReason result) result
  accepted : ∀ value, outcome = .ok value → value = result

/-- What a call does to a runner. -/
inductive Performs (tree : Tree) (call : Call) (before : Runner) : Outcome → Runner → Prop where
  | rejected {fault} (rejected : call.Rejected before.config tree fault) :
      Performs tree call before (.error fault) before
  | launched {launch outcome after result} (asks : call.launch? before.config tree = some launch)
      (launches : Launches call launch before outcome after result) :
      Performs tree call before outcome after

/-- What calls do to a runner one after the other. -/
inductive PerformsAll : Runner → List (Tree × Call) → List Outcome → Runner → Prop where
  | nil {runner} : PerformsAll runner [] [] runner
  | cons {tree call before outcome next calls outcomes after} (first : Performs tree call before outcome next)
      (later : PerformsAll next calls outcomes after) :
      PerformsAll before ((tree, call) :: calls) (outcome :: outcomes) after

variable {runner before after : Runner} {tree : Tree} {call : Call} {calls : List (Tree × Call)}
  {words : List String} {outcome : Outcome} {outcomes : List Outcome} {fault : RunFault}

/-! ## One call -/

/-- The command of a package manager is not empty. -/
theorem installWords_ne_nil (manager : PackageManager) (packages : List String) (dev : Bool) :
    manager.installWords packages dev ≠ [] := List.cons_ne_nil _ _

/-- Only a call without words passes on none. -/
theorem Call.eq_run_of_words?_eq_nil (asks : call.words? runner.config tree = some []) :
    call = .run [] call.folder call.check := by
  cases call with
  | run words folder check => rw [Option.some.inj asks]; rfl
  | install packages folder dev check =>
      obtain ⟨manager, _, same⟩ := Option.map_eq_some_iff.mp asks
      exact absurd same (installWords_ne_nil manager packages dev)

/-- A call without a package manager is rejected, since its lock files cannot be looked at. -/
theorem Call.exists_rejected_of_words?_eq_none (asks : call.words? runner.config tree = none) :
    ∃ fault, call.Rejected runner.config tree fault ∧ call.perform runner tree = (.error fault, runner) := by
  cases call with
  | run words folder check => cases asks
  | install packages folder dev check =>
      have neither := Option.or_eq_none_iff.mp (Option.map_eq_none_iff.mp asks)
      cases detected : PackageManager.detect tree (Path.ofText folder) with
      | ok manager => simp [detected, Except.toOption] at neither
      | error error =>
          refine ⟨.file error, .unmanaged neither.1 detected, ?_⟩
          rw [perform, Runner.install, packageManager, neither.1, detected]

/-- A call with words runs them. -/
theorem Call.perform_eq_run (asks : call.words? runner.config tree = some words) :
    call.perform runner tree = runner.run tree words call.folder call.check := by
  cases call with
  | run given folder check => rw [← Option.some.inj asks]; rfl
  | install packages folder dev check =>
      obtain ⟨manager, found, rfl⟩ := Option.map_eq_some_iff.mp asks
      have managed : runner.packageManager tree (Path.ofText folder) = .ok manager := by
        rw [packageManager]
        cases configured : runner.config.packageManager with
        | some chosen => simpa [configured] using found
        | none =>
            cases detected : PackageManager.detect tree (Path.ofText folder) with
            | error error => simp [configured, detected, Except.toOption] at found
            | ok shown => simpa [configured, detected, Except.toOption] using found
      rw [perform, Runner.install, managed]
      rfl

/-- The result of a command is what its answer says. -/
theorem answered_resultOf (program : String) (arguments : List String) (folder : String) (timeout : Int)
    (answer : CommandAnswer) :
    Answered ⟨program :: arguments, folder, timeout⟩ answer
      (resultOf program (program :: arguments) folder answer) := by
  cases answer with
  | finished exitCode stdout stderr =>
      have success : (exitCode == 0) = decide (exitCode = 0) := rfl
      rw [resultOf, success]
      exact .finished
  | notStarted reason => exact .notStarted rfl

/-- What is launched is remembered. -/
theorem launches_run (runner : Runner) (program : String) (arguments : List String)
    (works : tree.isFolder (Path.ofText call.folder) = .ok true) :
    let performed := runner.run tree (program :: arguments) call.folder call.check
    ∃ result, Launches call ⟨program :: arguments, call.folder, runner.config.timeout⟩ runner
      performed.1 performed.2 result := by
  let answer := (nextAnswer runner.answers).1
  let result := resultOf program (program :: arguments) call.folder answer
  refine ⟨result, ?_⟩
  have launched : (runner.launch program (program :: arguments) call.folder).1 = result := rfl
  have answered : Answered ⟨program :: arguments, call.folder, runner.config.timeout⟩ answer result :=
    answered_resultOf program arguments call.folder _ answer
  simp only [run, works]
  by_cases fails : (call.check && !result.success) = true
  · simp only [launched, fails, if_true]
    have both : call.check = true ∧ result.success = false := by simpa using fails
    exact ⟨rfl, answered, rfl, rfl, rfl, iff_of_true ⟨_, rfl⟩ both,
      fun fault same => (Except.error.inj same).symm, fun value same => by cases same⟩
  · simp only [launched, if_neg fails]
    have both : ¬(call.check = true ∧ result.success = false) := by simpa using fails
    exact ⟨rfl, answered, rfl, rfl, rfl, iff_of_false (by rintro ⟨_, ⟨⟩⟩) both,
      fun fault same => (by cases same), fun value same => (Except.ok.inj same).symm⟩

/-- What is rejected launches nothing. -/
theorem Call.Rejected.launch?_eq_none (rejected : call.Rejected runner.config tree fault) :
    call.launch? runner.config tree = none := by
  cases rejected with
  | empty => rfl
  | noFolder asks missing => rw [launch?, asks, missing]
  | file asks fails => rw [launch?, asks, fails]
  | @unmanaged packages folder dev check error free fails =>
      have unknown : (Call.install packages folder dev check).words? runner.config tree = none := by
        rw [words?, free, fails]
        rfl
      rw [launch?, unknown]

/-- A launched command has the words of its call. -/
theorem Call.words?_of_launch? {launch : Launch} (asks : call.launch? runner.config tree = some launch) :
    call.words? runner.config tree = some launch.words
      ∧ launch = ⟨launch.words, call.folder, runner.config.timeout⟩ := by
  unfold launch? at asks
  split at asks
  next words folder =>
    obtain rfl := Option.some.inj asks
    exact ⟨words, rfl⟩
  next => cases asks

/-- Every call is rejected or launches its command. -/
theorem Call.performs (runner : Runner) (tree : Tree) (call : Call) :
    Performs tree call runner (call.perform runner tree).1 (call.perform runner tree).2 := by
  match asks : call.words? runner.config tree with
  | none =>
      obtain ⟨fault, rejected, performed⟩ := exists_rejected_of_words?_eq_none asks
      rw [performed]
      exact .rejected rejected
  | some [] =>
      rw [eq_run_of_words?_eq_nil asks]
      exact .rejected .empty
  | some (program :: arguments) =>
      rw [perform_eq_run asks]
      match looked : tree.isFolder (Path.ofText call.folder) with
      | .error error =>
          simp only [Runner.run, looked]
          exact .rejected (.file asks looked)
      | .ok false =>
          simp only [Runner.run, looked]
          exact .rejected (.noFolder asks looked)
      | .ok true =>
          obtain ⟨result, launches⟩ := launches_run runner program arguments looked
          exact .launched (by rw [launch?, asks, looked]) launches

/-! ## Calls one after the other -/

/-- The commands of a call and of those after it. -/
theorem launchedBy_cons (config : RunnerConfig) (tree : Tree) (call : Call) (calls : List (Tree × Call)) :
    launchedBy config ((tree, call) :: calls) = (call.launch? config tree).toList ++ launchedBy config calls := by
  cases asks : call.launch? config tree <;> simp [launchedBy, asks]

/-- The settings of a runner stay. -/
theorem Performs.config_eq (performs : Performs tree call before outcome after) :
    after.config = before.config := by
  cases performs with
  | rejected _ => rfl
  | launched _ launches => exact launches.config

/-- Every call of many does what it does alone. -/
theorem performsAll (runner : Runner) (calls : List (Tree × Call)) :
    PerformsAll runner calls (performAll runner calls).1 (performAll runner calls).2 := by
  induction calls generalizing runner with
  | nil => exact .nil
  | cons first later inductionHypothesis =>
      obtain ⟨tree, call⟩ := first
      exact .cons (call.performs runner tree) (inductionHypothesis _)

/-- After many calls the runner has launched the commands that the calls launch, in order, and remembers what their
answers say of them. -/
theorem PerformsAll.exists_remembered (performs : PerformsAll before calls outcomes after) :
    after.launches = before.launches ++ launchedBy before.config calls
      ∧ ∃ results, after.history = before.history ++ results
          ∧ Remembered (launchedBy before.config calls) before.answers results := by
  induction performs with
  | nil => exact ⟨(List.append_nil _).symm, [], (List.append_nil _).symm, .nil⟩
  | @cons tree call before outcome next calls outcomes after first later inductionHypothesis =>
      rw [first.config_eq] at inductionHypothesis
      obtain ⟨launches, results, history, remembered⟩ := inductionHypothesis
      cases first with
      | rejected rejected =>
          rw [launchedBy_cons, rejected.launch?_eq_none]
          exact ⟨launches, results, history, remembered⟩
      | @launched launch outcome next result asks does =>
          rw [launchedBy_cons, asks]
          rw [does.launches, List.append_assoc] at launches
          rw [does.history, List.append_assoc] at history
          rw [does.answers] at remembered
          exact ⟨launches, result :: results, history, .cons does.answered remembered⟩

/-- Whatever a runner is called for, each call is rejected and changes nothing, or launches its command; the runner
remembers exactly the launched commands, in order; and a caller that checks a command is told of its failure with
what is remembered of it. -/
theorem account_performAll (runner : Runner) (calls : List (Tree × Call)) :
    let (outcomes, after) := performAll runner calls
    PerformsAll runner calls outcomes after
      ∧ after.launches = runner.launches ++ launchedBy runner.config calls
      ∧ ∃ results, after.history = runner.history ++ results
          ∧ Remembered (launchedBy runner.config calls) runner.answers results :=
  ⟨performsAll runner calls, (performsAll runner calls).exists_remembered⟩

end Scaffold.Runner
