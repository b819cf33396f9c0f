import Scaffold.Command.Result
import Scaffold.Config
import Scaffold.Text.Blank

/-!
# Running commands

Commands are launched one after the other.  What each of them does outside is not part of this library:
the runner carries the answers that the launched commands will give, and a command without an answer
succeeds silently.  The runner remembers every launched command.
-/

namespace Scaffold

/-- What a launched command answers. -/
inductive CommandAnswer where
  | finished (exitCode : Int) (stdout stderr : String)
  /-- The program could not be started. -/
  | notStarted (reason : String)
  deriving DecidableEq, Repr

/-- A command that was launched. -/
structure Launch where
  words : List String
  folder : String
  timeout : Int
  deriving DecidableEq, Repr

/-- A launched command as data. -/
def Launch.toValue (launch : Launch) : Value :=
  .record [("cmd", .texts launch.words), ("cwd", .text launch.folder), ("timeout", .int launch.timeout)]

/-- Why running a command fails. -/
inductive RunFault where
  | empty
  | noFolder (folder : String)
  | file (error : FileError)
  /-- The command failed, which the caller does not accept. -/
  | failed (reason : String) (result : CommandResult)

/-- The wording of a fault. -/
def RunFault.message : RunFault → String
  | .empty => "Empty command"
  | .noFolder folder => "Working directory does not exist: " ++ folder
  | .file error => error.message
  | .failed reason result => "'" ++ result.commandLine ++ "' failed: " ++ reason

/-- The state of a runner of commands. -/
structure Runner where
  config : RunnerConfig
  verbose : Bool
  /-- The answers of the commands to come. -/
  answers : List CommandAnswer
  history : List CommandResult
  launches : List Launch
  shown : List Shown

namespace Runner

/-- A runner that has launched nothing. -/
def start (config : RunnerConfig) (verbose : Bool) (answers : List CommandAnswer) : Runner :=
  ⟨config, verbose, answers, [], [], []⟩

/-- The answer of the next command, and the answers after it. -/
def nextAnswer : List CommandAnswer → CommandAnswer × List CommandAnswer
  | [] => (.finished 0 "" "", [])
  | answer :: rest => (answer, rest)

/-- The exit code of a program that could not be started. -/
def notStartedCode : Int := 127

/-- The result of a command, given its answer. -/
def resultOf (program : String) (words : List String) (folder : String) :
    CommandAnswer → CommandResult
  | .finished exitCode stdout stderr =>
    ⟨words, exitCode == 0, exitCode, stdout, stderr, Decimal.Binary64.ofInt 0, folder⟩
  | .notStarted reason =>
    ⟨words, false, notStartedCode, "", program ++ ": " ++ reason, Decimal.Binary64.ofInt 0, folder⟩

/-- The last line of a command's output that says why it failed. -/
def failureReason (result : CommandResult) : String :=
  let output := if result.stderr.isEmpty then result.stdout else result.stderr
  match (Text.linesOf (Text.trimmed output)).getLast? with
  | some line => line
  | none => "exit code " ++ Decimal.intText result.exitCode

/-- Launches a command in a folder that exists. -/
def launch (runner : Runner) (program : String) (words : List String) (folder : String) :
    CommandResult × Runner :=
  let shown :=
    if runner.verbose then [Shown.line ("  [dim]$ " ++ Markup.escape (Command.join words) ++ "[/dim]")]
    else []
  let (answer, rest) := nextAnswer runner.answers
  let result := resultOf program words folder answer
  (result, { runner with
    answers := rest
    history := runner.history ++ [result]
    launches := runner.launches ++ [⟨words, folder, runner.config.timeout⟩]
    shown := runner.shown ++ shown })

/-- Runs a command in the folder of a written path.  With `check` a command that fails is a fault. -/
def run (runner : Runner) (tree : Tree) (words : List String) (folder : String) (check : Bool) :
    Except RunFault CommandResult × Runner :=
  match words with
  | [] => (.error .empty, runner)
  | program :: _ =>
    match tree.isFolder (Path.ofText folder) with
    | .error error => (.error (.file error), runner)
    | .ok false => (.error (.noFolder folder), runner)
    | .ok true =>
      let (result, after) := runner.launch program words folder
      if check && !result.success then (.error (.failed (failureReason result) result), after)
      else (.ok result, after)

/-- The package manager for a project: the configured one, or the one its lock files show. -/
def packageManager (runner : Runner) (tree : Tree) (folder : Path) :
    Except FileError PackageManager :=
  match runner.config.packageManager with
  | some manager => .ok manager
  | none => PackageManager.detect tree folder

/-- Installs packages in a project. -/
def install (runner : Runner) (tree : Tree) (packages : List String) (folder : String)
    (dev check : Bool) : Except RunFault CommandResult × Runner :=
  match runner.packageManager tree (Path.ofText folder) with
  | .error error => (.error (.file error), runner)
  | .ok manager => runner.run tree (manager.installWords packages dev) folder check

end Runner

end Scaffold
