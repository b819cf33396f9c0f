import Scaffold.Host.Libraries
import Scaffold.Tree.Snapshot

/-!
# The program

The words of the command line say what to do.  One line of standard input is a JSON object with the files
that the program may see; every line of standard output is a JSON value: first what is shown, then the
launched commands, then the changed files.
-/

namespace Scaffold.Program

/-- The folder where relative paths start. -/
def home : Location := ["project"]

/-- The environment variables that are looked at. -/
def variableNames : List String :=
  ["NODE_ENV", "USER", "STACKFORGE_REGISTRY_DIR", "STACKFORGE_PROJECT_ROOT",
   "STACKFORGE_PACKAGE_MANAGER", "STACKFORGE_COMMAND_TIMEOUT", "STACKFORGE_SKIP_INSTALL",
   "STACKFORGE_CONTINUE_ON_FAILURE", "STACKFORGE_VERBOSE", "STACKFORGE_TIME"]

/-- The variables that are set. -/
def setVariables : List String → IO (List (String × String))
  | [] => return []
  | name :: rest => do
    let others ← setVariables rest
    match ← IO.getEnv name with
    | none => return others
    | some value => return (name, value) :: others

/-- The tree that a snapshot describes. -/
def treeOf? (snapshot : String) : Option Tree :=
  match Json.parse snapshot.toList with
  | .ok (.mapping entries) => some ((Tree.ofHome home).putSnapshot entries)
  | _ => none

/-- The world of a tree and variables.  Servers are out of reach, and every command succeeds. -/
def worldOf (tree : Tree) (environment : List (String × String)) : CommandLine.World where
  libraries := Host.libraries
  environment
  tree
  answers := []
  reply _ := .unreachable "no network"
  now := (environment.lookup "STACKFORGE_TIME").getD ""

/-- What is printed about an aftermath. -/
def report (before : Tree) (after : Workspace) : List Value :=
  let changed := before.changes after.tree home
  after.shown.map Shown.toValue ++ after.runner.launches.map Launch.toValue
    ++ [.record (changed.map fun (name, node) => (name, (node.map Node.toValue).getD .null))]

/-- What is printed as an error about an ending, and its exit code. -/
def verdict (ending : CommandLine.Ending) : String × UInt32 :=
  match ending with
  | .crash crash => (crash.message, 1)
  | _ => (ending.lastErrorLine, (ending.exitCode?.getD 0).toUInt32)

end Scaffold.Program

open Scaffold in
def main (words : List String) : IO UInt32 := do
  let snapshot ← (← IO.getStdin).getLine
  match Program.treeOf? snapshot with
  | none =>
    IO.eprintln "the snapshot of the files is no JSON object"
    return 1
  | some tree =>
    let world := Program.worldOf tree (← Program.setVariables Program.variableNames)
    let aftermath := CommandLine.run world words
    for line in Program.report tree aftermath.workspace do
      IO.println (Json.printAscii line)
    let (message, code) := Program.verdict aftermath.ending
    if !message.isEmpty then IO.eprintln message
    return code
