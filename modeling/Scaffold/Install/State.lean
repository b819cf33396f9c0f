import Scaffold.Config
import Scaffold.Install.Outcome
import Scaffold.Project.Context
import Scaffold.Registry.Basic
import Scaffold.Tree.Json

/-!
# Install state

A project remembers in a JSON file which modules are installed and what every installation did.  Entries
of the file that mean nothing here are kept.
-/

namespace Scaffold

/-- Why an installation cannot be remembered. -/
inductive StateFault where
  | file (error : FileError)
  | encoding (fault : Text.Utf8Fault)
  | longNumber (error : Json.ReadError) (text : String)
  /-- The modules are no mapping. -/
  | noModules
  /-- The history is no list. -/
  | noHistory
  /-- A parameter has no JSON form. -/
  | unwritable (fault : Json.WriteFault)

/-- The wording of a fault. -/
def StateFault.message : StateFault → String
  | .file error => error.message
  | .encoding fault => fault.message
  | .longNumber error text => error.message text.toList
  | .noModules => "the modules are no mapping"
  | .noHistory => "the history is no list"
  | .unwritable fault => fault.message

/-- What is remembered, as the entries of the state file. -/
structure InstallState where
  entries : Entries

namespace InstallState

/-- The key of the installed modules. -/
def modulesKey : Scalar := .text "modules"

/-- The key of the installations. -/
def historyKey : Scalar := .text "history"

/-- The state before the first installation. -/
def empty : InstallState := ⟨[(modulesKey, .mapping []), (historyKey, .list [])]⟩

/-- Adds an entry if there is none under its key. -/
def withDefault (entries : Entries) (key : Scalar) (value : Value) : Entries :=
  if Entries.has entries key then entries else entries ++ [(key, value)]

/-- The state that the entries of a file stand for. -/
def ofEntries (entries : Entries) : InstallState :=
  ⟨withDefault (withDefault entries modulesKey (.mapping [])) historyKey (.list [])⟩

/-- The state as data. -/
def toValue (state : InstallState) : Value := .mapping state.entries

/-- The warning about a file that is passed over. -/
def ignoring (file : Path) (reason : String) : List Shown :=
  [.warning ("Ignoring unreadable install state " ++ file.text ++ ": " ++ reason)]

/-- Why a file that cannot be read ends an installation; none if it is only passed over. -/
def fatal? : Tree.JsonReadFailure → Option StateFault
  | .unreadable (.encoding fault) => some (.encoding fault)
  | .unreadable (.file _) => none
  | .notJson error text =>
    match error.fault with
    | .tooManyDigits _ => some (.longNumber error text)
    | _ => none

/-- The state in a file, and what is shown while it is read.  A file that is missing or no JSON counts
as empty. -/
def load (tree : Tree) (file : Path) : Except StateFault InstallState × List Shown :=
  match tree.pathExists file with
  | .error error => (.error (.file error), [])
  | .ok false => (.ok empty, [])
  | .ok true =>
    match tree.loadJson file with
    | .ok entries => (.ok (ofEntries entries), [])
    | .error failure =>
      match fatal? failure with
      | some fault => (.error fault, [])
      | none => (.ok empty, ignoring file failure.message)

/-- What is remembered about an installed module. -/
def moduleRecord (now version : String) (report : Report) (values : Entries) : Value :=
  .record [("version", .text version), ("installed_at", .text now), ("files", .texts report.files),
    ("parameters", .mapping values)]

/-- The installed modules of a report, with what is remembered about them. -/
def installedRecords (now : String) (registry : Registry) (context : Context)
    (report : InstallReport) : List (String × Value) :=
  report.outcomes.filterMap fun (id, outcome) =>
    match outcome with
    | .ran result =>
      if result.isSuccess then
        let version := ((registry.get? id).map Module.version).getD ""
        some (id, moduleRecord now version result (context.supplied id))
      else none
    | _ => none

/-- What is remembered about an installation. -/
def historyRecord (now : String) (report : InstallReport) : Value :=
  .record [("timestamp", .text now), ("requested", .texts report.resolution.requested),
    ("order", .texts report.resolution.order), ("installed", .texts report.installed),
    ("failed", .texts report.failed), ("skipped", .texts report.skipped),
    ("errors", .texts report.errors)]

/-- Puts records of modules into a state. -/
def withModules (state : InstallState) (records : List (String × Value)) :
    Except StateFault InstallState :=
  if records.isEmpty then .ok state
  else
    match Entries.get? state.entries modulesKey with
    | some (.mapping known) =>
      let modules := Entries.overlay known (records.map fun (id, record) => (.text id, record))
      .ok ⟨Entries.insert state.entries modulesKey (.mapping modules)⟩
    | _ => .error .noModules

/-- Adds a record to the history of a state. -/
def withHistory (state : InstallState) (record : Value) : Except StateFault InstallState :=
  match Entries.get? state.entries historyKey with
  | some (.list records) =>
    .ok ⟨Entries.insert state.entries historyKey (.list (records ++ [record]))⟩
  | _ => .error .noHistory

/-- The state after an installation at a time. -/
def after (state : InstallState) (now : String) (registry : Registry) (context : Context)
    (report : InstallReport) : Except StateFault InstallState := do
  let installed ← state.withModules (installedRecords now registry context report)
  let recorded ← installed.withHistory (historyRecord now report)
  let named := Entries.insert recorded.entries (.text "project") (.text context.project.name)
  return ⟨Entries.insert named (.text "updated_at") (.text now)⟩

/-- Writes a state to a file. -/
def save (state : InstallState) (tree : Tree) (file : Path) : Except StateFault Unit × Tree :=
  let (answer, written) := tree.saveJson file state.toValue
  (answer.mapError fun failure =>
    match failure with
    | .file error => .file error
    | .unwritable fault => .unwritable fault,
   written)

end InstallState

end Scaffold
