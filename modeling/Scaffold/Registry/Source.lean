import Scaffold.Registry.Basic
import Scaffold.Tree.Resolve
import Scaffold.Module.Manifest
import Scaffold.Tree.Basic
import Scaffold.Json.Reader
import Scaffold.Document

/-!
# Sources of registries

A folder of manifests, at any depth, is a registry.  The files are read in the order of their paths, so
that the same folder always gives the same registry.  An index is one document with many manifests, as a
list or under the key `modules`.  It may be fetched from a server.

A `RegistryFault` is about a source that gives no registry and is reported to people; a `LoadFault` may
also lie outside of it, in the files or in a value that a document names.
-/

namespace Scaffold

/-- What is wrong with a source of modules. -/
inductive RegistryFault where
  | noFolder (path : Path)
  /-- A manifest file that is no document. -/
  | malformed (file : Path) (reason : String)
  | manifest (source : String) (fault : ManifestFault)
  /-- An index that is no document. -/
  | noIndex (source reason : String)
  /-- An index without a list of modules. -/
  | noModules (source : String)
  /-- A server that answers with a status which is no success. -/
  | status (address : String) (code : Int)
  | unreachable (address reason : String)

/-- The wording of a fault. -/
def RegistryFault.message : RegistryFault → String
  | .noFolder path => "Registry directory not found: " ++ path.text
  | .malformed file reason => file.text ++ ": invalid YAML (" ++ reason ++ ")"
  | .manifest source fault => source ++ ": " ++ fault.message
  | .noIndex source reason => source ++ ": index is neither JSON nor YAML (" ++ reason ++ ")"
  | .noModules source => source ++ ": index must be a list of modules or contain a 'modules' list"
  | .status address code => address ++ ": HTTP " ++ Decimal.intText code
  | .unreachable address reason => address ++ ": " ++ reason

/-- Why a registry cannot be loaded. -/
inductive LoadFault where
  | registry (fault : RegistryFault)
  | unreadable (failure : Tree.ReadFailure)
  /-- The reading of a document goes wrong otherwise than by the document being none. -/
  | document (fault : DocumentFault)
  | longNumber (fault : Json.Fault)
  /-- A request that could not be made. -/
  | noRequest (reason : String)

/-- The wording of a fault. -/
def LoadFault.message : LoadFault → String
  | .registry fault => fault.message
  | .unreadable failure => failure.message
  | .document fault => fault.message
  | .longNumber fault => fault.message
  | .noRequest reason => reason

/-- The fault of a document.  That a text is no document is a fault of its source. -/
def LoadFault.ofDocument (malformed : String → RegistryFault) : DocumentFault → LoadFault
  | .malformed reason => .registry (malformed reason)
  | fault => .document fault

end Scaffold

namespace Scaffold.Registry

variable (documents : Documents) (schema : Schema)

/-! ## Folders -/

/-- Whether a file is a manifest by its name. -/
def isManifest (path : Path) : Bool := [".yaml", ".yml"].contains path.suffix

/-- Whether a list of names comes before another, name by name; a folder comes before what is in it. -/
def namesBefore : List String → List String → Bool
  | [], _ => true
  | _ :: _, [] => false
  | first :: rest, second :: others =>
    if first == second then namesBefore rest others else decide (first < second)

/-- The manifests below a folder at a location, in order; each is a list of names. -/
def manifestNames (tree : Tree) (folder : Location) : List (List String) :=
  let names := (tree.descendants folder).map (·.1)
  (names.filter fun parts => isManifest ⟨.relative, parts⟩).mergeSort namesBefore

/-- Reads a manifest file.  The module remembers where the folder of the file really is. -/
def readManifest (tree : Tree) (file : Path) : Except LoadFault Module := do
  let text ← (tree.readText file).mapError .unreadable
  let data ← (documents text).mapError (LoadFault.ofDocument (.malformed file))
  let folder := (tree.resolve file.parent).toOption.map Tree.pathOf
  (Module.ofManifest schema data folder).mapError fun fault => .registry (.manifest file.text fault)

/-- Reads manifest files and registers their modules one by one.  What was shown before a fault stays
shown. -/
def readManifests (tree : Tree) (registry : Registry) :
    List Path → Except LoadFault Registry × List Shown
  | [] => (.ok registry, [])
  | file :: rest =>
    match readManifest documents schema tree file with
    | .error fault => (.error fault, [])
    | .ok descriptor =>
      let (answer, shown) := readManifests tree (registry.register descriptor) rest
      (answer, registry.notice descriptor ++ shown)

/-- The manifest files of a folder, in order. -/
def manifestFiles (tree : Tree) (folder : Path) : Except LoadFault (List Path) := do
  let isFolder ← (tree.isFolder folder).mapError fun error => .unreadable (.file error)
  match isFolder, tree.locate true folder with
  | true, .ok location =>
    return (manifestNames tree location).map fun parts => ⟨folder.root, folder.parts ++ parts⟩
  | _, _ => throw (.registry (.noFolder folder))

/-- The registry of a folder, and what is shown while it is read. -/
def ofFolder (tree : Tree) (folder : Path) : Except LoadFault Registry × List Shown :=
  match manifestFiles tree folder with
  | .error fault => (.error fault, [])
  | .ok files => readManifests documents schema tree empty files

/-! ## Indices -/

/-- The value of an index: JSON, or else any other document. -/
def indexValue (text source : String) : Except LoadFault Value :=
  match Json.parse text.toList with
  | .ok value => .ok value
  | .error error =>
    match error.fault with
    | .tooManyDigits count => .error (.longNumber (.tooManyDigits count))
    | _ => (documents text).mapError (LoadFault.ofDocument (.noIndex source))

/-- The manifests of an index. -/
def indexItems (source : String) : Value → Except LoadFault (List Value)
  | .list items => .ok items
  | .mapping entries =>
    match Entries.field? entries "modules" with
    | some (.list items) => .ok items
    | _ => .error (.registry (.noModules source))
  | _ => .error (.registry (.noModules source))

/-- The source of a manifest in an index. -/
def itemSource (source : String) (position : Nat) : String :=
  source ++ "[" ++ Decimal.intText position ++ "]"

/-- The modules of an index. -/
def readIndex (text source : String) : Except LoadFault (List Module) := do
  let items ← indexItems source (← indexValue documents text source)
  items.zipIdx.mapM fun (data, position) =>
    (Module.ofManifest schema data none).mapError fun fault =>
      .registry (.manifest (itemSource source position) fault)

/-- What a server answers when it is asked for an index. -/
inductive IndexReply where
  | page (status : Int) (body : String)
  | unreachable (reason : String)
  /-- The request could not be made. -/
  | noRequest (reason : String)
  deriving DecidableEq, Repr

/-- Whether a status is a success. -/
def isSuccessStatus (status : Int) : Bool := 200 ≤ status && status ≤ 299

/-- The registry of an index at an address, and what is shown while it is filled. -/
def ofReply (address : String) (reply : IndexReply) : Except LoadFault Registry × List Shown :=
  match reply with
  | .unreachable reason => (.error (.registry (.unreachable address reason)), [])
  | .noRequest reason => (.error (.noRequest reason), [])
  | .page status body =>
    if isSuccessStatus status then
      match readIndex documents schema body address with
      | .error fault => (.error fault, [])
      | .ok modules =>
        let (registry, shown) := empty.registerAll modules
        (.ok registry, shown)
    else (.error (.registry (.status address status)), [])

end Scaffold.Registry
