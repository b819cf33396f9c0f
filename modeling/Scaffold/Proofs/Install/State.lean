import Scaffold.Install.Run
import Scaffold.Proofs.Install.Trace
import Scaffold.Proofs.Tree.Writing

/-!
# Remembering an installation

A state whose modules are a mapping and whose history is a list takes every installation in, and the state
after it can be written if the parameter values can.  Such a state is read from a file that is absent or
well formed.
-/

namespace Scaffold

namespace InstallState

/-- The modules are a mapping and the history is a list. -/
structure IsComplete (state : InstallState) : Prop where
  modules : ∃ known, Entries.get? state.entries modulesKey = some (.mapping known)
  history : ∃ records, Entries.get? state.entries historyKey = some (.list records)

/-- A state file is absent, or holds an object that stands for a complete state. -/
def IsUsable (tree : Tree) (file : Path) : Prop :=
  tree.pathExists file = .ok false
    ∨ ∃ entries, tree.loadJson file = .ok entries ∧ (ofEntries entries).IsComplete

variable {state : InstallState} {tree : Tree} {file : Path} {records : List (String × Value)}
  {registry : Registry} {context : Context} {report : InstallReport} {now : String}

/-- The records of modules as entries. -/
def keyed (records : List (String × Value)) : Entries := records.map fun (id, record) => (.text id, record)

/-- Entries with a history, the name of the project and a time. -/
def stamped (entries : Entries) (history : List Value) (name now : String) : Entries :=
  Entries.insert
    (Entries.insert (Entries.insert entries historyKey (.list history)) (.text "project") (.text name))
    (.text "updated_at") (.text now)

/-- Stamping entries leaves the modules. -/
theorem get?_stamped_modules (entries : Entries) (history : List Value) (name now : String) :
    Entries.get? (stamped entries history name now) modulesKey = Entries.get? entries modulesKey := by
  simp [stamped, modulesKey, historyKey, Entries.get?_insert]

/-- Stamped entries have the history. -/
theorem get?_stamped_history (entries : Entries) (history : List Value) (name now : String) :
    Entries.get? (stamped entries history name now) historyKey = some (.list history) := by
  simp [stamped, historyKey, Entries.get?_insert]

/-- What a state becomes when records of modules are put in. -/
inductive Registered (state : InstallState) (records : List (String × Value)) : InstallState → Prop where
  | kept (empty : records = []) : Registered state records state
  | added {known} (nonempty : records ≠ [])
      (found : Entries.get? state.entries modulesKey = some (.mapping known)) :
      Registered state records
        ⟨Entries.insert state.entries modulesKey (.mapping (Entries.overlay known (keyed records)))⟩

/-- Records of modules are taken in if there are none or the modules are a mapping. -/
theorem registered_withModules
    (takes : records = [] ∨ ∃ known, Entries.get? state.entries modulesKey = some (.mapping known)) :
    ∃ next, state.withModules records = .ok next ∧ Registered state records next := by
  unfold withModules
  split
  next empty => exact ⟨state, rfl, .kept (List.isEmpty_iff.mp empty)⟩
  next filled =>
    have nonempty : records ≠ [] := by simpa using filled
    obtain ⟨known, found⟩ := takes.resolve_left nonempty
    simp only [found]
    exact ⟨_, rfl, .added nonempty found⟩

/-- What they become is what they are registered as. -/
theorem registered_of_withModules {next : InstallState} (made : state.withModules records = .ok next) :
    Registered state records next := by
  unfold withModules at made
  split at made
  next empty => exact Except.ok.inj made ▸ .kept (List.isEmpty_iff.mp empty)
  next filled =>
    split at made
    next known found => exact Except.ok.inj made ▸ .added (by simpa using filled) found
    next => cases made

/-- They are refused if there are any and the modules are no mapping. -/
theorem withModules_eq_error (nonempty : records ≠ [])
    (other : ∀ known, Entries.get? state.entries modulesKey ≠ some (.mapping known)) :
    state.withModules records = .error .noModules := by
  unfold withModules
  rw [if_neg (by simpa using nonempty)]
  split
  next known found => exact absurd found (other known)
  next => rfl

namespace Registered

variable {next : InstallState} (registered : Registered state records next)

include registered

/-- Records of modules change no history. -/
theorem history : Entries.get? next.entries historyKey = Entries.get? state.entries historyKey := by
  cases registered with
  | kept => rfl
  | added => rw [modulesKey, historyKey, Entries.get?_insert, if_neg (by decide)]

/-- Records of modules are laid over those that are known. -/
theorem modules {known : Entries}
    (found : Entries.get? state.entries modulesKey = some (.mapping known)) :
    Entries.get? next.entries modulesKey = some (.mapping (Entries.overlay known (keyed records))) := by
  cases registered with
  | kept empty => simpa [empty, keyed] using found
  | added _ also =>
      obtain ⟨rfl⟩ := Option.some.inj (also.symm.trans found)
      rw [modulesKey, Entries.get?_insert, if_pos rfl]

end Registered

/-- The modules that are remembered are those that were installed. -/
theorem map_fst_installedRecords (now : String) (registry : Registry) (context : Context)
    (report : InstallReport) : (installedRecords now registry context report).map (·.1) = report.installed := by
  unfold installedRecords InstallReport.installed ModuleOutcomes.idsWhere
  induction report.outcomes with
  | nil => rfl
  | cons entry rest inductionHypothesis =>
      obtain ⟨id, outcome⟩ := entry
      cases outcome with
      | ran result =>
          by_cases success : result.isSuccess = true <;>
            simp [success, ModuleOutcome.isInstalled, inductionHypothesis]
      | _ => simp [ModuleOutcome.isInstalled, inductionHypothesis]

/-- No records are made just if no module was installed. -/
theorem installedRecords_eq_nil_iff :
    installedRecords now registry context report = [] ↔ report.installed = [] := by
  rw [← map_fst_installedRecords now registry context, List.map_eq_nil_iff]

/-- The records of an installation are taken in if no module was installed or the modules are a mapping. -/
theorem exists_withModules (now : String) (registry : Registry) (context : Context)
    (takes : report.installed = []
      ∨ ∃ known, Entries.get? state.entries modulesKey = some (.mapping known)) :
    ∃ next, Registered state (installedRecords now registry context report) next
      ∧ state.withModules (installedRecords now registry context report) = .ok next := by
  obtain ⟨next, made, registered⟩ := registered_withModules (takes.imp_left installedRecords_eq_nil_iff.mpr)
  exact ⟨next, registered, made⟩

/-- An installation is taken in where its modules and the history can be. -/
theorem exists_after {history : List Value} (now : String) (registry : Registry) (context : Context)
    (takes : report.installed = []
      ∨ ∃ known, Entries.get? state.entries modulesKey = some (.mapping known))
    (found : Entries.get? state.entries historyKey = some (.list history)) :
    ∃ installed, Registered state (installedRecords now registry context report) installed
      ∧ state.after now registry context report
        = .ok ⟨stamped installed.entries (history ++ [historyRecord now report]) context.project.name now⟩ := by
  obtain ⟨installed, registered, made⟩ := exists_withModules now registry context takes
  refine ⟨installed, registered, ?_⟩
  simp only [after, made, bind, Except.bind, withHistory, registered.history.trans found]
  rfl

/-- A state that took an installation in has its modules and a further record of the history. -/
theorem exists_of_after {next : InstallState} (made : state.after now registry context report = .ok next) :
    ∃ installed history, Registered state (installedRecords now registry context report) installed
      ∧ Entries.get? state.entries historyKey = some (.list history)
      ∧ next = ⟨stamped installed.entries (history ++ [historyRecord now report]) context.project.name now⟩ := by
  unfold after at made
  cases puts : state.withModules (installedRecords now registry context report) with
  | error fault => simp [puts, bind, Except.bind] at made
  | ok installed =>
      have registered := registered_of_withModules puts
      simp only [puts, bind, Except.bind, withHistory] at made
      split at made
      next => cases made
      next recorded adds =>
        split at adds
        next history found =>
          obtain rfl := Except.ok.inj adds
          exact ⟨installed, history, registered, registered.history.symm.trans found, (Except.ok.inj made).symm⟩
        next => cases adds

/-- A complete state takes an installation in. -/
theorem after_of_isComplete (now : String) (registry : Registry) (context : Context) (report : InstallReport)
    (complete : state.IsComplete) : ∃ next, state.after now registry context report = .ok next := by
  obtain ⟨history, found⟩ := complete.history
  obtain ⟨installed, _, made⟩ := exists_after now registry context (.inr complete.modules) found
  exact ⟨_, made⟩

/-! ## The parts of a state -/

section

variable {ofKey : Scalar → Prop} {holds : Value → Prop} (partwise : Json.Partwise ofKey holds)

include partwise

/-- Stamped entries have a property if the entries and the history have it. -/
theorem parts_stamped {entries : Entries} {history : List Value} (name now : String)
    (before : holds (.mapping entries)) (recorded : holds (.list history)) :
    holds (.mapping (stamped entries history name now)) :=
  partwise.insert
    (partwise.insert (partwise.insert before (partwise.name _) recorded) (partwise.name _) (partwise.text name))
    (partwise.name _) (partwise.text now)

/-- Records with a property are put into a state with that property. -/
theorem Registered.parts {next : InstallState} (registered : Registered state records next)
    (before : holds state.toValue) (recorded : ∀ record ∈ records, holds record.2) : holds next.toValue := by
  cases registered with
  | kept => exact before
  | added _ found =>
      refine partwise.insert before (partwise.name _)
        (partwise.overlay (partwise.of_get? before found) ((partwise.mapping_iff _).mpr fun entry member => ?_))
      obtain ⟨record, inside, rfl⟩ := List.mem_map.mp member
      exact ⟨partwise.name record.1, recorded record inside⟩

/-- What is remembered about a module has a property just if its parameter values have it. -/
theorem parts_moduleRecord {version : String} {result : Report} {values : Entries} :
    holds (moduleRecord now version result values) ↔ holds (.mapping values) := by
  constructor
  · intro recorded
    exact partwise.of_get? recorded (rfl : Entries.get? _ (.text "parameters") = some (.mapping values))
  · intro given
    refine partwise.record (List.forall_mem_cons.mpr ⟨partwise.text version, List.forall_mem_cons.mpr
      ⟨partwise.text now, List.forall_mem_cons.mpr ⟨partwise.texts result.files, ?_⟩⟩⟩)
    exact List.forall_mem_singleton.mpr given

/-- Records have a property if the parameter values of the installed modules have it. -/
theorem parts_installedRecords (given : ∀ id ∈ report.installed, holds (.mapping (context.supplied id)))
    {record : String × Value} (member : record ∈ installedRecords now registry context report) :
    holds record.2 := by
  have inside : record.1 ∈ report.installed := by
    rw [← map_fst_installedRecords now registry context]
    exact List.mem_map_of_mem member
  obtain ⟨⟨id, outcome⟩, _, made⟩ := List.mem_filterMap.mp member
  cases outcome with
  | ran result =>
      dsimp only at made
      split at made
      · obtain rfl := Option.some.inj made
        exact (parts_moduleRecord partwise).mpr (given id inside)
      · cases made
  | _ => cases made

/-- What is remembered about an installation has a property that texts have. -/
theorem parts_historyRecord (now : String) (report : InstallReport) : holds (historyRecord now report) := by
  refine partwise.record ?_
  simp only [List.forall_mem_cons]
  exact ⟨partwise.text now, partwise.texts _, partwise.texts _, partwise.texts _, partwise.texts _,
    partwise.texts _, partwise.texts _, List.forall_mem_nil _⟩

/-- A state that took an installation in has a property if it had it before and the parameter values of the
installed modules have it. -/
theorem parts_after {next : InstallState} (made : state.after now registry context report = .ok next)
    (before : holds state.toValue) (given : ∀ id ∈ report.installed, holds (.mapping (context.supplied id))) :
    holds next.toValue := by
  obtain ⟨installed, history, registered, found, rfl⟩ := exists_of_after made
  refine parts_stamped partwise _ _
    (registered.parts partwise before fun _ => parts_installedRecords partwise given) ?_
  exact (partwise.list_iff _).mpr (List.forall_mem_append.mpr
    ⟨(partwise.list_iff _).mp (partwise.of_get? before found),
      List.forall_mem_singleton.mpr (parts_historyRecord partwise now report)⟩)

end

/-! ## Loading -/

/-- A default entry that reading can give leaves an object that reading can give. -/
theorem isReading_withDefault {entries : Entries} {name : String} {value : Value}
    (reading : Json.IsReading (.mapping entries)) (default : Json.IsReading value) :
    Json.IsReading (.mapping (withDefault entries (.text name) value)) := by
  unfold withDefault
  split
  next => exact reading
  next lacks =>
    have none : Entries.get? entries (.text name) = none := by simpa [Entries.has] using lacks
    rw [← Entries.insert_of_notMem (Entries.get?_eq_none_iff.mp none)]
    exact reading.insert trivial default

/-- Reading can give the state that its entries stand for. -/
theorem isReading_ofEntries {entries : Entries} (reading : Json.IsReading (.mapping entries)) :
    Json.IsReading (ofEntries entries).toValue :=
  isReading_withDefault (isReading_withDefault reading .empty) (.list (List.forall_mem_nil _))

/-- Reading gives the object that is read from a file. -/
theorem isReading_of_loadJson {entries : Entries} (loaded : tree.loadJson file = .ok entries) :
    Json.IsReading (.mapping entries) := by
  obtain ⟨text, _, parsed | ⟨value, rfl, parsed⟩⟩ := Tree.loadJson_eq_ok loaded
  · exact Json.isReading_of_parse parsed
  · exact Json.IsReading.empty.insert trivial (Json.isReading_of_parse parsed)

/-- A document can hold the first state. -/
theorem isDocument_empty : Json.IsDocument empty.toValue :=
  (isReading_ofEntries .empty).isDocument (by rfl)

/-- Reading can give whatever state is loaded. -/
theorem isReading_load (loaded : (load tree file).1 = .ok state) : Json.IsReading state.toValue := by
  have first : Json.IsReading empty.toValue := isReading_ofEntries .empty
  unfold load at loaded
  split at loaded
  next => cases loaded
  next => exact Except.ok.inj loaded ▸ first
  next =>
    split at loaded
    next entries read => exact Except.ok.inj loaded ▸ isReading_ofEntries (isReading_of_loadJson read)
    next =>
      split at loaded
      next => cases loaded
      next => exact Except.ok.inj loaded ▸ first

/-- A file that is absent counts as the state before the first installation. -/
theorem load_of_absent (absent : tree.pathExists file = .ok false) : (load tree file).1 = .ok empty := by
  rw [load, absent]

/-- From a usable file a complete state is loaded. -/
theorem load_of_isUsable (usable : IsUsable tree file) :
    ∃ state, (load tree file).1 = .ok state ∧ state.IsComplete := by
  unfold load
  rcases usable with absent | ⟨entries, loaded, complete⟩
  · rw [absent]
    exact ⟨empty, rfl, ⟨⟨[], by rfl⟩, ⟨[], by rfl⟩⟩⟩
  · obtain ⟨content, found⟩ := Tree.look_of_loadJson loaded
    have present : tree.pathExists file = .ok true := by simp [Tree.pathExists, Tree.test, found]
    rw [present, loaded]
    exact ⟨_, rfl, complete⟩

/-- What is known of a state file depends on what its path leads to and on nothing else. -/
theorem reads_congr {other : Tree} (same : other.look file = tree.look file) :
    other.pathExists file = tree.pathExists file ∧ other.loadJson file = tree.loadJson file := by
  constructor
  · simp only [Tree.pathExists, Tree.test, same]
  · simp only [Tree.loadJson, Tree.readText, Tree.read, same]

/-- So does whether the file is usable. -/
theorem IsUsable.congr {other : Tree} (usable : IsUsable tree file)
    (same : other.look file = tree.look file) : IsUsable other file := by
  unfold IsUsable
  rwa [(reads_congr same).1, (reads_congr same).2]

/-- So does the state that is loaded. -/
theorem load_congr {other : Tree} (same : other.look file = tree.look file) :
    load other file = load tree file := by
  unfold load
  rw [(reads_congr same).1, (reads_congr same).2]

/-! ## The state of a content -/

variable {content : ByteArray} {entries : Entries}

/-- A content is the text of an object. -/
def HoldsObject (content : ByteArray) (entries : Entries) : Prop :=
  ∃ text, Text.decode content = .ok text
    ∧ Json.parse (Text.unifyLineEnds text.toList) = .ok (.mapping entries)

/-- The state that a file of some content stands for. -/
def ofContent (content : ByteArray) : Except StateFault InstallState :=
  match Text.decode content with
  | .error fault => .error (.encoding fault)
  | .ok text =>
    match Json.parse (Text.unifyLineEnds text.toList) with
    | .ok (.mapping entries) => .ok (ofEntries entries)
    | .ok value => .ok (ofEntries [(Tree.rootKey, value)])
    | .error error =>
      match error.fault with
      | .tooManyDigits _ => .error (.longNumber error (String.ofList (Text.unifyLineEnds text.toList)))
      | _ => .ok empty

/-- An object stands for the state of its entries. -/
theorem ofContent_of_holds (holds : HoldsObject content entries) :
    ofContent content = .ok (ofEntries entries) := by
  obtain ⟨text, decoded, parsed⟩ := holds
  simp only [ofContent, decoded, parsed]

/-- A content holds one object at most. -/
theorem HoldsObject.unique {other : Entries} (first : HoldsObject content entries)
    (second : HoldsObject content other) : entries = other := by
  obtain ⟨text, decoded, parsed⟩ := first
  obtain ⟨again, decodedAgain, parsedAgain⟩ := second
  obtain rfl := Except.ok.inj (decoded.symm.trans decodedAgain)
  exact Value.mapping.inj (Except.ok.inj (parsed.symm.trans parsedAgain))

end InstallState

namespace Install

variable {config : Config} {registry : Registry} {now : String} {report : InstallReport}
  {session : Session}

/-- The path of the state file has a last part. -/
theorem parts_statePath_ne_nil (config : Config) : config.statePath.parts ≠ [] := by
  have last : Path.ofText "install-state.json" = ⟨.relative, ["install-state.json"]⟩ := by decide
  rw [Config.statePath, Path.child, last]
  simp [Path.join, Path.isAbsolute]

/-- The state that is to be remembered of an installation. -/
def nextState (config : Config) (now : String) (registry : Registry) (report : InstallReport)
    (session : Session) : Except StateFault InstallState :=
  (InstallState.load session.workspace.tree config.statePath).1.bind fun state =>
    state.after now registry session.context report

/-- Such a state is made from the one that is loaded. -/
theorem nextState_eq_ok_iff {next : InstallState} :
    nextState config now registry report session = .ok next
      ↔ ∃ state, (InstallState.load session.workspace.tree config.statePath).1 = .ok state
        ∧ state.after now registry session.context report = .ok next := by
  unfold nextState
  cases (InstallState.load session.workspace.tree config.statePath).1 with
  | error fault => simp [Except.bind]
  | ok state => simp [Except.bind]

/-- Remembering writes this state. -/
theorem remember_of_nextState {next : InstallState}
    (made : nextState config now registry report session = .ok next) :
    (remember config now registry report session).1
        = (next.save session.workspace.tree config.statePath).1
      ∧ (remember config now registry report session).2.workspace.tree
        = (next.save session.workspace.tree config.statePath).2 := by
  unfold nextState at made
  simp only [remember, Session.tell, made, and_self]

/-- An installation of which no state is to be remembered is not remembered. -/
theorem remember_of_error {fault : StateFault}
    (failed : nextState config now registry report session = .error fault) :
    (remember config now registry report session).1 = .error fault
      ∧ (remember config now registry report session).2.workspace.tree = session.workspace.tree := by
  unfold nextState at failed
  simp only [remember, Session.tell, Workspace.tell, failed, and_self]

/-- Remembering an installation saves a value as the state, or leaves the files. -/
theorem tree_remember (config : Config) (now : String) (registry : Registry) (report : InstallReport)
    (session : Session) :
    (remember config now registry report session).2.workspace.tree = session.workspace.tree
      ∨ ∃ value, (remember config now registry report session).2.workspace.tree
          = (session.workspace.tree.saveJson config.statePath value).2 := by
  cases made : nextState config now registry report session with
  | error fault => exact .inl (remember_of_error made).2
  | ok next => exact .inr ⟨next.toValue, (remember_of_nextState made).2⟩

/-- Where there is no state file, nothing is kept of one, and no lone half if the parameter values have none. -/
theorem whole_of_absent {next : InstallState}
    (absent : session.workspace.tree.pathExists config.statePath = .ok false) (held : session.context.HoldsJson)
    (made : nextState config now registry report session = .ok next) : next.toValue.half? = none := by
  obtain ⟨state, loaded, takes⟩ := nextState_eq_ok_iff.mp made
  rw [InstallState.load_of_absent absent] at loaded
  refine InstallState.parts_after .half takes ?_ fun id _ => (held id).whole
  rw [← Except.ok.inj loaded]
  rfl

/-- An installation is remembered if the state file is usable, it can be saved in case it is absent, the
parameter values have a JSON form, and nothing that is kept of the state has a lone half. -/
theorem remember_of_isUsable
    (usable : InstallState.IsUsable session.workspace.tree config.statePath)
    (savable : session.workspace.tree.pathExists config.statePath = .ok false →
      session.workspace.tree.IsWritable config.statePath)
    (held : session.context.HoldsJson)
    (whole : ∀ next, nextState config now registry report session = .ok next → next.toValue.half? = none) :
    (remember config now registry report session).1 = .ok () := by
  obtain ⟨state, loaded, complete⟩ := InstallState.load_of_isUsable usable
  obtain ⟨next, takes⟩ := InstallState.after_of_isComplete now registry session.context report complete
  have made : nextState config now registry report session = .ok next :=
    nextState_eq_ok_iff.mpr ⟨state, loaded, takes⟩
  have isWritable : session.workspace.tree.IsWritable config.statePath := by
    rcases usable with absent | ⟨entries, read, _⟩
    · exact savable absent
    · obtain ⟨content, found⟩ := Tree.look_of_loadJson read
      exact Tree.isWritable_of_look found (parts_statePath_ne_nil config)
  have writable : Json.writeFault? true next.toValue = none :=
    InstallState.parts_after (.writeFault true) takes (InstallState.isReading_load loaded).writeFault? fun id _ =>
      (held id).writable
  have saved := Tree.saveJson_of_isWritable isWritable ⟨writable, whole next made⟩
  rw [(remember_of_nextState made).1]
  simp only [InstallState.save, saved, Except.mapError]

end Install

end Scaffold
