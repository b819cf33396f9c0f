import Scaffold.Proofs.Execution.Containment
import Scaffold.Proofs.Install.Result
import Scaffold.Proofs.Merge.Structured
import Scaffold.Proofs.Tree.Retaining

/-!
# What is in the state file

The state that an installation saves is the one that the next installation loads, as it settles in JSON
(`load_of_printed`).  Where templates write nothing, installations retain the project's files
(`retains_carriedOut`), so a state file that is there can be saved again, just if the state has a JSON form
(`remember_of_form`); and it has one, without lone halves in the file, just if the values of the modules that were
installed have one (`parts_after_iff`).
-/

namespace Scaffold.Tree

/-! ## Objects in files -/

open Json

variable {tree : Tree} {path : Path} {entries : Entries} {content : ByteArray}

/-- An object with a JSON form is saved where a file can be, and is what the path leads to. -/
theorem WellFormed.look_saveJson (wellFormed : tree.WellFormed) (writable : tree.IsWritable path)
    (form : HasForm true (.mapping entries)) :
    (tree.saveJson path (.mapping entries)).2.look path = .ok (.file (printed entries).toUTF8) := by
  obtain ⟨grown, made, saves⟩ := writable
  obtain ⟨written, saved⟩ := saves (printed entries).toUTF8
  have formed := (wellFormed.makeFolders path.parent).wellFormed
  rw [made] at formed
  obtain ⟨location, _, located, stands, _⟩ := WellFormed.write formed saved
  have files : (tree.saveJson path (.mapping entries)).2 = written := by
    unfold printed at saved
    simp only [Tree.saveJson, made, form.write_eq]
    rw [saved]
  rw [files]
  exact look_eq_ok_iff.mpr ⟨location, located, stands⟩

/-- A file with the text of an object is loaded as the object settles. -/
theorem loadJson_of_printed (found : tree.look path = .ok (.file (printed entries).toUTF8))
    (form : HasForm true (.mapping entries)) :
    tree.loadJson path = .ok (Entries.ofPairs (settledEntries entries)) := by
  have read := readText_of_file found (notMem_printed entries)
  simp only [loadJson, read, Except.mapError, bind, Except.bind, parse_printed form.writable]
  rfl

end Scaffold.Tree

namespace Scaffold

/-- A module that is installed has a blueprint that ran without errors. -/
theorem InstallReport.mem_installed_iff {report : InstallReport} {id : String} :
    id ∈ report.installed
      ↔ ∃ result, (id, .ran result) ∈ report.outcomes ∧ result.isSuccess = true := by
  rw [InstallReport.installed, ModuleOutcomes.mem_idsWhere]
  constructor
  · rintro ⟨outcome, present, isInstalled⟩
    cases outcome with
    | ran result => exact ⟨result, present, isInstalled⟩
    | _ => cases isInstalled
  · rintro ⟨result, present, success⟩
    exact ⟨.ran result, present, success⟩

namespace InstallState

variable {state next : InstallState} {tree : Tree} {file : Path} {records : List (String × Value)}

/-- A state with modules and with a history is what its entries stand for. -/
theorem ofEntries_eq {entries : Entries} (modules : Entries.get? entries modulesKey ≠ none)
    (history : Entries.get? entries historyKey ≠ none) : ofEntries entries = ⟨entries⟩ := by
  have hasModules : entries.has modulesKey = true := Option.isSome_iff_ne_none.mpr modules
  have hasHistory : entries.has historyKey = true := Option.isSome_iff_ne_none.mpr history
  simp only [ofEntries, withDefault, hasModules, hasHistory, if_true]

/-- A state as it is read after it was saved. -/
def settled (state : InstallState) : InstallState :=
  ⟨Entries.ofPairs (Json.settledEntries state.entries)⟩

/-- A state that is saved is loaded as it settles. -/
theorem load_of_printed {entries : Entries} (found : tree.look file = .ok (.file (printed entries).toUTF8))
    (form : Json.HasForm true (.mapping entries)) (named : entries.Named)
    (modules : Entries.get? entries modulesKey ≠ none) (history : Entries.get? entries historyKey ≠ none) :
    (load tree file).1 = .ok (settled ⟨entries⟩) := by
  have loaded := Tree.loadJson_of_printed found form
  have present : tree.pathExists file = .ok true := by simp [Tree.pathExists, Tree.test, found]
  have modules' : Entries.get? (settled ⟨entries⟩).entries modulesKey ≠ none := by
    rw [settled, modulesKey, Json.get?_settledEntries named]
    simpa [modulesKey] using modules
  have history' : Entries.get? (settled ⟨entries⟩).entries historyKey ≠ none := by
    rw [settled, historyKey, Json.get?_settledEntries named]
    simpa [historyKey] using history
  unfold load
  rw [present, loaded]
  exact congrArg Except.ok (ofEntries_eq modules' history')

/-- A state with a JSON form is saved where a file can be, and is what the path leads to. -/
theorem save_eq_ok (state : InstallState) (wellFormed : tree.WellFormed) (writable : tree.IsWritable file)
    (form : Json.HasForm true state.toValue) :
    (state.save tree file).1 = .ok ()
      ∧ (state.save tree file).2.look file = .ok (.file (printed state.entries).toUTF8) := by
  constructor
  · simp only [save, Tree.saveJson_of_isWritable writable form, Except.mapError]
  · exact wellFormed.look_saveJson writable form

/-! ## The records of modules -/

variable {registry : Registry} {context : Context} {report : InstallReport} {now id : String}

/-- The keys of records are their ids. -/
theorem keys_keyed (records : List (String × Value)) :
    (keyed records).keys = (records.map (·.1)).map Scalar.text := by
  simp [keyed, Entries.keys, Function.comp_def]

/-- Records of modules with distinct ids have distinct keys. -/
theorem named_keyed (distinct : (report.outcomes.map (·.1)).Nodup) :
    (keyed (installedRecords now registry context report)).Named := by
  have ids : report.installed.Nodup := distinct.sublist ((List.filter_sublist).map _)
  refine ⟨fun key member => ?_, ?_⟩
  · rw [keys_keyed, List.mem_map] at member
    obtain ⟨name, _, rfl⟩ := member
    exact ⟨name, rfl⟩
  · rw [keys_keyed, map_fst_installedRecords]
    exact ids.map fun first second same => Scalar.text.inj same

/-- Under the id of an installed module stands the record of its blueprint. -/
theorem get?_overlay_of_ran {result : Report} (known : Entries)
    (distinct : (report.outcomes.map (·.1)).Nodup) (present : (id, .ran result) ∈ report.outcomes)
    (success : result.isSuccess = true) :
    Entries.get? (Entries.overlay known (keyed (installedRecords now registry context report))) (.text id)
      = some (moduleRecord now (((registry.get? id).map Module.version).getD "") result
          (context.supplied id)) := by
  have named : (keyed (installedRecords now registry context report)).Named := named_keyed distinct
  have member : (id, moduleRecord now (((registry.get? id).map Module.version).getD "") result
      (context.supplied id)) ∈ installedRecords now registry context report :=
    List.mem_filterMap.mpr ⟨_, present, by simp [success]⟩
  rw [named.get?_overlay, named.get?_eq_some_iff.mpr (List.mem_map.mpr ⟨_, member, rfl⟩), Option.some_or]

/-- Under other ids stands what was known. -/
theorem get?_overlay_of_notMem (known : Entries) (distinct : (report.outcomes.map (·.1)).Nodup)
    (absent : id ∉ report.installed) :
    Entries.get? (Entries.overlay known (keyed (installedRecords now registry context report))) (.text id)
      = Entries.get? known (.text id) := by
  have named : (keyed (installedRecords now registry context report)).Named := named_keyed distinct
  have none : Entries.get? (keyed (installedRecords now registry context report)) (.text id) = none := by
    rw [Entries.get?_eq_none_iff, keys_keyed, map_fst_installedRecords]
    simpa using absent
  rw [named.get?_overlay, none, Option.none_or]

/-- A state that had a property has it after an installation just if the parameter values of the installed modules
have it. -/
theorem parts_after_iff {ofKey : Scalar → Prop} {holds : Value → Prop} (partwise : Json.Partwise ofKey holds)
    (made : state.after now registry context report = .ok next) (distinct : (report.outcomes.map (·.1)).Nodup)
    (before : holds state.toValue) :
    holds next.toValue ↔ ∀ id ∈ report.installed, holds (.mapping (context.supplied id)) := by
  refine ⟨fun after id member => ?_, parts_after partwise made before⟩
  obtain ⟨installed, history, registered, _, rfl⟩ := exists_of_after made
  obtain ⟨result, present, success⟩ := InstallReport.mem_installed_iff.mp member
  cases registered with
  | kept empty =>
      rw [installedRecords_eq_nil_iff.mp empty] at member
      cases member
  | @added known _ _ =>
      have modules := get?_stamped_modules
        (Entries.insert state.entries modulesKey (.mapping (Entries.overlay known
          (keyed (installedRecords now registry context report)))))
        (history ++ [historyRecord now report]) context.project.name now
      rw [modulesKey, Entries.get?_insert, if_pos rfl] at modules
      have overlaid := partwise.of_get? after modules
      exact (parts_moduleRecord partwise).mp
        (partwise.of_get? overlaid (get?_overlay_of_ran known distinct present success))

/-- A state without lone halves has distinct texts as keys after an installation, if it was loaded before. -/
theorem named_of_after (made : state.after now registry context report = .ok next)
    (reading : Json.IsReading state.toValue) (whole : next.toValue.half? = none) : next.entries.Named := by
  have insert {entries : Entries} {name : String} {value : Value}
      (before : entries.KeysDiffer ∧ ∀ key ∈ entries.keys, key.IsName) :
      (entries.insert (.text name) value).KeysDiffer
        ∧ ∀ key ∈ (entries.insert (.text name) value).keys, key.IsName := by
    refine ⟨before.1.insert, fun key member => ?_⟩
    rcases Entries.mem_or_eq_of_mem_keys_insert member with known | rfl
    · exact before.2 key known
    · trivial
  obtain ⟨installed, history, registered, _, rfl⟩ := exists_of_after made
  have names : installed.entries.KeysDiffer ∧ ∀ key ∈ installed.entries.keys, key.IsName := by
    cases reading with
    | mapping differ names =>
        cases registered with
        | kept => exact ⟨differ, names⟩
        | added => exact insert ⟨differ, names⟩
  obtain ⟨differ, names⟩ := insert (insert (insert names))
  exact Json.IsReading.named_of_half? differ names whole

end InstallState

namespace Install

open InstallState

variable {config : Config} {registry : Registry} {requested : List String}
  {values : List (String × Entries)} {done outcomes : ModuleOutcomes} {descriptor : Module}
  {modules : List Module} {session after : Session} {outcome : ModuleOutcome} {report : InstallReport}
  {now : String}

/-! ## What installations retain -/

/-- A session goes on with the blueprint of a module. -/
theorem continues_runModule (config : Config) (descriptor : Module) (supplied : Entries) (session : Session) :
    session.workspace.Continues (runModule config descriptor supplied session).2.workspace :=
  (session.workspace.continues_tell _).trans (Execution.continues_run ..)

/-- A session goes on with a step. -/
theorem Step.continues (step : Step config values done descriptor session outcome after) :
    session.workspace.Continues after.workspace := by
  cases step with
  | blocked => exact .refl _
  | incomplete => exact .refl _
  | ran => exact continues_runModule ..

/-- Installing a module retains the project's files. -/
theorem Step.retains (step : Step config values done descriptor session outcome after)
    (writes : session.workspace.renderings.WriteNothing) (wellFormed : session.workspace.tree.WellFormed) :
    session.workspace.tree.Retains after.workspace.tree := by
  cases step with
  | blocked => exact .refl wellFormed
  | incomplete => exact .refl wellFormed
  | ran =>
      have told : (session.workspace.tell
        (Shown.sectionHeading ("Installing " ++ descriptor.displayName))).tree.WellFormed := wellFormed
      exact Execution.retains_run told writes _ _ _

/-- So does a run of modules. -/
theorem Runs.retains (runs : Runs config values done session modules outcomes after)
    (writes : session.workspace.renderings.WriteNothing) (wellFormed : session.workspace.tree.WellFormed) :
    session.workspace.tree.Retains after.workspace.tree := by
  induction runs with
  | finished => exact .refl wellFormed
  | goesOn step continues onward inductionHypothesis =>
      have first := step.retains writes wellFormed
      exact first.trans (inductionHypothesis (writes.of_leaves step.continues.left) first.wellFormed)
  | ends step failed stops => exact step.retains writes wellFormed

/-- So do the blueprints of an installation. -/
theorem retains_carriedOut (config : Config) (registry : Registry) (requested : List String)
    (values : List (String × Entries)) (writes : session.workspace.renderings.WriteNothing)
    (wellFormed : session.workspace.tree.WellFormed) :
    session.workspace.tree.Retains
      (carriedOut config registry requested values session).2.workspace.tree :=
  (runs_installEach config values [] (opened registry requested session)
    (registry.ordered requested)).retains writes wellFormed

/-- The outcomes of a request that is resolved are those of its modules, in order. -/
theorem map_fst_reported (ok : (registry.resolve requested).isOk = true) :
    (reported config registry requested values session).outcomes.map (·.1)
      = (registry.resolve requested).order := by
  obtain ⟨_, registered, _⟩ := Registry.order_of_isOk ok
  have runs := runs_installEach config values [] (opened registry requested session)
    (registry.ordered requested)
  rw [reported, carriedOut, runs.map_fst, Registry.ordered, Registry.map_id_filterMap_get? registered]
  rfl

/-- Every module of a request that is resolved has one outcome. -/
theorem nodup_reported (ok : (registry.resolve requested).isOk = true) :
    ((reported config registry requested values session).outcomes.map (·.1)).Nodup := by
  rw [map_fst_reported ok]
  exact (Registry.order_of_isOk ok).1

/-! ## Remembering -/

/-- Remembering an installation retains the project's files. -/
theorem retains_remember (config : Config) (now : String) (registry : Registry) (report : InstallReport)
    (wellFormed : session.workspace.tree.WellFormed) :
    session.workspace.tree.Retains (remember config now registry report session).2.workspace.tree := by
  rcases tree_remember config now registry report session with same | ⟨value, saved⟩
  · rw [same]
    exact .refl wellFormed
  · rw [saved]
    exact wellFormed.retains_saveJson _ _

/-- A state with a JSON form is remembered where a file can be, which then holds its text. -/
theorem remember_of_form {next : InstallState} (made : nextState config now registry report session = .ok next)
    (wellFormed : session.workspace.tree.WellFormed)
    (writable : session.workspace.tree.IsWritable config.statePath) (form : Json.HasForm true next.toValue) :
    (remember config now registry report session).1 = .ok ()
      ∧ (remember config now registry report session).2.workspace.tree.look config.statePath
        = .ok (.file (printed next.entries).toUTF8) := by
  rw [(remember_of_nextState made).1, (remember_of_nextState made).2]
  exact save_eq_ok next wellFormed writable form

end Install

end Scaffold
