import Mathlib
import Scaffold.Proofs.Install.Stored

/-!
# The history of a project

`Follow` puts calls of an installation one after the other, each in the files that the one before it left.  In a
project that starts without a state file, the state tells of all of them (`state_tells_of_calls`): there is a
record of every call that was not aborted, in order, and an entry for every module that a call installed, with
the version and the files of the last one.
-/

namespace Scaffold.Install

open InstallState

/-- A call of an installation: what it is asked for, the console where it shows its lines, and the session that it
finds. -/
structure Call where
  console : Console
  config : Config
  registry : Registry
  now : String
  requested : List String
  values : List (String × Entries)
  session : Session

namespace Call

variable (call : Call)

/-- The files that the call finds. -/
def found : Tree := call.session.workspace.tree

/-- How the call ends. -/
def ends : EStateM.Result InstallFault Session InstallReport :=
  Attended.run call.console call.config call.registry call.now call.requested call.values call.session

/-- What the call answers. -/
def answer : Except InstallFault InstallReport :=
  match call.ends with
  | .ok report _ => .ok report
  | .error fault _ => .error fault

/-- The files that the call leaves. -/
def left : Tree := (Attended.left call.ends).workspace.tree

/-- Templates keep the values that the call hands them, and the console shows all that there is to show. -/
structure IsShown : Prop where
  keeps : call.session.workspace.renderings.KeepContext
  shows : call.console.Shows
    (run call.config call.registry call.now call.requested call.values call.session).2.workspace.shown

/-- Whether the request of the call is resolved. -/
def isResolved : Bool := (call.registry.resolve call.requested).isOk

/-- The session after the last module of the call, if its request is resolved. -/
def tried : Session := (carriedOut call.config call.registry call.requested call.values call.session).2

/-- What the call reports: a request that is not resolved is aborted. -/
def report : InstallReport :=
  if call.isResolved then reported call.config call.registry call.requested call.values call.session
  else ⟨call.registry.resolve call.requested, []⟩

/-- The call keeps its state in a file that neither a blueprint nor a template touches and that can be made where it
is absent, and its values have a JSON form. -/
structure IsRecordable (file : Path) : Prop where
  place : call.config.statePath = file
  given : ∀ id, Json.HasForm true (.mapping (given call.values id))
  held : call.session.context.HoldsJson
  writes : call.session.workspace.renderings.WriteNothing
  untouched : call.tried.workspace.tree.look file = call.found.look file
  savable : call.found.pathExists file = .ok false → call.tried.workspace.tree.IsWritable file

end Call

/-- Calls one after the other, from the files at the start to those in the end. -/
inductive Follow (start : Tree) : List Call → Tree → Prop where
  | start : Follow start [] start
  | next {calls call} (earlier : Follow start calls call.found) : Follow start (calls ++ [call]) call.left

/-! ## What a state tells -/

/-- A record has a value under a name. -/
def Has (record : Value) (name : String) (value : Value) : Prop :=
  ∃ entries, record = .mapping entries ∧ Entries.field? entries name = some value

/-- A record of the history is that of a call. -/
structure Logs (call : Call) (record : Value) : Prop where
  timestamp : Has record "timestamp" (.text call.now)
  installed : Has record "installed" (.texts call.report.installed)
  failed : Has record "failed" (.texts call.report.failed)
  skipped : Has record "skipped" (.texts call.report.skipped)

/-- A record of a module has the version and the files with which a call installed it. -/
def Describes (call : Call) (id : String) (record : Value) : Prop :=
  ∃ descriptor result, call.registry.get? id = some descriptor ∧ (id, .ran result) ∈ call.report.outcomes
    ∧ Has record "version" (.text descriptor.version) ∧ Has record "files" (.texts result.files)

/-- The modules that are known are those that a call installed, each as the last of these calls did. -/
structure Lists (known : Entries) (calls : List Call) : Prop where
  named : known.Named
  ids : ∀ id, .text id ∈ known.keys ↔ ∃ call ∈ calls, id ∈ call.report.installed
  last : ∀ {earlier call later id}, calls = earlier ++ call :: later → id ∈ call.report.installed →
    (∀ other ∈ later, id ∉ other.report.installed) →
    ∃ record, known.get? (.text id) = some record ∧ Describes call id record

/-- A state tells of calls: its history has a record of each that was not aborted, in order, and its modules are
those that they installed. -/
structure Tells (state : InstallState) (calls : List Call) : Prop where
  history : ∃ records, Entries.get? state.entries historyKey = some (.list records)
    ∧ List.Forall₂ Logs (calls.filter fun call => !call.report.isAborted) records
  modules : ∃ known, Entries.get? state.entries modulesKey = some (.mapping known) ∧ Lists known calls

variable {calls : List Call} {call : Call} {state : InstallState} {file : Path} {start tree : Tree}
  {record : Value} {id : String}

/-- The state before the first call tells of none. -/
theorem tells_empty : Tells .empty [] where
  history := ⟨[], by rfl, .nil⟩
  modules := ⟨[], by rfl, Entries.named_nil, by simp, by simp⟩

/-- The modules after a further call: those that it installed as it did, and the others as they were. -/
theorem Lists.append {known later : Entries} (lists : Lists known calls) (named : later.Named)
    (installs : ∀ id ∈ call.report.installed,
      ∃ record, later.get? (.text id) = some record ∧ Describes call id record)
    (others : ∀ id, id ∉ call.report.installed → later.get? (.text id) = known.get? (.text id)) :
    Lists later (calls ++ [call]) where
  named := named
  ids id := by
    have before := lists.ids id
    simp only [List.mem_append, List.mem_singleton, or_and_right, exists_or, exists_eq_left]
    rw [← before]
    by_cases member : id ∈ call.report.installed
    · obtain ⟨record, present, _⟩ := installs id member
      have inside : .text id ∈ later.keys := by
        by_contra absent
        rw [Entries.get?_eq_none_iff.mpr absent] at present
        cases present
      exact ⟨fun _ => .inr member, fun _ => inside⟩
    · have same := others id member
      have keys : .text id ∈ later.keys ↔ .text id ∈ known.keys := by
        rw [← not_iff_not, ← Entries.get?_eq_none_iff, ← Entries.get?_eq_none_iff, same]
      rw [keys]
      exact ⟨.inl, fun either => either.resolve_right member⟩
  last := by
    intro earlier last behind id split installed noneLater
    rcases List.eq_nil_or_concat behind with rfl | ⟨between, final, rfl⟩
    · obtain rfl := (List.cons.inj (List.append_inj' split rfl).2).1
      exact installs id installed
    · rw [List.concat_eq_append, ← List.cons_append, ← List.append_assoc] at split
      obtain ⟨same, lastly⟩ := List.append_inj' split rfl
      obtain rfl := (List.cons.inj lastly).1
      rw [others id (noneLater call (by simp))]
      exact lists.last same installed fun other member => noneLater other (by simp [member])

/-! ## Aborted calls -/

/-- A call is aborted just if its request is not resolved. -/
theorem Call.isAborted_report (call : Call) : call.report.isAborted = !call.isResolved := by
  unfold report
  split <;> rfl

/-- A call whose lines are shown ends as it does without a console. -/
theorem Call.IsShown.ends_eq (shown : call.IsShown) :
    call.ends = Attended.ended
      (run call.config call.registry call.now call.requested call.values call.session) :=
  (Attended.does_run call.config call.registry call.now call.requested call.values call.session
    shown.keeps).of_shows shown.shows

/-- Such a call leaves the files that the installation leaves. -/
theorem Call.IsShown.left_eq (shown : call.IsShown) :
    call.left = (run call.config call.registry call.now call.requested call.values call.session).2.workspace.tree := by
  rw [Call.left, shown.ends_eq, Attended.left_ended]

/-- It answers with what the installation reports. -/
theorem Call.IsShown.answer_eq_ok (shown : call.IsShown) {report : InstallReport}
    (answered : (run call.config call.registry call.now call.requested call.values call.session).1 = .ok report) :
    call.answer = .ok report := by
  rw [Call.answer, shown.ends_eq, Attended.ended_of_ok answered]

/-- An aborted call leaves the files, and answers with its report if its lines are shown. -/
theorem Call.run_of_aborted (aborted : call.isResolved = false) :
    call.left = call.found ∧ (call.IsShown → call.answer = .ok call.report) := by
  have reports : call.report = ⟨call.registry.resolve call.requested, []⟩ := if_neg (by simp [aborted])
  obtain ⟨shown, ends⟩ := Attended.run_of_unresolved call.console call.config call.now call.values call.session
    aborted
  have known : call.ends = .ok call.report (call.session.tell shown)
      ∨ ∃ message, call.ends = .error (.console message) (call.session.tell shown) := reports ▸ ends
  refine ⟨?_, fun isShown => ?_⟩
  · rcases known with same | ⟨message, same⟩ <;> rw [Call.left, same] <;> rfl
  · rcases known with same | ⟨message, same⟩
    · rw [Call.answer, same]
    · rw [isShown.ends_eq] at same
      exact absurd same Attended.ended_ne_console

/-- An aborted call installs nothing. -/
theorem Call.installed_of_aborted (aborted : call.isResolved = false) : call.report.installed = [] := by
  have reports : call.report = ⟨call.registry.resolve call.requested, []⟩ := if_neg (by simp [aborted])
  rw [reports]
  rfl

/-- A state that tells of calls tells of a further one that was aborted. -/
theorem Tells.append_aborted (tells : Tells state calls) (aborted : call.isResolved = false) :
    Tells state (calls ++ [call]) := by
  have none := call.installed_of_aborted aborted
  obtain ⟨records, found, logged⟩ := tells.history
  obtain ⟨known, listed, lists⟩ := tells.modules
  refine ⟨⟨records, found, ?_⟩, known, listed, lists.append lists.named (by simp [none]) fun _ _ => rfl⟩
  rw [List.filter_append, List.filter_cons_of_neg (by simp [call.isAborted_report, aborted])]
  simpa using logged

/-! ## Calls that are recorded -/

/-- A document can hold the record of an installation. -/
theorem isDocument_historyRecord (now : String) (report : InstallReport) :
    Json.IsDocument (historyRecord now report) := by
  have texts : ∀ items : List String, Json.IsDocument (.texts items) := by
    intro items
    refine .list fun item member => ?_
    obtain ⟨text, _, rfl⟩ := List.mem_map.mp member
    exact .scalar trivial
  have time : Json.IsDocument (.text now) := .scalar trivial
  refine .mapping ⟨by simp [Entries.keys], by simp [Entries.keys]⟩ ?_
  simp [texts, time]

/-- The record of an installation in the history is that of its call. -/
theorem logs_historyRecord (call : Call) : Logs call (historyRecord call.now call.report) :=
  ⟨⟨_, rfl, rfl⟩, ⟨_, rfl, rfl⟩, ⟨_, rfl, rfl⟩, ⟨_, rfl, rfl⟩⟩

/-- A record of a module has its version and its files also after it was saved. -/
theorem has_moduleRecord (now version : String) (result : Report) (values : Entries) :
    Has (Json.settled (moduleRecord now version result values)) "version" (.text version)
      ∧ Has (Json.settled (moduleRecord now version result values)) "files" (.texts result.files) := by
  have named : Entries.Named
      [(.text "version", .text version), (.text "installed_at", .text now),
        (.text "files", .texts result.files), (.text "parameters", .mapping values)] :=
    ⟨by simp [Entries.keys], by simp [Entries.keys]⟩
  have record : Json.settled (moduleRecord now version result values) = .mapping
      [(.text "version", .text version), (.text "installed_at", .text now),
        (.text "files", Json.settled (.texts result.files)),
        (.text "parameters", Json.settled (.mapping values))] := Json.settled_mapping named
  have files : Json.settled (.texts result.files) = .texts result.files := by
    simp [Value.texts, Json.settled, Json.settledItems_eq, Json.writtenScalar]
  rw [record, files]
  exact ⟨⟨_, rfl, rfl⟩, ⟨_, rfl, rfl⟩⟩

/-- A module that a call installed is registered. -/
theorem Call.registered_of_installed (resolved : call.isResolved = true) (member : id ∈ call.report.installed) :
    ∃ descriptor, call.registry.get? id = some descriptor := by
  have reports : call.report = _ := if_pos resolved
  obtain ⟨result, present, _⟩ := InstallReport.mem_installed_iff.mp member
  have listed : id ∈ call.report.outcomes.map (·.1) := List.mem_map_of_mem present
  rw [reports, map_fst_reported resolved] at listed
  exact Option.isSome_iff_exists.mp ((Registry.order_of_isOk resolved).2.1 id listed)

section

variable {installed : InstallState} {records : List Value} {context : Context}
  (resolved : call.isResolved = true) (document : Json.IsDocument state.toValue)

include resolved document

/-- The history that is read after a call was recorded has a record of it. -/
theorem logged_recorded (name : String)
    (named : (stamped installed.entries (records ++ [historyRecord call.now call.report]) name call.now).Named)
    (found : Entries.get? state.entries historyKey = some (.list records))
    (logged : List.Forall₂ Logs (calls.filter fun call => !call.report.isAborted) records) :
    ∃ later, Entries.get? (settled ⟨stamped installed.entries (records ++ [historyRecord call.now call.report])
        name call.now⟩).entries historyKey = some (.list later)
      ∧ List.Forall₂ Logs ((calls ++ [call]).filter fun call => !call.report.isAborted) later := by
  have items : Json.IsDocument (.list (records ++ [historyRecord call.now call.report])) := by
    refine .list (List.forall_mem_append.mpr
      ⟨?_, List.forall_mem_singleton.mpr (isDocument_historyRecord _ _)⟩)
    cases document.of_get? found with
    | list all => exact all
  refine ⟨records ++ [historyRecord call.now call.report], ?_, ?_⟩
  · rw [settled, historyKey, Json.get?_settledEntries named, ← historyKey,
      get?_stamped_history, Option.map_some, Json.settled_eq_self items]
  · rw [List.filter_append, List.filter_cons_of_pos (by simp [call.isAborted_report, resolved])]
    exact List.rel_append logged (.cons (logs_historyRecord call) .nil)

/-- The modules that are read after a call was recorded are those that were known and those it installed. -/
theorem lists_recorded {known : Entries} (history : List Value) (name : String)
    (named : (stamped installed.entries history name call.now).Named)
    (registered : Registered state (installedRecords call.now call.registry context call.report) installed)
    (distinct : (call.report.outcomes.map (·.1)).Nodup)
    (listed : Entries.get? state.entries modulesKey = some (.mapping known)) (lists : Lists known calls) :
    ∃ later, Entries.get? (settled ⟨stamped installed.entries history name call.now⟩).entries modulesKey
        = some (.mapping later)
      ∧ Lists later (calls ++ [call]) := by
  have overlaid : (Entries.overlay known
      (keyed (installedRecords call.now call.registry context call.report))).Named :=
    lists.named.overlay (named_keyed distinct).texts
  refine ⟨Entries.ofPairs (Json.settledEntries (Entries.overlay known
    (keyed (installedRecords call.now call.registry context call.report)))), ?_,
    lists.append ?_ (fun id member => ?_) fun id absent => ?_⟩
  · rw [settled, modulesKey, Json.get?_settledEntries named, ← modulesKey,
      get?_stamped_modules, registered.modules listed]
    rfl
  · exact ⟨by rw [Json.keys_settledEntries overlaid]; exact overlaid.texts,
      by rw [Json.keys_settledEntries overlaid]; exact overlaid.distinct⟩
  · obtain ⟨result, present, success⟩ := InstallReport.mem_installed_iff.mp member
    obtain ⟨descriptor, registeredAs⟩ := call.registered_of_installed resolved member
    obtain ⟨version, files⟩ := has_moduleRecord call.now descriptor.version result (context.supplied id)
    refine ⟨_, ?_, descriptor, result, registeredAs, present, version, files⟩
    rw [Json.get?_settledEntries overlaid, get?_overlay_of_ran known distinct present success, registeredAs]
    rfl
  · rw [Json.get?_settledEntries overlaid, get?_overlay_of_notMem known distinct absent]
    cases here : Entries.get? known (.text id) with
    | none => rfl
    | some value =>
        have inside := (document.of_get? listed).of_get? here
        rw [Option.map_some, Json.settled_eq_self inside]

/-- A state that took a call in, as it is read after it was saved, tells of that call too. -/
theorem Tells.append_recorded (tells : Tells state calls) (name : String)
    (named : (stamped installed.entries (records ++ [historyRecord call.now call.report]) name call.now).Named)
    (registered : Registered state (installedRecords call.now call.registry context call.report) installed)
    (distinct : (call.report.outcomes.map (·.1)).Nodup)
    (found : Entries.get? state.entries historyKey = some (.list records)) :
    Tells (settled ⟨stamped installed.entries (records ++ [historyRecord call.now call.report]) name call.now⟩)
      (calls ++ [call]) := by
  obtain ⟨same, also, logged⟩ := tells.history
  obtain rfl := Value.list.inj (Option.some.inj (also.symm.trans found))
  obtain ⟨known, listed, lists⟩ := tells.modules
  exact ⟨logged_recorded resolved document name named found logged,
    lists_recorded resolved document _ name named registered distinct listed lists⟩

end

/-! ## Sequences of calls -/

/-- What holds after calls: the state file is absent or a file, and the state that is loaded tells of them. -/
structure Keeps (file : Path) (calls : List Call) (tree : Tree) : Prop where
  wellFormed : tree.WellFormed
  stands : tree.pathExists file = .ok false ∨ ∃ content, tree.look file = .ok (.file content)
  tells : ∃ state, (load tree file).1 = .ok state ∧ Json.IsDocument state.toValue ∧ Tells state calls

/-- Before the first call nothing is told. -/
theorem keeps_start (wellFormed : start.WellFormed) (absent : start.pathExists file = .ok false) :
    Keeps file [] start where
  wellFormed := wellFormed
  stands := .inl absent
  tells := ⟨.empty, load_of_absent absent, isDocument_empty, tells_empty⟩

/-- An aborted call keeps what was told. -/
theorem Keeps.append_aborted (keeps : Keeps file calls call.found) (aborted : call.isResolved = false) :
    Keeps file (calls ++ [call]) call.left := by
  obtain ⟨state, loaded, document, tells⟩ := keeps.tells
  rw [call.run_of_aborted aborted |>.1]
  exact ⟨keeps.wellFormed, keeps.stands, state, loaded, document, tells.append_aborted aborted⟩

/-- A call that is recorded answers with its report and leaves the state file, and is told of from then on. -/
theorem Keeps.append_recorded (keeps : Keeps file calls call.found) (resolved : call.isResolved = true)
    (shown : call.IsShown) (recordable : call.IsRecordable file) :
    call.answer = .ok call.report ∧ (∃ content, call.left.look file = .ok (.file content))
      ∧ Keeps file (calls ++ [call]) call.left := by
  obtain rfl := recordable.place
  obtain ⟨state, loaded, document, tells⟩ := keeps.tells
  obtain ⟨records, recorded, _⟩ := tells.history
  obtain ⟨known, listed, _⟩ := tells.modules
  have reports : call.report = reported call.config call.registry call.requested call.values call.session :=
    if_pos resolved
  have retains : call.found.Retains call.tried.workspace.tree :=
    retains_carriedOut call.config call.registry call.requested call.values recordable.writes keeps.wellFormed
  have reads : (load call.tried.workspace.tree call.config.statePath).1 = .ok state := by
    rw [load_congr recordable.untouched, loaded]
  have writable : call.tried.workspace.tree.IsWritable call.config.statePath := by
    rcases keeps.stands with absent | ⟨content, present⟩
    · exact recordable.savable absent
    · exact Tree.isWritable_of_look (recordable.untouched.trans present) (parts_statePath_ne_nil call.config)
  have held : call.tried.context.HoldsJson := holdsJson_carriedOut recordable.given recordable.held
  have distinct : (call.report.outcomes.map (·.1)).Nodup := reports ▸ nodup_reported resolved
  obtain ⟨installed, registered, takes⟩ := @exists_after state call.report records call.now call.registry
    call.tried.context (.inr ⟨known, listed⟩) recorded
  have form := (parts_after_iff (Json.HasForm.partwise true) takes distinct (.of_isDocument document)).mpr
    fun id _ => held id
  have named := named_of_after takes (isReading_load reads) form.whole
  obtain ⟨saved, look⟩ :=
    remember_of_form (nextState_eq_ok_iff.mpr ⟨state, reads, takes⟩) retains.wellFormed writable form
  have remembered := retains_remember call.config call.now call.registry call.report retains.wellFormed
  obtain ⟨runs, leaves⟩ := @run_of_isOk call.config call.registry call.requested call.values call.session call.now
    resolved
  rw [← reports] at runs leaves
  refine ⟨shown.answer_eq_ok (runs.trans (congrArg _ saved)), ?_⟩
  rw [shown.left_eq, leaves]
  refine ⟨⟨_, look⟩, remembered.wellFormed, .inr ⟨_, look⟩, _, load_of_printed look form named ?_ ?_,
    Json.isDocument_settled form.writable,
    tells.append_recorded resolved document _ named registered distinct recorded⟩
  · rw [get?_stamped_modules, registered.modules listed]
    simp
  · rw [get?_stamped_history]
    simp

/-- So does every sequence of calls. -/
theorem Follow.keeps (follow : Follow start calls tree) (wellFormed : start.WellFormed)
    (absent : start.pathExists file = .ok false) (shown : ∀ call ∈ calls, call.IsShown)
    (recordable : ∀ call ∈ calls, call.isResolved = true → call.IsRecordable file) :
    (∀ call ∈ calls, call.answer = .ok call.report) ∧ Keeps file calls tree := by
  induction follow with
  | start => exact ⟨by simp, keeps_start wellFormed absent⟩
  | @next calls call earlier inductionHypothesis =>
      obtain ⟨before, here⟩ := List.forall_mem_append.mp recordable
      obtain ⟨shownBefore, shownHere⟩ := List.forall_mem_append.mp shown
      have isShown := shownHere call (List.mem_singleton.mpr rfl)
      obtain ⟨answered, keeps⟩ := inductionHypothesis shownBefore before
      have step : call.answer = .ok call.report ∧ Keeps file (calls ++ [call]) call.left := by
        by_cases resolved : call.isResolved = true
        · obtain ⟨answers, _, kept⟩ :=
            keeps.append_recorded resolved isShown (here call (List.mem_singleton.mpr rfl) resolved)
          exact ⟨answers, kept⟩
        · have aborted : call.isResolved = false := by simpa using resolved
          exact ⟨(call.run_of_aborted aborted).2 isShown, keeps.append_aborted aborted⟩
      exact ⟨List.forall_mem_append.mpr ⟨answered, List.forall_mem_singleton.mpr step.1⟩, step.2⟩

end Scaffold.Install
