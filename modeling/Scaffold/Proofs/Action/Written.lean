import Scaffold.Action.Schema
import Scaffold.Proofs.Schema.Checks

/-!
# The written form of actions

An action is written as the mapping of all its fields (`Action.written`).  Whatever an action was read from, its
operation is sound (`isSound_of_ofValue`), and a sound action is read back from its written form
(`ofValue_written_iff`).  So the written form of a list of actions is read as the same actions
(`listOfValue_written`), with any library of checks that does what is expected of it (`Schema.IsSound`).
-/

namespace Scaffold

open Checked

/-- What is known of every operation that was read: packages and tables are given, and the names in mappings are
texts. -/
def Operation.IsSound : Operation → Prop
  | .installPackages packages _ => packages ≠ []
  | .mergeJson _ (.mapping content) => content.HasTextKeys
  | .mergeConfig _ config _ => config.HasTextKeys
  | .extendSchema _ tables _ => tables ≠ []
  | .enhanceFile _ _ params _ => params.HasTextKeys
  | _ => True

namespace Action

/-- All fields of an action, each under its first name: the common ones, its kind, and those of its operation. -/
def fields (action : Action) : List (String × Value) :=
  [("condition", .optionalText action.condition), ("for_each", .optionalText action.forEach),
    ("type", .text action.kind.name)] ++ action.operation.fields

/-- The fields as entries. -/
def entries (action : Action) : Entries := action.fields.map fun field => (.text field.1, field.2)

/-- The mapping of all fields of an action. -/
def written (action : Action) : Value := .mapping action.entries

variable {schema : Schema} {action : Action} {actions : List Action} {kind : ActionKind} {operation : Operation}
  {given : Entries} {value : Value} {name : String}

/-- The names that fields are written under. -/
def firstNames (kind : ActionKind) : List String := (allNames kind).filterMap List.head?

/-- Every field that the kind of an action has is written, under its first name. -/
theorem map_fst_fields (action : Action) : action.fields.map (·.1) = firstNames action.kind := by
  obtain ⟨condition, forEach, operation⟩ := action
  cases operation <;> rfl

theorem nodup_firstNames (kind : ActionKind) : (firstNames kind).Nodup := by
  cases kind <;> decide

/-- A written field is found under its name. -/
theorem field?_entries (member : (name, value) ∈ action.fields) : action.entries.field? name = some value := by
  have keys : action.entries.keys = (firstNames action.kind).map Scalar.text := by
    rw [← map_fst_fields, entries, Entries.keys, List.map_map, List.map_map]
    rfl
  have named : action.entries.Named := by
    refine ⟨fun key present => ?_, ?_⟩
    · rw [keys] at present
      obtain ⟨name, _, rfl⟩ := List.mem_map.mp present
      exact ⟨name, rfl⟩
    · rw [keys]
      exact (nodup_firstNames action.kind).map fun _ _ => Scalar.text.inj
  exact named.get?_eq_some_iff.mpr (List.mem_map.mpr ⟨_, member, rfl⟩)

/-- Nothing else is written. -/
theorem onlyFields_entries (sound : schema.IsSound) (action : Action) :
    schema.onlyFields action.entries (allNames action.kind) = .accepted () := by
  refine sound.onlyFields fun entry member => ?_
  obtain ⟨field, among, rfl⟩ := List.mem_map.mp member
  have written : field.1 ∈ firstNames action.kind := by
    rw [← map_fst_fields]
    exact List.mem_map_of_mem among
  obtain ⟨names, listed, isFirst⟩ := List.mem_filterMap.mp written
  exact ⟨names, listed, field.1, isFirst, rfl⟩

/-! ## Reading what was written -/

/-- A written strategy is accepted as itself. -/
theorem orNull_strategy (sound : schema.IsSound) (merge : Option MergeStrategy) :
    schema.orNull (schema.oneOf strategyOptions) (.optionalText (merge.map MergeStrategy.name)) = .accepted merge := by
  cases merge with
  | none => exact sound.orNull_null _
  | some strategy =>
      have listed : strategyOptions.lookup strategy.name = some strategy := by cases strategy <;> rfl
      exact sound.orNull (by rintro ⟨⟩) (sound.oneOf listed)

/-- A written mode is accepted as itself. -/
theorem oneOf_modes (sound : schema.IsSound) (mode : MergeMode) :
    schema.oneOf modeOptions (.text mode.name) = .accepted mode :=
  sound.oneOf (by cases mode <;> rfl)

/-- A written fallback is accepted as itself. -/
theorem oneOf_fallbacks (sound : schema.IsSound) (fallback : Fallback) :
    schema.oneOf fallbackOptions (.text fallback.name) = .accepted fallback :=
  sound.oneOf (by cases fallback <;> rfl)

/-- A written table is accepted as itself. -/
theorem schemaTable_record (sound : schema.IsSound) (table : SchemaTable) :
    schemaTable schema (.record [("name", .text table.name), ("definition", .text table.definition)])
      = .accepted table := by
  obtain ⟨name, definition⟩ := table
  let entries : Entries := [(.text "name", .text name), (.text "definition", .text definition)]
  have named : schema.requiredText entries "name" = .accepted name := sound.requiredText rfl
  have defined : schema.requiredText entries "definition" = .accepted definition := sound.requiredText rfl
  refine sound.record.mpr ⟨entries, rfl, followedBy_eq_accepted_iff.mpr ⟨?_, sound.onlyFields ?_⟩⟩
  · rw [named, defined]
    rfl
  · simp [entries, tableNames]

/-- Written texts are accepted as themselves. -/
theorem listOf_texts (sound : schema.IsSound) (items : List String) :
    schema.listOf schema.text (.texts items) = .accepted items :=
  sound.listOf_map fun item _ => sound.text item

/-- A written payload is accepted as itself if its names are texts. -/
theorem payload_mapping (sound : schema.IsSound) (texts : given.HasTextKeys) :
    payloadOf <$> schema.mappingOrText (.mapping given) = .accepted (.mapping given) := by
  rw [sound.mappingOrText.mpr (sound.mapping.mpr ⟨rfl, texts⟩)]
  rfl

/-- A sound operation is read from entries that have what is written for it. -/
theorem operationFields_of_fields (library : schema.IsSound) (sound : operation.IsSound)
    (found : ∀ field ∈ operation.fields, given.field? field.1 = some field.2) :
    operationFields schema given operation.kind = .accepted (.accepted operation) := by
  cases operation with
  | installPackages packages dev =>
      obtain ⟨ofPackages, ofDev, _⟩ := by simpa only [Operation.fields, List.forall_mem_cons] using found
      have nonempty := library.nonemptyListOf.mpr ⟨listOf_texts library packages, sound⟩
      rw [Operation.kind, operationFields, library.required.mpr ⟨_, ofPackages, nonempty⟩,
        library.optional ofDev (library.boolean dev)]
      rfl
  | addScript name command =>
      obtain ⟨ofName, ofCommand, _⟩ := by simpa only [Operation.fields, List.forall_mem_cons] using found
      rw [Operation.kind, operationFields, library.requiredText ofName,
        library.requiredText ofCommand]
      rfl
  | addEnvVar key content description path =>
      obtain ⟨ofKey, ofValue, ofDescription, ofPath, _⟩ := by
        simpa only [Operation.fields, List.forall_mem_cons] using found
      have isValue : envValue schema (.text content) = .accepted content := library.text content
      rw [Operation.kind, operationFields, library.requiredText ofKey, library.optional ofValue isValue,
        library.optionalText ofDescription,
        library.optionalText ofPath]
      rfl
  | createFile path source overwrite merge =>
      obtain ⟨ofPath, ofContent, ofTemplate, ofOverwrite, ofMerge, _⟩ := by
        simpa only [Operation.fields, List.forall_mem_cons] using found
      -- Of the two fields for the source one is written and the other is empty.
      cases source with
      | content text =>
          have isContent : schema.optionalText given ["content"] = .accepted (some text) :=
            library.optionalText ofContent
          have noTemplate : schema.optionalText given ["template"] = .accepted none := library.optionalText ofTemplate
          rw [Operation.kind, operationFields, library.requiredText ofPath, isContent, noTemplate,
            library.optional ofOverwrite (library.boolean overwrite),
            library.optional ofMerge (orNull_strategy library merge)]
          rfl
      | template file =>
          have noContent : schema.optionalText given ["content"] = .accepted none := library.optionalText ofContent
          have isTemplate : schema.optionalText given ["template"] = .accepted (some file) :=
            library.optionalText ofTemplate
          rw [Operation.kind, operationFields, library.requiredText ofPath, noContent, isTemplate,
            library.optional ofOverwrite (library.boolean overwrite),
            library.optional ofMerge (orNull_strategy library merge)]
          rfl
  | appendToFile path content | prependToFile path content =>
      obtain ⟨ofPath, ofContent, _⟩ := by simpa only [Operation.fields, List.forall_mem_cons] using found
      rw [Operation.kind, operationFields, library.requiredText ofPath,
        library.requiredText ofContent]
      rfl
  | runCommand command workingDir =>
      obtain ⟨ofCommand, ofFolder, _⟩ := by simpa only [Operation.fields, List.forall_mem_cons] using found
      rw [Operation.kind, operationFields, library.requiredText ofCommand,
        library.optionalText ofFolder]
      rfl
  | mergeJson path content =>
      obtain ⟨ofPath, ofContent, _⟩ := by simpa only [Operation.fields, List.forall_mem_cons] using found
      have accepted : ∃ payload, given.field? "content" = some payload
          ∧ payloadOf <$> schema.mappingOrText payload = .accepted content := by
        cases content with
        | mapping entries => exact ⟨_, ofContent, payload_mapping library sound⟩
        | template text => exact ⟨_, ofContent, by rw [library.mappingOrText_text]; rfl⟩
      obtain ⟨payload, ofPayload, isContent⟩ := accepted
      rw [Operation.kind, operationFields, library.requiredText ofPath,
        library.required.mpr ⟨_, ofPayload, isContent⟩]
      rfl
  | mergeConfig path config mode =>
      obtain ⟨ofPath, ofConfig, ofMode, _⟩ := by simpa only [Operation.fields, List.forall_mem_cons] using found
      rw [Operation.kind, operationFields, library.requiredText ofPath,
        library.required.mpr ⟨_, ofConfig, library.mapping.mpr ⟨rfl, sound⟩⟩,
        library.optional ofMode (oneOf_modes library mode)]
      rfl
  | extendSchema path tables imports =>
      obtain ⟨ofPath, ofTables, ofImports, _⟩ := by simpa only [Operation.fields, List.forall_mem_cons] using found
      have nonempty := library.nonemptyListOf.mpr
        ⟨library.listOf_map fun table _ => schemaTable_record library table, sound⟩
      rw [Operation.kind, operationFields, library.requiredText ofPath,
        library.required.mpr ⟨_, ofTables, nonempty⟩, library.optional ofImports (listOf_texts library imports)]
      rfl
  | enhanceFile path modifier params fallback =>
      obtain ⟨ofPath, ofModifier, ofParams, ofFallback, _⟩ := by
        simpa only [Operation.fields, List.forall_mem_cons] using found
      rw [Operation.kind, operationFields, library.requiredText ofPath,
        library.requiredText ofModifier,
        library.optional ofParams (library.mapping.mpr ⟨rfl, sound⟩),
        library.optional ofFallback (oneOf_fallbacks library fallback)]
      rfl

/-- A sound action is read from its fields. -/
theorem ofEntries_entries (library : schema.IsSound) (sound : action.operation.IsSound) :
    ofEntries schema action.kind action.entries = .accepted action := by
  have found : ∀ field ∈ action.operation.fields, action.entries.field? field.1 = some field.2 :=
    fun field member => field?_entries (List.mem_append_right _ member)
  have ofCondition : action.entries.field? "condition" = some (.optionalText action.condition) :=
    field?_entries (by simp [fields])
  have ofForEach : action.entries.field? "for_each" = some (.optionalText action.forEach) :=
    field?_entries (by simp [fields])
  have operationRead : operationFields schema action.entries action.kind = .accepted (.accepted action.operation) :=
    operationFields_of_fields library sound found
  rw [ofEntries, conditionNames, forEachNames, library.optionalText ofCondition, library.optionalText ofForEach,
    operationRead, onlyFields_entries library]
  rfl

/-- Every kind is found under its name. -/
theorem lookup_kindOptions (kind : ActionKind) : kindOptions.lookup kind.name = some kind := by
  cases kind <;> rfl

/-- A sound action is read from its written form. -/
theorem ofValue_written (library : schema.IsSound) (sound : action.operation.IsSound) :
    ofValue schema action.written = .accepted action := by
  have tag : Entries.field? action.entries "type" = some (.text action.kind.name) :=
    field?_entries (by simp [fields])
  exact library.tagged.mpr
    ⟨action.entries, action.kind.name, action.kind, rfl, tag, lookup_kindOptions _, ofEntries_entries library sound⟩

/-! ## What was read -/

/-- A payload that was read as a mapping has text keys. -/
theorem hasTextKeys_of_payload (library : schema.IsSound)
    (accepted : payloadOf <$> schema.mappingOrText value = .accepted (.mapping given)) : given.HasTextKeys := by
  obtain ⟨entries | text, isPayload, same⟩ := map_eq_accepted_iff.mp accepted
  · obtain rfl := JsonPayload.mapping.inj same
    exact (library.mapping.mp (library.mappingOrText.mp isPayload)).2
  · cases same

/-- An operation that was read has the kind that it was read as, and is sound. -/
theorem isSound_of_operationFields (library : schema.IsSound)
    (accepted : operationFields schema given kind = .accepted (.accepted operation)) :
    operation.kind = kind ∧ operation.IsSound := by
  cases kind with
  | installPackages =>
      simp only [operationFields, map_eq_accepted_iff, seq_eq_accepted_iff] at accepted
      obtain ⟨_, ⟨_, _, ⟨packages, found, rfl⟩, _, rfl⟩, settled⟩ := accepted
      obtain rfl := Checked.accepted.inj settled
      obtain ⟨_, _, areTexts⟩ := library.required.mp found
      exact ⟨rfl, (library.nonemptyListOf.mp areTexts).2⟩
  | addScript | appendToFile | prependToFile | runCommand =>
      simp only [operationFields, map_eq_accepted_iff, seq_eq_accepted_iff] at accepted
      obtain ⟨_, ⟨_, _, ⟨_, _, rfl⟩, _, rfl⟩, settled⟩ := accepted
      obtain rfl := Checked.accepted.inj settled
      exact ⟨rfl, trivial⟩
  | addEnvVar =>
      simp only [operationFields, map_eq_accepted_iff, seq_eq_accepted_iff] at accepted
      obtain ⟨_, ⟨_, _, ⟨_, _, ⟨_, _, ⟨_, _, rfl⟩, _, rfl⟩, _, rfl⟩, _, rfl⟩, settled⟩ := accepted
      obtain rfl := Checked.accepted.inj settled
      exact ⟨rfl, trivial⟩
  | createFile =>
      simp only [operationFields, map_eq_accepted_iff] at accepted
      obtain ⟨draft, _, settled⟩ := accepted
      obtain ⟨source, _, rfl⟩ := map_eq_accepted_iff.mp settled
      exact ⟨rfl, trivial⟩
  | mergeJson =>
      simp only [operationFields, map_eq_accepted_iff, seq_eq_accepted_iff] at accepted
      obtain ⟨_, ⟨_, content, ⟨_, _, rfl⟩, found, rfl⟩, settled⟩ := accepted
      obtain rfl := Checked.accepted.inj settled
      obtain ⟨_, _, isPayload⟩ := library.required.mp found
      refine ⟨rfl, ?_⟩
      cases content with
      | mapping entries => exact hasTextKeys_of_payload library isPayload
      | template text => trivial
  | mergeConfig =>
      simp only [operationFields, map_eq_accepted_iff, seq_eq_accepted_iff] at accepted
      obtain ⟨_, ⟨_, _, ⟨_, config, ⟨_, _, rfl⟩, found, rfl⟩, _, rfl⟩, settled⟩ := accepted
      obtain rfl := Checked.accepted.inj settled
      obtain ⟨_, _, isMapping⟩ := library.required.mp found
      exact ⟨rfl, (library.mapping.mp isMapping).2⟩
  | extendSchema =>
      simp only [operationFields, map_eq_accepted_iff, seq_eq_accepted_iff] at accepted
      obtain ⟨_, ⟨_, _, ⟨_, tables, ⟨_, _, rfl⟩, found, rfl⟩, _, rfl⟩, settled⟩ := accepted
      obtain rfl := Checked.accepted.inj settled
      obtain ⟨_, _, areTables⟩ := library.required.mp found
      exact ⟨rfl, (library.nonemptyListOf.mp areTables).2⟩
  | enhanceFile =>
      simp only [operationFields, map_eq_accepted_iff, seq_eq_accepted_iff] at accepted
      obtain ⟨_, ⟨_, _, ⟨_, params, ⟨_, _, ⟨_, _, rfl⟩, _, rfl⟩, found, rfl⟩, _, rfl⟩, settled⟩ := accepted
      obtain rfl := Checked.accepted.inj settled
      refine ⟨rfl, ?_⟩
      rcases library.exists_of_optional found with rfl | ⟨_, isMapping⟩
      · exact List.forall_mem_nil _
      · exact (library.mapping.mp isMapping).2

/-- The operation of an action that was read from fields is sound. -/
theorem isSound_of_ofEntries (library : schema.IsSound) (accepted : ofEntries schema kind given = .accepted action) :
    action.operation.IsSound := by
  obtain ⟨⟨shared, settled⟩, fits, accepted⟩ := andThen_eq_accepted_iff.mp accepted
  obtain ⟨operation, done, rfl⟩ := map_eq_accepted_iff.mp accepted
  obtain ⟨together, _⟩ := followedBy_eq_accepted_iff.mp fits
  obtain ⟨_, _, first, read, same⟩ := seq_eq_accepted_iff.mp together
  obtain ⟨_, _, rfl⟩ := map_eq_accepted_iff.mp first
  obtain ⟨_, rfl⟩ := Prod.mk.inj same
  rw [show _ = Checked.accepted operation from done] at read
  exact (isSound_of_operationFields library read).2

/-- The operation of an action that was read is sound. -/
theorem isSound_of_ofValue (library : schema.IsSound) (accepted : ofValue schema value = .accepted action) :
    action.operation.IsSound := by
  obtain ⟨entries, word, kind, _, _, _, accepted⟩ := library.tagged.mp accepted
  exact isSound_of_ofEntries library accepted

/-- An action is read from its written form exactly if its operation is sound. -/
theorem ofValue_written_iff (library : schema.IsSound) :
    ofValue schema action.written = .accepted action ↔ action.operation.IsSound :=
  ⟨isSound_of_ofValue library, ofValue_written library⟩

/-- Actions that were read from anything are read from their written form, in which every field of their kind stands
under its first name. -/
theorem listOfValue_written (library : schema.IsSound) (accepted : listOfValue schema value = .accepted actions) :
    listOfValue schema (.list (actions.map Action.written)) = .accepted actions
      ∧ ∀ action ∈ actions, action.fields.map (·.1) = firstNames action.kind := by
  obtain ⟨items, _, each⟩ := library.listOf.mp accepted
  refine ⟨library.listOf_map fun action member => ofValue_written library ?_, fun action _ => map_fst_fields action⟩
  obtain ⟨item, _, read⟩ := List.mem_map.mp (each ▸ List.mem_map_of_mem member)
  exact isSound_of_ofValue library read

/-- Actions that are given with other names, without some fields, and with numbers and words for texts and truth
values. -/
def looseActions : Value :=
  .list [
    .record [("packages", .texts ["zod"]), ("isDev", .text "Yes"), ("type", .text "INSTALL_PACKAGES")],
    .record [("type", .text "ADD_ENV_VAR"), ("key", .text "PORT"), ("value", .int 3000),
      ("forEach", .text "module.parameters.ports")],
    .record [("type", .text "MERGE_JSON"), ("path", .text "a.json"), ("content", .record [("a", .null)])],
    .record [("type", .text "ENHANCE_FILE"), ("path", .text "a.ts"), ("modifier", .text "export-wrapper")]]

/-- What they stand for. -/
def strictActions : List Action :=
  [⟨none, none, .installPackages ["zod"] true⟩,
    ⟨none, some "module.parameters.ports", .addEnvVar "PORT" "3000" none none⟩,
    ⟨none, none, .mergeJson "a.json" (.mapping [(.text "a", .null)])⟩,
    ⟨none, none, .enhanceFile "a.ts" "export-wrapper" [] .error⟩]

/-- They are read from their written form. -/
theorem listOfValue_written_loose :
    Host.schema.IsSound ∧ listOfValue Host.schema looseActions = .accepted strictActions
      ∧ listOfValue Host.schema (.list (strictActions.map Action.written)) = .accepted strictActions := by
  have library : Host.schema.IsSound := Host.isSound_schemaWith .record
  have accepted : listOfValue Host.schema looseActions = .accepted strictActions := by rfl
  exact ⟨library, accepted, (listOfValue_written library accepted).1⟩

end Action

end Scaffold
