import Scaffold.Host.Schema
import Scaffold.Proofs.Value.Entries

/-!
# Laws of checks

A combined check accepts exactly if its parts do, and its result is made of theirs.  What the program relies on in a
library of checks (`Schema.IsSound`) yields how texts that may be null and lists of written items are accepted, and
holds of the checks at hand (`isSound_schemaWith`).
-/

namespace Scaffold

namespace Checked

variable {α β : Type} {check : Checked α} {result : α} {changed : β}

/-- A failed check accepts nothing. -/
@[simp] theorem fail_ne_accepted (message : String) : fail message ≠ .accepted result := by
  intro same
  cases same

/-- A changed result is that of an accepted one. -/
theorem map_eq_accepted_iff {change : α → β} :
    change <$> check = .accepted changed ↔ ∃ result, check = .accepted result ∧ change result = changed := by
  cases check with
  | accepted result => exact ⟨fun same => ⟨result, rfl, Checked.accepted.inj same⟩,
      fun ⟨other, same, changes⟩ => by cases same; exact congrArg Checked.accepted changes⟩
  | refused first others => exact ⟨nofun, fun ⟨_, same, _⟩ => nomatch same⟩

/-- Two checks accept if both do. -/
theorem seq_eq_accepted_iff {change : Checked (α → β)} :
    change <*> check = .accepted changed
      ↔ ∃ change' result, change = .accepted change' ∧ check = .accepted result ∧ change' result = changed := by
  cases change with
  | refused first others => exact ⟨nofun, fun ⟨_, _, same, _⟩ => nomatch same⟩
  | accepted change' =>
      cases check with
      | refused first others => exact ⟨nofun, fun ⟨_, _, _, same, _⟩ => nomatch same⟩
      | accepted result => exact ⟨fun same => ⟨change', result, rfl, rfl, Checked.accepted.inj same⟩,
          fun ⟨_, _, first, second, changes⟩ => by cases first; cases second; exact congrArg _ changes⟩

/-- Where a check stands does not matter to what it accepts. -/
@[simp] theorem under_eq_accepted_iff {step : String} :
    check.under step = .accepted result ↔ check = .accepted result := by
  cases check <;> simp [under]

/-- A further check is one of an accepted result. -/
theorem andThen_eq_accepted_iff {next : α → Checked β} :
    check.andThen next = .accepted changed ↔ ∃ result, check = .accepted result ∧ next result = .accepted changed := by
  cases check <;> simp [andThen]

/-- A check that another one follows accepts if both do. -/
theorem followedBy_eq_accepted_iff {last : Checked Unit} :
    check.followedBy last = .accepted result ↔ check = .accepted result ∧ last = .accepted () := by
  rw [followedBy, seq_eq_accepted_iff]
  simp only [map_eq_accepted_iff]
  constructor
  · rintro ⟨_, _, ⟨_, rfl, rfl⟩, rfl, rfl⟩
    exact ⟨rfl, rfl⟩
  · rintro ⟨rfl, rfl⟩
    exact ⟨_, _, ⟨_, rfl, rfl⟩, rfl, rfl⟩

end Checked

namespace Schema

variable {schema : Schema} {α : Type} {check : Value → Checked α} {entries : Entries} {name : String}
  {given : Option String}

/-- A text, or nothing, is accepted as itself. -/
theorem IsSound.orNull_optionalText (sound : schema.IsSound) (given : Option String) :
    schema.orNull schema.text (.optionalText given) = .accepted given := by
  cases given with
  | none => exact sound.orNull_null schema.text
  | some content => exact sound.orNull (by rintro ⟨⟩) (sound.text content)

/-- Items are accepted as what they were made of. -/
theorem IsSound.listOf_map (sound : schema.IsSound) {results : List α} {write : α → Value}
    (each : ∀ result ∈ results, check (write result) = .accepted result) :
    schema.listOf check (.list (results.map write)) = .accepted results := by
  refine sound.listOf.mpr ⟨_, rfl, ?_⟩
  rw [List.map_map]
  exact List.map_congr_left each

/-- A text that must be present is accepted as itself. -/
theorem IsSound.requiredText (sound : schema.IsSound) {content : String}
    (found : entries.field? name = some (.text content)) : schema.requiredText entries name = .accepted content :=
  sound.required.mpr ⟨_, found, sound.text content⟩

/-- So is a text that may be absent. -/
theorem IsSound.optionalText (sound : schema.IsSound) {others : List String}
    (found : entries.field? name = some (.optionalText given)) :
    schema.optionalText entries (name :: others) = .accepted given :=
  sound.optional found (sound.orNull_optionalText given)

end Schema

namespace Host

open Checked

variable {α : Type} {result : α} {check : Value → Checked α} {entries read : Entries} {name : String}
  {value : Value}

/-- What does not fit is not accepted. -/
@[simp] theorem refuse_ne_accepted (mismatch : Mismatch) : refuse mismatch ≠ .accepted result :=
  fail_ne_accepted mismatch.message

/-- The checks of a list accept if each of them does. -/
theorem allOf_eq_accepted_iff {checks : List (Checked α)} {results : List α} :
    allOf checks = .accepted results ↔ checks = results.map .accepted := by
  induction checks generalizing results with
  | nil => cases results <;> simp [allOf]
  | cons check rest inductionHypothesis =>
      simp only [allOf, seq_eq_accepted_iff, map_eq_accepted_iff]
      constructor
      · rintro ⟨_, others, ⟨first, rfl, rfl⟩, accepted, rfl⟩
        rw [inductionHypothesis.mp accepted]
        rfl
      · intro same
        obtain ⟨first, others, rfl, rfl, accepted⟩ := List.map_eq_cons_iff.mp same.symm
        exact ⟨_, others, ⟨first, rfl, rfl⟩, inductionHypothesis.mpr accepted.symm, rfl⟩

/-- So do the checks of items under their positions. -/
theorem allUnder_eq_accepted_iff {start : Nat} {checks : List (Checked α)} {results : List α} :
    allUnder start checks = .accepted results ↔ checks = results.map .accepted := by
  induction checks generalizing start results with
  | nil => cases results <;> simp [allUnder]
  | cons check rest inductionHypothesis =>
      simp only [allUnder, seq_eq_accepted_iff, map_eq_accepted_iff, under_eq_accepted_iff]
      constructor
      · rintro ⟨_, others, ⟨first, rfl, rfl⟩, accepted, rfl⟩
        rw [inductionHypothesis.mp accepted]
        rfl
      · intro same
        obtain ⟨first, others, rfl, rfl, accepted⟩ := List.map_eq_cons_iff.mp same.symm
        exact ⟨_, others, ⟨first, rfl, rfl⟩, inductionHypothesis.mpr accepted.symm, rfl⟩

/-- The items of a list are accepted one by one. -/
theorem listOf_eq_accepted_iff {results : List α} :
    listOf check value = .accepted results
      ↔ ∃ items, value = .list items ∧ items.map check = results.map .accepted := by
  unfold listOf
  split
  next items => simp [allUnder_eq_accepted_iff]
  next other => exact iff_of_false (refuse_ne_accepted _) fun ⟨items, same, _⟩ => other items same

/-- A list that is accepted as one with items has some. -/
theorem nonemptyListOf_eq_accepted_iff {results : List α} :
    nonemptyListOf check value = .accepted results ↔ listOf check value = .accepted results ∧ results ≠ [] := by
  rw [nonemptyListOf, andThen_eq_accepted_iff]
  constructor
  · rintro ⟨items, accepted, settled⟩
    split at settled
    next => exact absurd settled (refuse_ne_accepted _)
    next some =>
      obtain rfl := Checked.accepted.inj settled
      exact ⟨accepted, by simpa using some⟩
  · rintro ⟨accepted, some⟩
    exact ⟨results, accepted, if_neg (by simpa using some)⟩

/-- A mapping with text keys is accepted as itself. -/
theorem mapping_eq_accepted_iff :
    mapping value = .accepted read ↔ value = .mapping read ∧ read.HasTextKeys := by
  unfold mapping
  split
  next entries =>
    rw [allOf_eq_accepted_iff, Value.mapping.injEq]
    constructor
    · intro accepted
      have texts : Entries.HasTextKeys entries := by
        intro entry member
        obtain ⟨_, _, same⟩ := List.mem_map.mp (accepted ▸ List.mem_map_of_mem member)
        split at same
        next named => exact ⟨_, named⟩
        next => simp [refuse, fail, under] at same
      have whole : entries.map Checked.accepted = read.map Checked.accepted := by
        rw [← accepted]
        refine (List.map_congr_left fun entry member => ?_).symm
        obtain ⟨name, named⟩ := texts entry member
        simp [named]
      obtain rfl := List.map_injective_iff.mpr (fun _ _ => Checked.accepted.inj) whole
      exact ⟨rfl, texts⟩
    · rintro ⟨rfl, texts⟩
      refine List.map_congr_left fun entry member => ?_
      obtain ⟨name, named⟩ := texts entry member
      simp [named]
  next other => exact iff_of_false (refuse_ne_accepted _) fun both => other read both.1

/-- What is a mapping or else a text is read as a mapping exactly if it is one. -/
theorem mappingOrText_eq_inl_iff : mappingOrText value = .accepted (.inl read) ↔ mapping value = .accepted read := by
  unfold mappingOrText
  split
  next content => simp [mapping]
  next =>
    split
    next entries accepted => simp [accepted]
    next first others refused =>
      rw [refused]
      refine iff_of_false (fun accepted => ?_) (by rintro ⟨⟩)
      cases (followedBy_eq_accepted_iff.mp accepted).1

/-- A record is accepted if its entries are. -/
theorem record_eq_accepted_iff {mismatch : Mismatch} {fields : Entries → Checked α} :
    record mismatch fields value = .accepted result
      ↔ ∃ entries, value = .mapping entries ∧ fields entries = .accepted result := by
  unfold record
  split
  next entries => simp
  next other => exact iff_of_false (refuse_ne_accepted _) fun ⟨entries, same, _⟩ => other entries same

/-- A record with a tag is accepted if the tag names a kind and the entries are accepted for it. -/
theorem tagged_eq_accepted_iff {κ : Type} {field : String} {kinds : List (String × κ)}
    {fields : κ → Entries → Checked α} : tagged field kinds fields value = .accepted result
      ↔ ∃ entries word kind, value = .mapping entries ∧ Entries.field? entries field = some (.text word)
        ∧ kinds.lookup word = some kind ∧ fields kind entries = .accepted result := by
  unfold tagged
  split
  next entries =>
    simp only [Value.mapping.injEq, exists_and_left, exists_eq_left']
    split
    next missing =>
      refine iff_of_false (refuse_ne_accepted _) ?_
      rintro ⟨word, found, _⟩
      rw [missing] at found
      cases found
    next word found =>
      constructor
      · intro accepted
        split at accepted
        next kind known => exact ⟨word, found, kind, known, under_eq_accepted_iff.mp accepted⟩
        next => exact absurd accepted (refuse_ne_accepted _)
      · rintro ⟨other, same, kind, known, accepted⟩
        obtain rfl : word = other := by simpa [found] using same
        rw [known]
        exact under_eq_accepted_iff.mpr accepted
    next tag other found =>
      refine iff_of_false (refuse_ne_accepted _) ?_
      rintro ⟨word, same, _⟩
      exact other word (Option.some.inj (found.symm.trans same))
  next other => exact iff_of_false (refuse_ne_accepted _) fun ⟨entries, _, _, same, _⟩ => other entries same

/-- A field that must be present is accepted if it is there and its value is accepted. -/
theorem required_eq_accepted_iff : required entries name check = .accepted result
    ↔ ∃ value, entries.field? name = some value ∧ check value = .accepted result := by
  rw [required]
  cases entries.field? name <;> simp

/-- The first of the names that are present counts. -/
theorem findField_of_field? {others : List String} (found : entries.field? name = some value) :
    findField entries (name :: others) = some (name, value) := by
  simp [findField, found]

/-- A field that may be absent is accepted as what is assumed, or as its value. -/
theorem exists_of_optional {names : List String} {missing : α}
    (accepted : optional entries names missing check = .accepted result) :
    result = missing ∨ ∃ value, check value = .accepted result := by
  unfold optional at accepted
  split at accepted
  next name value _ => exact .inr ⟨value, under_eq_accepted_iff.mp accepted⟩
  next => exact .inl (Checked.accepted.inj accepted).symm

/-- Entries pass if every key is a first name of a field, which is then the name in use. -/
theorem onlyFields_of_firstNames {fields : List (List String)}
    (known : ∀ entry ∈ entries, ∃ names ∈ fields, ∃ name, names.head? = some name ∧ entry.1 = .text name) :
    onlyFields entries fields = .accepted () := by
  rw [onlyFields, map_eq_accepted_iff]
  refine ⟨entries.map fun _ => (), allOf_eq_accepted_iff.mpr ?_, rfl⟩
  rw [List.map_map]
  refine List.map_congr_left fun entry member => ?_
  obtain ⟨names, among, name, isFirst, named⟩ := known entry member
  obtain ⟨others, rfl⟩ := List.head?_eq_some_iff.mp isFirst
  have present : .text name ∈ entries.keys := List.mem_map.mpr ⟨entry, member, named⟩
  obtain ⟨value, found⟩ := Option.ne_none_iff_exists'.mp (mt Entries.get?_eq_none_iff.mp (not_not.mpr present))
  have inUse : name ∈ usedNames entries fields :=
    List.mem_filterMap.mpr ⟨_, among, by rw [findField_of_field? found]; rfl⟩
  simp [named, inUse]

/-- The checks at hand are as the program relies on. -/
theorem isSound_schemaWith (notRecord : String → Mismatch) : (schemaWith notRecord).IsSound where
  text _ := rfl
  boolean _ := rfl
  orNull_null _ := rfl
  orNull {_ check value result} some accepted := by
    change orNull check value = _
    unfold orNull
    split
    next => exact absurd rfl some
    next => rw [accepted]; rfl
  mapping := mapping_eq_accepted_iff
  mappingOrText_text _ := rfl
  mappingOrText := mappingOrText_eq_inl_iff
  oneOf listed := by simp [schemaWith, oneOf, listed]
  listOf := listOf_eq_accepted_iff
  nonemptyListOf := nonemptyListOf_eq_accepted_iff
  record := record_eq_accepted_iff
  tagged := tagged_eq_accepted_iff
  required := required_eq_accepted_iff
  optional found accepted := by simp [schemaWith, optional, findField_of_field? found, accepted, under]
  exists_of_optional := exists_of_optional
  onlyFields := onlyFields_of_firstNames

end Host

end Scaffold
