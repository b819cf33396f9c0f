import Scaffold.Merge.Structured
import Scaffold.Proofs.Json.Document

/-!
# Laws of the deep merge

Merging one list of entries after another is merging both behind each other, so a sequence of payloads
acts as one list.  Merging the same list once more changes nothing (`deepMerge_idempotent`), even if the
list gives one key objects and other values in turn.
-/

namespace Scaffold

/-- Entries under texts whose values are made of scalars with a property; keys may be repeated. -/
def Entries.Lays (plain : Scalar → Prop) (upper : Entries) : Prop :=
  ∀ entry ∈ upper, (∃ name, entry.1 = .text name) ∧ entry.2.Consists plain

/-- The entries of a mapping; any other value, and none, has no entries. -/
def entriesOf : Option Value → Entries
  | some (.mapping entries) => entries
  | _ => []

/-- What is left of values that are merged over an old one in turn. -/
def mergeAll (old : Option Value) (values : List Value) : Option Value :=
  values.foldl (fun below value => some (mergeOver below value)) old

/-- The values that entries give to a name, in order. -/
def Entries.valuesUnder (upper : Entries) (name : String) : List Value :=
  (upper.filter fun entry => entry.1 = .text name).map (·.2)

variable {plain : Scalar → Prop} {lower upper : Entries} {old : Option Value} {value : Value}

/-- A mapping is merged into the entries that were there. -/
theorem mergeOver_mapping (old : Option Value) (upper : Entries) :
    mergeOver old (.mapping upper) = .mapping (deepMerge (entriesOf old) upper) := by
  unfold mergeOver entriesOf
  rfl

/-- A value that is no mapping takes the place of what was there. -/
theorem mergeOver_other (old : Option Value) (other : ∀ entries, value ≠ .mapping entries) :
    mergeOver old value = value := by
  cases value with
  | scalar content => rfl
  | list items => rfl
  | mapping entries => exact absurd rfl (other entries)

/-- A merge by its first entry. -/
theorem deepMerge_cons (lower rest : Entries) (key : Scalar) (value : Value) :
    deepMerge lower ((key, value) :: rest)
      = deepMerge (lower.insert key (mergeOver (lower.get? key) value)) rest := rfl

/-- Merging two lists of entries in turn is merging one behind the other. -/
theorem deepMerge_append (lower first second : Entries) :
    deepMerge lower (first ++ second) = deepMerge (deepMerge lower first) second := by
  induction first generalizing lower with
  | nil => rfl
  | cons entry rest inductionHypothesis =>
      rw [List.cons_append, deepMerge_cons, deepMerge_cons, inductionHypothesis]

/-! ## What a merge consists of -/

/-- A merge over entries that have a property has it. -/
theorem consists_deepMerge (below : Value.Consists plain (.mapping lower))
    (each : ∀ entry ∈ upper, (∃ name, entry.1 = .text name)
      ∧ ∀ old, (∀ value, old = some value → value.Consists plain) →
        (mergeOver old entry.2).Consists plain) :
    Value.Consists plain (.mapping (deepMerge lower upper)) := by
  induction upper generalizing lower with
  | nil => exact below
  | cons entry rest inductionHypothesis =>
      obtain ⟨key, value⟩ := entry
      obtain ⟨⟨⟨name, rfl⟩, merges⟩, others⟩ := List.forall_mem_cons.mp each
      rw [deepMerge_cons]
      refine inductionHypothesis (below.insert (merges _ fun present found => ?_)) others
      cases below with
      | mapping named all =>
          obtain ⟨entry, located, rfl⟩ := Option.map_eq_some_iff.mp found
          exact all entry (List.mem_of_find?_eq_some located)

/-- What is merged over a value consists of parts of both. -/
theorem Value.Consists.mergeOver (consists : value.Consists plain) :
    ∀ old, (∀ below, old = some below → below.Consists plain) →
      (Scaffold.mergeOver old value).Consists plain := by
  induction consists with
  | scalar isPlain => exact fun _ _ => .scalar isPlain
  | list all => exact fun _ _ => .list all
  | @mapping entries named all inductionHypothesis =>
      intro old below
      rw [mergeOver_mapping]
      refine consists_deepMerge ?_ fun entry member => ⟨?_, inductionHypothesis entry member⟩
      · unfold entriesOf
        split
        · exact below _ rfl
        · exact Value.consists_empty plain
      · exact named.texts entry.1 (List.mem_map_of_mem member)

/-- What is merged over entries consists of parts of both. -/
theorem Entries.Lays.deepMerge (lays : upper.Lays plain)
    (below : Value.Consists plain (.mapping lower)) :
    Value.Consists plain (.mapping (Scaffold.deepMerge lower upper)) :=
  consists_deepMerge below fun entry member => ⟨(lays entry member).1, (lays entry member).2.mergeOver⟩

/-- The entries of an object can be laid over others. -/
theorem Value.Consists.lays (consists : Value.Consists plain (.mapping upper)) : upper.Lays plain := by
  cases consists with
  | mapping named all =>
      exact fun entry member => ⟨named.texts entry.1 (List.mem_map_of_mem member), all entry member⟩

/-! ## Keys and values of a merge -/

/-- A merge has the keys of both sides. -/
theorem mem_keys_deepMerge {key : Scalar} (lays : upper.Lays plain) :
    key ∈ (deepMerge lower upper).keys ↔ key ∈ lower.keys ∨ key ∈ upper.keys := by
  induction upper generalizing lower with
  | nil => simp [deepMerge]
  | cons entry rest inductionHypothesis =>
      obtain ⟨key, value⟩ := entry
      obtain ⟨⟨⟨name, rfl⟩, _⟩, others⟩ := List.forall_mem_cons.mp lays
      rw [deepMerge_cons, inductionHypothesis others, Entries.keys_insert]
      by_cases present : .text name ∈ lower.keys
      · grind [Entries.keys_cons]
      · grind [Entries.keys_cons]

/-- A merge of keys that are present keeps the keys. -/
theorem keys_deepMerge_of_subset (lays : upper.Lays plain) (subset : upper.keys ⊆ lower.keys) :
    (deepMerge lower upper).keys = lower.keys := by
  induction upper generalizing lower with
  | nil => rfl
  | cons entry rest inductionHypothesis =>
      obtain ⟨key, value⟩ := entry
      obtain ⟨⟨⟨name, rfl⟩, _⟩, others⟩ := List.forall_mem_cons.mp lays
      obtain ⟨present, subset⟩ := List.cons_subset.mp subset
      have kept : (lower.insert (.text name) (mergeOver (lower.get? (.text name)) value)).keys
          = lower.keys := by rw [Entries.keys_insert, if_pos present]
      rw [deepMerge_cons, inductionHypothesis others (by rwa [kept]), kept]

/-- Under each name stands what is left of its values. -/
theorem get?_deepMerge (lays : upper.Lays plain) (name : String) :
    (deepMerge lower upper).get? (.text name)
      = mergeAll (lower.get? (.text name)) (upper.valuesUnder name) := by
  induction upper generalizing lower with
  | nil => rfl
  | cons entry rest inductionHypothesis =>
      obtain ⟨key, value⟩ := entry
      obtain ⟨⟨⟨other, rfl⟩, _⟩, others⟩ := List.forall_mem_cons.mp lays
      rw [deepMerge_cons, inductionHypothesis others, Entries.get?_insert]
      by_cases same : name = other
      · simp [Entries.valuesUnder, same, mergeAll]
      · simp [Entries.valuesUnder, same, Ne.symm same]

/-- Distinct keys have one value each. -/
theorem Entries.Named.valuesUnder (named : upper.Named) {name : String} {value : Value}
    (member : (.text name, value) ∈ upper) : upper.valuesUnder name = [value] := by
  induction upper with
  | nil => cases member
  | cons entry rest inductionHypothesis =>
      have absent : entry.1 ∉ Entries.keys rest := (List.nodup_cons.mp named.distinct).1
      rcases List.mem_cons.mp member with rfl | inside
      · have others : Entries.valuesUnder rest name = [] := by
          rw [Entries.valuesUnder, List.map_eq_nil_iff, List.filter_eq_nil_iff]
          intro entry later
          have present : entry.1 ∈ Entries.keys rest := List.mem_map_of_mem later
          have other : entry.1 ≠ .text name := fun same => absent (same ▸ present)
          simpa using other
        simpa [Entries.valuesUnder] using others
      · have present : .text name ∈ Entries.keys rest := List.mem_map_of_mem inside
        have other : entry.1 ≠ .text name := fun same => absent (by rwa [same])
        have later := inductionHypothesis named.tail inside
        simpa [Entries.valuesUnder, other] using later

/-- What is merged over a value has a property only if it consists of scalars with it. -/
theorem Value.Consists.of_mergeOver (consists : value.Consists fun _ => True) :
    ∀ old, (Scaffold.mergeOver old value).Consists plain → value.Consists plain := by
  induction consists with
  | scalar _ => exact fun _ merged => merged
  | list _ => exact fun _ merged => merged
  | @mapping entries named all inductionHypothesis =>
      intro old merged
      rw [mergeOver_mapping] at merged
      refine .mapping named fun entry member => ?_
      obtain ⟨key, value⟩ := entry
      obtain ⟨name, rfl⟩ := named.texts key (List.mem_map_of_mem member)
      have under : (deepMerge (entriesOf old) entries).get? (.text name) = _ :=
        get?_deepMerge (Value.Consists.mapping named all).lays name
      rw [named.valuesUnder member] at under
      obtain ⟨entry, located, same⟩ := Option.map_eq_some_iff.mp under
      refine inductionHypothesis _ member ((entriesOf old).get? (.text name)) ?_
      cases merged with
      | mapping _ each => exact same ▸ each entry (List.mem_of_find?_eq_some located)

/-! ## Merging once more -/

/-- Mappings that are merged in turn act as their entries behind each other. -/
theorem mergeAll_mappings (old : Option Value) (first : Entries) (more : List Entries) :
    mergeAll old ((first :: more).map .mapping)
      = some (.mapping (deepMerge (entriesOf old) (first :: more).flatten)) := by
  induction more generalizing old first with
  | nil => simp [mergeAll, mergeOver_mapping]
  | cons second more inductionHypothesis =>
      have step : mergeAll old ((first :: second :: more).map .mapping)
          = mergeAll (some (.mapping (deepMerge (entriesOf old) first)))
            ((second :: more).map .mapping) := by
        rw [← mergeOver_mapping]
        rfl
      rw [step, inductionHypothesis, entriesOf, ← deepMerge_append, ← List.flatten_cons]

/-- A list of values ends with mappings, which are all of it or stand behind another value. -/
theorem exists_mappings (values : List Value) :
    ∃ objects : List Entries, values = objects.map .mapping
      ∨ ∃ before other, (∀ entries, other ≠ .mapping entries)
        ∧ values = before ++ other :: objects.map .mapping := by
  induction values with
  | nil => exact ⟨[], .inl rfl⟩
  | cons value rest inductionHypothesis =>
      obtain ⟨objects, rfl | ⟨before, other, isOther, rfl⟩⟩ := inductionHypothesis
      · cases value with
        | mapping entries => exact ⟨entries :: objects, .inl rfl⟩
        | scalar content => exact ⟨objects, .inr ⟨[], _, by simp, rfl⟩⟩
        | list items => exact ⟨objects, .inr ⟨[], _, by simp, rfl⟩⟩
      · exact ⟨objects, .inr ⟨value :: before, other, isOther, rfl⟩⟩

/-- Values merged in turn leave the same when they are merged once more, if that is so of the entries of
mappings behind each other. -/
theorem mergeAll_idempotent {values : List Value}
    (inner : ∀ objects : List Entries, values = objects.map .mapping →
      deepMerge (deepMerge (entriesOf old) objects.flatten) objects.flatten
        = deepMerge (entriesOf old) objects.flatten) :
    mergeAll (mergeAll old values) values = mergeAll old values := by
  obtain ⟨objects, same | ⟨before, other, isOther, rfl⟩⟩ := exists_mappings values
  · cases objects with
    | nil => subst same; rfl
    | cons first more =>
        rw [same, mergeAll_mappings, mergeAll_mappings, entriesOf, inner _ same]
  · -- From the last value that is no mapping on, nothing depends on what was there before.
    have start : ∀ below, mergeAll below (before ++ other :: objects.map .mapping)
        = mergeAll (some other) (objects.map .mapping) := by
      intro below
      rw [mergeAll, List.foldl_append, List.foldl_cons, mergeOver_other _ isOther]
      rfl
    rw [start, start]

/-- The entries of a value under a name have the property of the whole. -/
theorem consists_entriesOf (below : Value.Consists plain (.mapping lower)) (name : String) :
    Value.Consists plain (.mapping (entriesOf (lower.get? (.text name)))) := by
  unfold entriesOf
  split
  next entries found =>
    cases below with
    | mapping named all =>
        obtain ⟨entry, located, same⟩ := Option.map_eq_some_iff.mp found
        exact same ▸ all entry (List.mem_of_find?_eq_some located)
  next => exact Value.consists_empty plain

/-- The value of an entry is smaller than the entries. -/
theorem Entries.sizeOf_lt {entry : Scalar × Value} (member : entry ∈ upper) :
    sizeOf entry.2 < sizeOf upper := by
  have smaller := List.sizeOf_lt_of_mem member
  obtain ⟨key, value⟩ := entry
  simp only [Prod.mk.sizeOf_spec] at smaller ⊢
  omega

/-- Merging a list of entries once more changes nothing. -/
theorem deepMerge_idempotent (below : Value.Consists plain (.mapping lower))
    (lays : upper.Lays plain) :
    deepMerge (deepMerge lower upper) upper = deepMerge lower upper := by
  obtain ⟨bound, small⟩ : ∃ bound, ∀ entry ∈ upper, sizeOf entry.2 < bound :=
    ⟨sizeOf upper, fun _ => Entries.sizeOf_lt⟩
  -- The objects under one name are merged as entries behind each other, whose values are smaller.
  induction bound generalizing lower upper with
  | zero =>
      obtain rfl : upper = [] := List.eq_nil_iff_forall_not_mem.mpr fun entry member =>
        absurd (small entry member) (Nat.not_lt_zero _)
      rfl
  | succ bound inductionHypothesis =>
      have merged := lays.deepMerge below
      have sameKeys : (deepMerge (deepMerge lower upper) upper).keys = (deepMerge lower upper).keys :=
        keys_deepMerge_of_subset lays fun key member => (mem_keys_deepMerge lays).mpr (.inr member)
      cases lays.deepMerge merged with
      | mapping named all =>
          refine named.ext sameKeys fun name => ?_
          rw [get?_deepMerge lays, get?_deepMerge lays]
          refine mergeAll_idempotent fun objects same => ?_
          have inside : ∀ object ∈ objects, (.text name, .mapping object) ∈ upper := by
            intro object member
            have value : Value.mapping object ∈ upper.valuesUnder name :=
              same ▸ List.mem_map_of_mem member
            obtain ⟨⟨key, value⟩, present, rfl⟩ := List.mem_map.mp value
            obtain ⟨present, isName⟩ := List.mem_filter.mp present
            exact of_decide_eq_true isName ▸ present
          refine inductionHypothesis (consists_entriesOf below name) ?_ ?_
          · intro entry member
            obtain ⟨object, isObject, member⟩ := List.mem_flatten.mp member
            exact (lays _ (inside object isObject)).2.lays entry member
          · intro entry member
            obtain ⟨object, isObject, member⟩ := List.mem_flatten.mp member
            have outer := small _ (inside object isObject)
            have inner := Entries.sizeOf_lt member
            simp only [Value.mapping.sizeOf_spec] at outer
            omega

end Scaffold
