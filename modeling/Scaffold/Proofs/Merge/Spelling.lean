import Scaffold.Merge.Apply
import Scaffold.Proofs.Json.Names
import Scaffold.Proofs.Merge.Overlay
import Scaffold.Proofs.Value.Keyed

/-!
# Merging an object into what is read of the merge

A mapping that is laid over an object is written with texts as keys, so what is read afterwards is not what
was written if a key was no text.  An object with texts as keys meets its own names when it is merged once
more, and changes nothing (`MergeMode.combine_reread`).  A key that is no text does not meet its own name
and is written beside it (`textKeyed_of_reread`).
-/

namespace Scaffold

open Json

variable {entries lower upper : Entries} {old : Option Value} {key other : Scalar} {name : String}
  {value : Value} {plain : Scalar → Prop}

/-! ## Keys -/

/-- A text is the same key as nothing but a text. -/
@[simp] theorem Scalar.sameKey_text_left (key : Scalar) (name : String) :
    (Scalar.text name).sameKey key = (.text name == key) := by
  cases key with
  | text other =>
      by_cases same : name = other
      · simp [same]
      · rw [sameKey_text, beq_eq_false_iff_ne.mpr same, eq_comm, beq_eq_false_iff_ne]
        exact fun equal => same (Scalar.text.inj equal)
  | _ => rfl

/-- A value whose keys are distinct texts wherever a merge goes into it, which is into mappings only. -/
inductive Value.TextKeyed : Value → Prop where
  | leaf {value : Value} (isLeaf : value.IsLeaf) : TextKeyed value
  | mapping {entries : Entries} (named : entries.Named) (all : ∀ entry ∈ entries, TextKeyed entry.2) :
      TextKeyed (.mapping entries)

/-- The keys of the lower side stay in a merge. -/
theorem subset_keys_deepMerge : lower.keys ⊆ (deepMerge lower upper).keys := by
  induction upper generalizing lower with
  | nil => exact List.Subset.refl _
  | cons entry rest inductionHypothesis =>
      rw [deepMerge_cons]
      exact List.Subset.trans Entries.subset_keys_insert inductionHypothesis

/-- A key of the upper side that no key of the lower side is the same as is added by a merge. -/
theorem mem_keys_deepMerge_of_differs (differ : upper.KeysDiffer) (member : key ∈ upper.keys)
    (differs : ∀ present ∈ lower.keys, present.sameKey key = false) :
    key ∈ (deepMerge lower upper).keys := by
  induction upper generalizing lower with
  | nil => cases member
  | cons entry rest inductionHypothesis =>
      obtain ⟨first, value⟩ := entry
      obtain ⟨apart, others⟩ := List.pairwise_cons.mp differ
      rw [deepMerge_cons]
      rcases List.mem_cons.mp member with rfl | later
      · exact subset_keys_deepMerge (Entries.mem_keys_insert_of_differs differs)
      · refine inductionHypothesis others later fun present inside => ?_
        rcases Entries.mem_or_eq_of_mem_keys_insert inside with before | rfl
        · exact differs present before
        · exact apart key later

/-! ## Objects that are written apart -/

/-- Distinct texts are written differently. -/
theorem Entries.Named.nodup_keyText (named : entries.Named) :
    (entries.map fun entry => keyText entry.1).Nodup := by
  have distinct : (entries.keys.map keyText).Nodup := by
    refine named.distinct.map_on fun first isFirst second isSecond same => ?_
    obtain ⟨left, rfl⟩ := named.texts first isFirst
    obtain ⟨right, rfl⟩ := named.texts second isSecond
    exact congrArg Scalar.text same
  rwa [Entries.keys, List.map_map] at distinct

/-- Entries with distinct texts as keys are written apart if the values under them are. -/
theorem Entries.Named.speltApart_iff (named : entries.Named) : (Value.mapping entries).SpeltApart
    ↔ ∀ name value, entries.get? (.text name) = some value → value.SpeltApart := by
  rw [speltApart_mapping, and_iff_right named.nodup_keyText]
  constructor
  · exact fun all name value found => all _ (named.get?_eq_some_iff.mp found)
  · intro all entry member
    obtain ⟨name, isText⟩ := named.texts entry.1 (List.mem_map_of_mem member)
    exact all name entry.2 (named.get?_eq_some_iff.mpr (isText ▸ member))

/-- What a document can hold is written apart. -/
theorem Value.Consists.speltApart (consists : value.Consists plain) : value.SpeltApart := by
  induction consists with
  | scalar _ => exact .scalar
  | list _ inductionHypothesis => exact .list inductionHypothesis
  | mapping named _ inductionHypothesis => exact .mapping named.nodup_keyText inductionHypothesis

/-! ## Laying over -/

/-- A way to lay entries over others: new keys follow the others, and under each name stands what is laid
there over what was there. -/
structure Layering (lay : Entries → Entries → Entries) (upon : Option Value → Value → Value) : Prop where
  keys : ∀ {lower upper : Entries}, upper.Named →
    (lay lower upper).keys = lower.keys ++ upper.keys.filter fun key => key ∉ lower.keys
  get? : ∀ {lower upper : Entries}, upper.Named → ∀ name, (lay lower upper).get? (.text name)
    = match upper.get? (.text name) with
      | none => lower.get? (.text name)
      | some value => some (upon (lower.get? (.text name)) value)

/-- The deep merge lays values over others by merging them. -/
theorem layering_deepMerge : Layering deepMerge mergeOver :=
  ⟨keys_deepMerge_of_named, get?_deepMerge_of_named⟩

/-- A value that is laid over another by itself takes its place. -/
theorem layering_overlay : Layering Entries.overlay fun _ value => value := by
  refine ⟨Entries.Named.keys_overlay, fun named name => ?_⟩
  rw [named.get?_overlay]
  cases Entries.get? _ (.text name) <;> rfl

variable {lay : Entries → Entries → Entries} {upon : Option Value → Value → Value}

/-- Entries with distinct texts as keys, laid over such entries, have such keys. -/
theorem Layering.named (lays : Layering lay upon) (below : lower.Named) (named : upper.Named) :
    (lay lower upper).Named := by
  have keys : (lay lower upper).keys = _ := lays.keys named
  refine ⟨fun key member => ?_, ?_⟩
  · rw [keys, List.mem_append] at member
    exact member.elim (below.texts key) fun new => named.texts key (List.mem_filter.mp new).1
  · rw [keys]
    refine below.distinct.append (named.distinct.filter _) fun key present new => ?_
    exact absurd present (by simpa using (List.mem_filter.mp new).2)

/-- What is read of entries that are laid over an object stands under each name as it settles. -/
theorem Layering.get?_reread (lays : Layering lay upon) (below : IsDocument (.mapping lower))
    (named : upper.Named) (name : String) :
    Entries.get? (Entries.ofPairs (settledEntries (lay lower upper))) (.text name)
      = match upper.get? (.text name) with
        | none => lower.get? (.text name)
        | some value => some (settled (upon (lower.get? (.text name)) value)) := by
  rw [get?_settledEntries (lays.named below.named named), lays.get? named]
  cases upper.get? (.text name) with
  | some value => rfl
  | none =>
      cases found : lower.get? (.text name) with
      | none => rfl
      | some value => exact congrArg some (settled_eq_self (below.of_get? found))

/-- Entries that are laid once more over what is read change nothing if no value does. -/
theorem Layering.reread (lays : Layering lay upon) (below : IsDocument (.mapping lower)) (named : upper.Named)
    (again : ∀ name value, upper.get? (.text name) = some value →
      upon (some (settled (upon (lower.get? (.text name)) value))) value
        = upon (lower.get? (.text name)) value) :
    lay (Entries.ofPairs (settledEntries (lay lower upper))) upper = lay lower upper := by
  have once := lays.named below.named named
  have sameKeys := keys_settledEntries once
  refine Entries.Named.ext (lays.named ?_ named) ?_ fun name => ?_
  · exact ⟨sameKeys ▸ once.texts, sameKeys ▸ once.distinct⟩
  · -- All keys of the upper side are there already.
    have present : ∀ key ∈ upper.keys, key ∈ (lay lower upper).keys := by
      intro key member
      rw [lays.keys named, List.mem_append, List.mem_filter]
      by_cases old : key ∈ lower.keys
      · exact .inl old
      · exact .inr ⟨member, by simpa using old⟩
    have nothing : upper.keys.filter (fun key => key ∉ (lay lower upper).keys) = [] :=
      List.filter_eq_nil_iff.mpr fun key member => by simpa using present key member
    rw [lays.keys named, sameKeys, nothing, List.append_nil]
  · rw [lays.get? named, lays.get?_reread below named, lays.get? named]
    cases found : upper.get? (.text name) with
    | none => rfl
    | some value => exact congrArg some (again name value found)

/-- Entries that are laid over an object are written apart just if they are, if that is so of each value. -/
theorem Layering.speltApart_iff (lays : Layering lay upon) (below : IsDocument (.mapping lower))
    (named : upper.Named)
    (each : ∀ name value, upper.get? (.text name) = some value →
      ((upon (lower.get? (.text name)) value).SpeltApart ↔ value.SpeltApart)) :
    (Value.mapping (lay lower upper)).SpeltApart ↔ (Value.mapping upper).SpeltApart := by
  rw [(lays.named below.named named).speltApart_iff, named.speltApart_iff]
  constructor
  · intro all name value found
    exact (each name value found).mp (all name _ (by rw [lays.get? named, found]))
  · intro all name value found
    rw [lays.get? named] at found
    cases laid : upper.get? (.text name) with
    | none =>
        rw [laid] at found
        exact (below.of_get? found).speltApart
    | some inner =>
        rw [laid] at found
        exact Option.some.inj found ▸ (each name inner laid).mpr (all name inner laid)

/-! ## Merging once more -/

/-- What was there before a merge is what a document can hold. -/
def WasRead (old : Option Value) : Prop := ∀ below, old = some below → IsDocument below

/-- So are the entries of what was there. -/
theorem WasRead.entriesOf (read : WasRead old) : IsDocument (.mapping (entriesOf old)) := by
  unfold Scaffold.entriesOf
  split
  · exact read _ rfl
  · exact Value.consists_empty IsPlain

/-- And so is the value under each name. -/
theorem WasRead.get? (below : IsDocument (.mapping lower)) (name : String) :
    WasRead (lower.get? (.text name)) :=
  fun _ found => below.of_get? found

/-- What is read after a mapping was merged over a value has the entries of the merge, as they settle. -/
theorem entriesOf_reread (old : Option Value) (upper : Entries) :
    entriesOf (some (settled (mergeOver old (.mapping upper))))
      = Entries.ofPairs (settledEntries (deepMerge (entriesOf old) upper)) := by
  rw [mergeOver_mapping]
  rfl

/-- A value with texts as keys, merged once more into what is read of the merge, changes nothing. -/
theorem mergeOver_reread (keyed : value.TextKeyed) : ∀ old, WasRead old →
    mergeOver (some (settled (mergeOver old value))) value = mergeOver old value := by
  induction keyed with
  | leaf isLeaf => exact fun old _ => by rw [mergeOver_other _ isLeaf, mergeOver_other _ isLeaf]
  | @mapping upper named all inductionHypothesis =>
      intro old read
      have again : deepMerge (Entries.ofPairs (settledEntries (deepMerge (entriesOf old) upper))) upper
          = deepMerge (entriesOf old) upper :=
        layering_deepMerge.reread read.entriesOf named fun name value found =>
          inductionHypothesis _ (named.get?_eq_some_iff.mp found) _ (.get? read.entriesOf name)
      rw [mergeOver_mapping, entriesOf_reread, again, mergeOver_mapping]

/-- A value with texts as keys, merged over one that was read, is written apart just if it is by itself. -/
theorem speltApart_mergeOver (keyed : value.TextKeyed) : ∀ old, WasRead old →
    ((mergeOver old value).SpeltApart ↔ value.SpeltApart) := by
  induction keyed with
  | leaf isLeaf => exact fun old _ => by rw [mergeOver_other _ isLeaf]
  | @mapping upper named all inductionHypothesis =>
      intro old read
      rw [mergeOver_mapping]
      exact layering_deepMerge.speltApart_iff read.entriesOf named fun name value found =>
        inductionHypothesis _ (named.get?_eq_some_iff.mp found) _ (.get? read.entriesOf name)

/-- What is read of entries has texts as keys, the one of every key among them. -/
theorem texts_reread (entries : Entries) :
    ∀ key ∈ (Entries.ofPairs (settledEntries entries)).keys, ∃ name, key = .text name :=
  (Entries.named_nil.overlay fun key member => by
    rw [settledEntries_eq, Entries.keys, List.map_map] at member
    obtain ⟨entry, -, rfl⟩ := List.mem_map.mp member
    exact ⟨_, rfl⟩).texts

/-- The text of every key is read as a key. -/
theorem keyText_mem_reread (present : key ∈ entries.keys) :
    .text (keyText key) ∈ (Entries.ofPairs (settledEntries entries)).keys := by
  obtain ⟨entry, member, rfl⟩ := List.mem_map.mp present
  refine Entries.mem_keys_overlay.mpr (.inr ?_)
  rw [settledEntries_eq, Entries.keys, List.map_map]
  exact List.mem_map.mpr ⟨entry, member, rfl⟩

/-- A key that is no text, laid over an object, is laid beside its own text when this is done once more. -/
theorem exists_text_of_reread (differ : upper.KeysDiffer) (below : lower.Named) (member : key ∈ upper.keys)
    (apart : ((deepMerge (Entries.ofPairs (settledEntries (deepMerge lower upper))) upper).map
      fun entry => keyText entry.1).Nodup) :
    ∃ name, key = .text name := by
  by_contra noText
  have differs : ∀ {entries : Entries}, (∀ key ∈ entries.keys, ∃ name, key = .text name) →
      ∀ present ∈ entries.keys, present.sameKey key = false := by
    intro entries texts present inside
    obtain ⟨name, rfl⟩ := texts present inside
    rw [Scalar.sameKey_text_left, beq_eq_false_iff_ne]
    exact fun same => noText ⟨name, same.symm⟩
  have laid : key ∈ (deepMerge lower upper).keys :=
    mem_keys_deepMerge_of_differs differ member (differs below.texts)
  have laidAgain := mem_keys_deepMerge_of_differs differ member
    (differs (texts_reread (deepMerge lower upper)))
  have text : .text (keyText key)
      ∈ (deepMerge (Entries.ofPairs (settledEntries (deepMerge lower upper))) upper).keys :=
    subset_keys_deepMerge (keyText_mem_reread laid)
  have distinct := apart
  rw [← Function.comp_def keyText Prod.fst, ← List.map_map] at distinct
  exact noText ⟨_, List.inj_on_of_nodup_map distinct laidAgain text rfl⟩

/-- A mapping that is written apart after it was merged once more into what is read of the merge has texts as
keys. -/
theorem textKeyed_of_reread (keyed : value.Keyed) : ∀ old, WasRead old →
    (mergeOver (some (settled (mergeOver old value))) value).SpeltApart → value.TextKeyed := by
  induction keyed with
  | scalar => exact fun _ _ _ => .leaf nofun
  | list _ => exact fun _ _ _ => .leaf nofun
  | @mapping upper differ all inductionHypothesis =>
      intro old read apart
      rw [mergeOver_mapping, entriesOf_reread] at apart
      have below := read.entriesOf
      have named : upper.Named := differ.named fun key member =>
        exists_text_of_reread differ below.named member (speltApart_mapping.mp apart).1
      refine .mapping named fun entry member => ?_
      obtain ⟨name, isText⟩ := named.texts entry.1 (List.mem_map_of_mem member)
      have found : upper.get? (.text name) = some entry.2 :=
        named.get?_eq_some_iff.mpr (isText ▸ member)
      refine inductionHypothesis entry member _ (.get? below name) ?_
      -- Under its name stands the value, merged over what is read of it.
      have under : (deepMerge (Entries.ofPairs (settledEntries (deepMerge (entriesOf old) upper)))
          upper).get? (.text name) = _ := get?_deepMerge_of_named named name
      rw [layering_deepMerge.get?_reread below named, found] at under
      obtain ⟨place, located, same⟩ := Option.map_eq_some_iff.mp under
      exact same ▸ (speltApart_mapping.mp apart).2 place (List.mem_of_find?_eq_some located)

/-! ## Modes -/

namespace MergeMode

variable {mode : MergeMode} {current data : Entries}

/-- A mode goes into the mappings of an object only to meet texts: the deep merge needs them as keys, and any
other mode goes into none. -/
def GoesByTexts (mode : MergeMode) (data : Entries) : Prop := mode = .deep → (Value.mapping data).TextKeyed

/-- Combining an object once more with what is read changes nothing if that goes by texts. -/
theorem combine_reread (read : IsDocument (.mapping current)) (named : data.Named)
    (texts : mode.GoesByTexts data) :
    mode.combine (Entries.ofPairs (settledEntries (mode.combine current data))) data
      = mode.combine current data := by
  cases mode with
  | deep =>
      have again := mergeOver_reread (texts rfl) (some (.mapping current))
        fun below same => Option.some.inj same ▸ read
      rw [mergeOver_mapping, entriesOf_reread, mergeOver_mapping] at again
      exact Value.mapping.inj again
  | shallow => exact layering_overlay.reread read named fun _ _ _ => rfl
  | replace => rfl

/-- A combined object is written apart just if the data are, if that goes by texts. -/
theorem speltApart_combine (read : IsDocument (.mapping current)) (named : data.Named)
    (texts : mode.GoesByTexts data) :
    (Value.mapping (mode.combine current data)).SpeltApart ↔ (Value.mapping data).SpeltApart := by
  cases mode with
  | deep =>
      have apart := speltApart_mergeOver (texts rfl) (some (.mapping current))
        fun below same => Option.some.inj same ▸ read
      rwa [mergeOver_mapping] at apart
  | shallow => exact layering_overlay.speltApart_iff read named fun _ _ _ => Iff.rfl
  | replace => exact Iff.rfl

/-- If an object is written apart after it was combined once more with what is read, that goes by texts. -/
theorem goesByTexts_of_reread (read : IsDocument (.mapping current)) (keyed : (Value.mapping data).Keyed)
    (apart : (Value.mapping
      (mode.combine (Entries.ofPairs (settledEntries (mode.combine current data))) data)).SpeltApart) :
    mode.GoesByTexts data := by
  rintro rfl
  refine textKeyed_of_reread keyed (some (.mapping current)) (fun below same => Option.some.inj same ▸ read) ?_
  rw [mergeOver_mapping, entriesOf_reread]
  exact apart

end MergeMode

end Scaffold
