import Scaffold.Proofs.Merge.DeepMerge

/-!
# The deep merge, leaf by leaf

A path of names leads into a value (`Value.at?`).  What a merge has at a path is settled by what both sides
have there, unless the upper side has a leaf above it (`at?_mergeOver`).  So an object that is merged over
another is laid over its leaves, and its new keys follow the old ones at every level (`deepMerge_overlays`).
-/

namespace Scaffold

variable {lower upper : Entries} {old : Option Value} {value leaf : Value} {name : String}
  {path front : List String}

/-! ## One level -/

/-- Under a name stands what the upper side has there, merged over what was there. -/
theorem get?_deepMerge_of_named (named : upper.Named) (name : String) :
    (deepMerge lower upper).get? (.text name)
      = match upper.get? (.text name) with
        | none => lower.get? (.text name)
        | some value => some (mergeOver (lower.get? (.text name)) value) := by
  induction upper generalizing lower with
  | nil => rfl
  | cons entry rest inductionHypothesis =>
      obtain ⟨key, value⟩ := entry
      obtain ⟨other, rfl⟩ := named.texts key (by simp)
      rw [deepMerge_cons, inductionHypothesis named.tail, Entries.get?_cons, Entries.get?_insert]
      by_cases same : name = other
      · have absent : Entries.get? rest (.text other) = none :=
          Entries.get?_eq_none_iff.mpr (List.nodup_cons.mp named.distinct).1
        simp [same, absent]
      · simp [same, Ne.symm same]

/-- A merge has the keys that the same entries laid over others have. -/
theorem keys_deepMerge {laid : Entries} (sameKeys : lower.keys = laid.keys) (named : upper.Named) :
    (deepMerge lower upper).keys = (laid.overlay upper).keys := by
  induction upper generalizing lower laid with
  | nil => exact sameKeys
  | cons entry rest inductionHypothesis =>
      obtain ⟨key, value⟩ := entry
      obtain ⟨name, rfl⟩ := named.texts key (by simp)
      exact inductionHypothesis (by rw [Entries.keys_insert, Entries.keys_insert, sameKeys]) named.tail

/-- The new keys of the upper side follow the keys of the lower side. -/
theorem keys_deepMerge_of_named (named : upper.Named) :
    (deepMerge lower upper).keys = lower.keys ++ upper.keys.filter fun key => key ∉ lower.keys :=
  (keys_deepMerge rfl named).trans named.keys_overlay

/-! ## Paths -/

/-- What a path of names leads to inside of a value. -/
def Value.at? : Value → List String → Option Value
  | value, [] => some value
  | .mapping entries, name :: path => (Entries.get? entries (.text name)).bind fun inner => inner.at? path
  | _, _ :: _ => none

/-- A value that is no object. -/
def Value.IsLeaf (value : Value) : Prop := ∀ entries, value ≠ .mapping entries

/-- A value has a leaf above a path. -/
def Value.EndsAbove (value : Value) (path : List String) : Prop :=
  ∃ front leaf, front <+: path ∧ front ≠ path ∧ value.at? front = some leaf ∧ leaf.IsLeaf

@[simp] theorem Value.at?_nil (value : Value) : value.at? [] = some value := by
  cases value <;> rfl

theorem Value.at?_mapping (entries : Entries) (name : String) (path : List String) :
    (Value.mapping entries).at? (name :: path)
      = (Entries.get? entries (.text name)).bind fun inner => inner.at? path := rfl

/-- No path leads into a leaf. -/
theorem Value.IsLeaf.at?_cons (isLeaf : leaf.IsLeaf) (name : String) (path : List String) :
    leaf.at? (name :: path) = none := by
  cases leaf with
  | scalar content => rfl
  | list items => rfl
  | mapping entries => exact absurd rfl (isLeaf entries)

/-- A value is an object or a leaf. -/
theorem Value.isLeaf_or (value : Value) : value.IsLeaf ∨ ∃ entries, value = .mapping entries := by
  cases value with
  | scalar content => exact .inl nofun
  | list items => exact .inl nofun
  | mapping entries => exact .inr ⟨entries, rfl⟩

/-- A path is followed one part after the other. -/
theorem Value.at?_append (value : Value) (front path : List String) :
    value.at? (front ++ path) = (value.at? front).bind fun inner => inner.at? path := by
  induction front generalizing value with
  | nil => simp
  | cons name front inductionHypothesis =>
      rcases value.isLeaf_or with isLeaf | ⟨entries, rfl⟩
      · rw [List.cons_append, isLeaf.at?_cons, isLeaf.at?_cons]
        rfl
      · rw [List.cons_append, at?_mapping, at?_mapping, Option.bind_assoc]
        exact Option.bind_congr fun inner _ => inductionHypothesis inner

/-- Nothing stands below a leaf. -/
theorem Value.EndsAbove.at?_eq_none (ends : value.EndsAbove path) : value.at? path = none := by
  obtain ⟨front, leaf, ⟨rest, rfl⟩, differs, found, isLeaf⟩ := ends
  cases rest with
  | nil => exact absurd (List.append_nil front).symm differs
  | cons name rest => rw [at?_append, found, Option.bind_some, isLeaf.at?_cons]

/-- An object has a leaf above a path if the value under the first name has one above the rest. -/
theorem Value.endsAbove_cons {entries : Entries} :
    (Value.mapping entries).EndsAbove (name :: path)
      ↔ ∃ inner, Entries.get? entries (.text name) = some inner ∧ inner.EndsAbove path := by
  constructor
  · rintro ⟨front, leaf, isPrefix, differs, found, isLeaf⟩
    cases front with
    | nil => exact absurd (Option.some.inj ((at?_nil _).symm.trans found)).symm (isLeaf entries)
    | cons first front =>
        obtain ⟨rfl, shorter⟩ := List.cons_prefix_cons.mp isPrefix
        rw [at?_mapping] at found
        obtain ⟨inner, present, found⟩ := Option.bind_eq_some_iff.mp found
        exact ⟨inner, present, front, leaf, shorter, fun same => differs (by rw [same]), found, isLeaf⟩
  · rintro ⟨inner, present, front, leaf, isPrefix, differs, found, isLeaf⟩
    refine ⟨name :: front, leaf, List.cons_prefix_cons.mpr ⟨rfl, isPrefix⟩, by simpa using differs, ?_, isLeaf⟩
    rw [at?_mapping, present, Option.bind_some, found]

/-- A leaf is above every path into it, and an object above none. -/
theorem Value.IsLeaf.endsAbove_cons (isLeaf : leaf.IsLeaf) (name : String) (path : List String) :
    leaf.EndsAbove (name :: path) :=
  ⟨[], leaf, List.nil_prefix, nofun, at?_nil leaf, isLeaf⟩

/-- Nothing is above the empty path. -/
theorem Value.not_endsAbove_nil (value : Value) : ¬value.EndsAbove [] := by
  rintro ⟨front, _, isPrefix, differs, _⟩
  exact differs (List.prefix_nil.mp isPrefix)

/-- What a path leads to in the entries that were there. -/
theorem at?_entriesOf (old : Option Value) (name : String) (path : List String) :
    ((entriesOf old).get? (.text name)).bind (fun inner => inner.at? path)
      = old.bind fun value => value.at? (name :: path) := by
  cases old with
  | none => rfl
  | some value =>
      rcases value.isLeaf_or with isLeaf | ⟨entries, rfl⟩
      · have nothing : entriesOf (some value) = [] := by
          cases value with
          | mapping entries => exact absurd rfl (isLeaf entries)
          | _ => rfl
        rw [nothing, Option.bind_some, isLeaf.at?_cons]
        rfl
      · rfl

/-- What a path leads to in a value is made of the same parts. -/
theorem Value.Consists.of_at? {plain : Scalar → Prop} (consists : value.Consists plain)
    (found : value.at? path = some leaf) : leaf.Consists plain := by
  induction path generalizing value with
  | nil =>
      rw [at?_nil] at found
      exact Option.some.inj found ▸ consists
  | cons name path inductionHypothesis =>
      rcases value.isLeaf_or with isLeaf | ⟨entries, rfl⟩
      · rw [isLeaf.at?_cons] at found
        cases found
      · rw [at?_mapping] at found
        obtain ⟨inner, present, found⟩ := Option.bind_eq_some_iff.mp found
        exact inductionHypothesis (consists.of_get? present) found

/-! ## Merges at a path -/

/-- Below a leaf of the upper value a merge has nothing.  At any other path it has what the upper value has
there, merged over what was there, or what was there if the upper value has nothing. -/
theorem at?_mergeOver {plain : Scalar → Prop} (consists : value.Consists plain) (old : Option Value)
    (path : List String) :
    (value.EndsAbove path → (mergeOver old value).at? path = none)
      ∧ (¬value.EndsAbove path → (mergeOver old value).at? path
        = match value.at? path with
          | none => old.bind fun below => below.at? path
          | some upper => some (mergeOver (old.bind fun below => below.at? path) upper)) := by
  induction path generalizing value old with
  | nil => exact ⟨fun ends => absurd ends value.not_endsAbove_nil, fun _ => by simp⟩
  | cons name path inductionHypothesis =>
      rcases value.isLeaf_or with isLeaf | ⟨entries, rfl⟩
      · refine ⟨fun _ => ?_, fun free => absurd (isLeaf.endsAbove_cons name path) free⟩
        rw [mergeOver_other old isLeaf, isLeaf.at?_cons]
      · have level : (deepMerge (entriesOf old) entries).get? (.text name) = _ :=
          get?_deepMerge_of_named consists.named name
        rw [mergeOver_mapping, Value.at?_mapping, Value.at?_mapping, level, Value.endsAbove_cons]
        cases present : Entries.get? entries (.text name) with
        | none => exact ⟨by simp, fun _ => at?_entriesOf old name path⟩
        | some inner =>
            have further := inductionHypothesis (consists.of_get? present)
              ((entriesOf old).get? (.text name))
            rw [at?_entriesOf] at further
            simpa using further

/-- An object merged over another is laid over it leaf by leaf.  At every path the merge has a leaf of the
upper object, or one of the lower object where the upper one has nothing and no leaf above.  At every level
the keys of the lower object come first, in their order, and the new keys of the upper object follow in
theirs.  Merging the upper object once more changes nothing. -/
theorem deepMerge_overlays (below : Value.Consists (fun _ => True) (.mapping lower))
    (above : Value.Consists (fun _ => True) (.mapping upper)) :
    (∀ (path : List String) (leaf : Value), leaf.IsLeaf →
      ((Value.mapping (deepMerge lower upper)).at? path = some leaf
        ↔ (Value.mapping upper).at? path = some leaf
          ∨ (Value.mapping lower).at? path = some leaf ∧ (Value.mapping upper).at? path = none
            ∧ ∀ front, front <+: path → front ≠ path → ∀ value,
              (Value.mapping upper).at? front = some value → ¬value.IsLeaf))
      ∧ (∀ (path : List String) (entries : Entries),
        (Value.mapping (deepMerge lower upper)).at? path = some (.mapping entries) →
          let first := (entriesOf ((Value.mapping lower).at? path)).keys
          let second := (entriesOf ((Value.mapping upper).at? path)).keys
          entries.keys = first ++ second.filter fun key => key ∉ first)
      ∧ deepMerge (deepMerge lower upper) upper = deepMerge lower upper := by
  have merged : Value.mapping (deepMerge lower upper) = mergeOver (some (.mapping lower)) (.mapping upper) :=
    (mergeOver_mapping (some (.mapping lower)) upper).symm
  refine ⟨fun path leaf isLeaf => ?_, fun path entries found => ?_, deepMerge_idempotent below above.lays⟩
  · obtain ⟨covered, free⟩ := at?_mergeOver above (some (.mapping lower)) path
    have noLeaf : (∀ front, front <+: path → front ≠ path → ∀ value,
        (Value.mapping upper).at? front = some value → ¬value.IsLeaf)
          ↔ ¬(Value.mapping upper).EndsAbove path := by
      simp only [Value.EndsAbove, not_exists, not_and]
      exact ⟨fun none front other isPrefix differs found => none front isPrefix differs other found,
        fun none front isPrefix differs other found => none front other isPrefix differs found⟩
    rw [merged, noLeaf]
    by_cases ends : (Value.mapping upper).EndsAbove path
    · simp [covered ends, ends.at?_eq_none, ends]
    · rw [free ends]
      cases found : (Value.mapping upper).at? path with
      | none => simp [ends]
      | some value =>
          rcases value.isLeaf_or with single | ⟨inner, rfl⟩
          · simp [mergeOver_other _ single]
          · simp [mergeOver_mapping, Ne.symm (isLeaf _)]
  · obtain ⟨covered, free⟩ := at?_mergeOver above (some (.mapping lower)) path
    rw [merged] at found
    have open' : ¬(Value.mapping upper).EndsAbove path := fun ends => by
      rw [covered ends] at found
      cases found
    rw [free open', Option.bind_some] at found
    cases standing : (Value.mapping upper).at? path with
    | none =>
        rw [standing] at found
        simp [show (Value.mapping lower).at? path = some (.mapping entries) from found, entriesOf]
    | some value =>
        rw [standing] at found
        replace found := Option.some.inj found
        rcases value.isLeaf_or with isLeaf | ⟨inner, rfl⟩
        · rw [mergeOver_other _ isLeaf] at found
          exact absurd found (isLeaf entries)
        · rw [mergeOver_mapping] at found
          obtain rfl := Value.mapping.inj found
          exact keys_deepMerge_of_named (above.of_at? standing).named

/-- An object with two levels. -/
def settings : Entries :=
  [(.text "a", .mapping [(.text "b", .text "x"), (.text "c", .null)]), (.text "d", .bool true)]

/-- An object that replaces a leaf of the settings by an object and a leaf by a leaf, and has new keys. -/
def changes : Entries :=
  [(.text "e", .null), (.text "a", .mapping [(.text "f", .null), (.text "b", .mapping [])]), (.text "d", .null)]

/-- Changes that are merged over settings: one leaf of the settings stays, below an object that both have,
and the new keys stand behind the old ones. -/
theorem deepMerge_overlays_settings :
    Value.Consists (fun _ => True) (.mapping settings) ∧ Value.Consists (fun _ => True) (.mapping changes)
      ∧ (Value.mapping (deepMerge settings changes)).at? ["a", "c"] = some .null
      ∧ (Value.mapping (deepMerge settings changes)).at? ["d"] = some .null
      ∧ (deepMerge settings changes).keys = [.text "a", .text "d", .text "e"]
      ∧ deepMerge (deepMerge settings changes) changes = deepMerge settings changes := by
  have below : Value.Consists (fun _ => True) (.mapping settings) := by
    refine .mapping ⟨by simp [settings], by decide⟩ ?_
    simp only [settings, List.forall_mem_cons]
    refine ⟨.mapping ⟨by simp, by decide⟩ ?_, .scalar trivial, nofun⟩
    simp only [List.forall_mem_cons]
    exact ⟨.scalar trivial, .scalar trivial, nofun⟩
  have above : Value.Consists (fun _ => True) (.mapping changes) := by
    refine .mapping ⟨by simp [changes], by decide⟩ ?_
    simp only [changes, List.forall_mem_cons]
    refine ⟨.scalar trivial, .mapping ⟨by simp, by decide⟩ ?_, .scalar trivial, nofun⟩
    simp only [List.forall_mem_cons]
    exact ⟨.scalar trivial, Value.consists_empty _, nofun⟩
  obtain ⟨leaves, levels, again⟩ := deepMerge_overlays below above
  have untouched : ∀ front, front <+: ["a", "c"] → front ≠ ["a", "c"] → ∀ value,
      (Value.mapping changes).at? front = some value → ¬value.IsLeaf := by
    intro front isPrefix differs value found isLeaf
    have short : front = [] ∨ front = ["a"] := by
      rcases List.prefix_cons_iff.mp isPrefix with rfl | ⟨rest, rfl, shorter⟩
      · exact .inl rfl
      · rcases List.prefix_cons_iff.mp shorter with rfl | ⟨last, rfl, nothing⟩
        · exact .inr rfl
        · obtain rfl := List.prefix_nil.mp nothing
          exact absurd rfl differs
    rcases short with rfl | rfl <;> exact isLeaf _ (Option.some.inj found).symm
  exact ⟨below, above, (leaves ["a", "c"] .null nofun).mpr (.inr ⟨rfl, rfl, untouched⟩),
    (leaves ["d"] .null nofun).mpr (.inl rfl), levels [] _ rfl, again⟩

end Scaffold
