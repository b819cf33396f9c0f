import Scaffold.Merge.Apply
import Scaffold.Proofs.Merge.DeepMerge

/-!
# Merges into objects with lone halves

A file may hold an object with lone halves of characters.  No merge writes such a text: where the merged object
has none, what was merged has none either (`half?_of_deepMerge`), and the lone halves of the file have been
overwritten.  The merge is then that into the object without its torn parts (`Value.mend`), which a document can
hold (`exists_mended`).
-/

namespace Scaffold

open Json

variable {entries lower upper : Entries} {key : Scalar} {value : Value} {old : Option Value}

/-! ## Leaving out what is torn -/

mutual

/-- A value without its torn parts: entries under torn keys are left out, and torn texts are null. -/
def Value.mend : Value → Value
  | .torn _ => .null
  | .scalar content => .scalar content
  | .list items => .list (mendItems items)
  | .mapping entries => .mapping (mendEntries entries)

/-- Items without their torn parts. -/
def mendItems : List Value → List Value
  | [] => []
  | item :: rest => item.mend :: mendItems rest

/-- Entries without their torn parts. -/
def mendEntries : List (Scalar × Value) → Entries
  | [] => []
  | (key, value) :: rest =>
    if key.half?.isSome then mendEntries rest else (key, value.mend) :: mendEntries rest

end

/-- An entry under a torn key is left out. -/
theorem mendEntries_cons_torn (torn : key.half?.isSome) (value : Value) (rest : Entries) :
    mendEntries ((key, value) :: rest) = mendEntries rest := by
  rw [mendEntries, if_pos torn]

/-- Any other entry stays. -/
theorem mendEntries_cons_whole (whole : key.half? = none) (value : Value) (rest : Entries) :
    mendEntries ((key, value) :: rest) = (key, value.mend) :: mendEntries rest := by
  rw [mendEntries, whole]
  rfl

mutual

/-- A value without lone halves is as it is. -/
theorem Value.mend_eq_self (value : Value) (whole : value.half? = none) : value.mend = value := by
  match value with
  | .scalar content =>
      cases content with
      | torn content => cases whole
      | _ => rfl
  | .list items => rw [Value.mend, mendItems_eq_self items whole]
  | .mapping entries => rw [Value.mend, mendEntries_eq_self entries whole]

/-- So are items. -/
theorem mendItems_eq_self (items : List Value) (whole : Value.halfOfItems? items = none) :
    mendItems items = items := by
  match items with
  | [] => rfl
  | item :: rest =>
      rw [halfOfItems?_eq_none_iff, List.forall_mem_cons, ← halfOfItems?_eq_none_iff] at whole
      rw [mendItems, item.mend_eq_self whole.1, mendItems_eq_self rest whole.2]

/-- So are entries. -/
theorem mendEntries_eq_self (entries : List (Scalar × Value)) (whole : Value.halfOfEntries? entries = none) :
    mendEntries entries = entries := by
  match entries with
  | [] => rfl
  | (key, value) :: rest =>
      rw [halfOfEntries?_eq_none_iff, List.forall_mem_cons, ← halfOfEntries?_eq_none_iff] at whole
      rw [mendEntries_cons_whole whole.1.1, value.mend_eq_self whole.1.2, mendEntries_eq_self rest whole.2]

end

/-- A torn key is the same key as this key only. -/
theorem Scalar.sameKey_of_half? (other : Scalar) (torn : key.half?.isSome) :
    other.sameKey key = (other == key) ∧ key.sameKey other = (key == other) := by
  cases key with
  | torn content =>
      have isName : (Scalar.torn content).IsName := trivial
      exact ⟨isName.sameKey other, isName.sameKey_right other⟩
  | _ => cases torn

/-- A torn key and another one are not the same key. -/
theorem Scalar.sameKey_of_whole {other : Scalar} (torn : key.half?.isSome) (whole : other.half? = none) :
    other.sameKey key = false ∧ key.sameKey other = false := by
  obtain ⟨left, right⟩ := sameKey_of_half? other torn
  have differ : other ≠ key := by
    rintro rfl
    rw [whole] at torn
    cases torn
  exact ⟨left.trans (beq_eq_false_iff_ne.mpr differ), right.trans (beq_eq_false_iff_ne.mpr differ.symm)⟩

/-- What is put under a torn key is left out. -/
theorem mendEntries_insert_torn (torn : key.half?.isSome) :
    mendEntries (entries.insert key value) = mendEntries entries := by
  induction entries with
  | nil => exact mendEntries_cons_torn torn value []
  | cons entry rest inductionHypothesis =>
      obtain ⟨present, old⟩ := entry
      rw [Entries.insert]
      cases same : present.sameKey key with
      | true =>
          obtain rfl : present = key := by
            rw [(Scalar.sameKey_of_half? _ torn).1] at same
            exact beq_iff_eq.mp same
          rw [if_pos rfl, mendEntries_cons_torn torn, mendEntries_cons_torn torn]
      | false =>
          rw [if_neg Bool.false_ne_true]
          cases half : present.half? with
          | none => rw [mendEntries_cons_whole half, mendEntries_cons_whole half, inductionHypothesis]
          | some lone =>
              have tornToo : present.half?.isSome := by rw [half]; rfl
              rw [mendEntries_cons_torn tornToo, mendEntries_cons_torn tornToo, inductionHypothesis]

/-- What is put under another key is put there. -/
theorem mendEntries_insert_whole (whole : key.half? = none) :
    mendEntries (entries.insert key value) = (mendEntries entries).insert key value.mend := by
  induction entries with
  | nil => exact mendEntries_cons_whole whole value []
  | cons entry rest inductionHypothesis =>
      obtain ⟨present, old⟩ := entry
      rw [Entries.insert]
      cases half : present.half? with
      | none =>
          rw [mendEntries_cons_whole half, Entries.insert]
          cases present.sameKey key with
          | true => rw [if_pos rfl, if_pos rfl, mendEntries_cons_whole half]
          | false =>
              rw [if_neg Bool.false_ne_true, if_neg Bool.false_ne_true, mendEntries_cons_whole half,
                inductionHypothesis]
      | some lone =>
          have torn : present.half?.isSome := by rw [half]; rfl
          rw [(Scalar.sameKey_of_whole torn whole).2, if_neg Bool.false_ne_true, mendEntries_cons_torn torn,
            mendEntries_cons_torn torn, inductionHypothesis]

/-- Under a key that is not torn stands what stood there, without its torn parts. -/
theorem get?_mendEntries (whole : key.half? = none) :
    (mendEntries entries).get? key = (entries.get? key).map Value.mend := by
  induction entries with
  | nil => rfl
  | cons entry rest inductionHypothesis =>
      obtain ⟨present, old⟩ := entry
      simp only [Entries.get?] at inductionHypothesis ⊢
      cases half : present.half? with
      | none =>
          rw [mendEntries_cons_whole half, List.find?_cons, List.find?_cons]
          cases present.sameKey key with
          | true => rfl
          | false => exact inductionHypothesis
      | some lone =>
          have torn : present.half?.isSome := by rw [half]; rfl
          rw [mendEntries_cons_torn torn, List.find?_cons, (Scalar.sameKey_of_whole torn whole).2]
          exact inductionHypothesis

/-- The entries of a value without its torn parts. -/
theorem entriesOf_mend (old : Option Value) : entriesOf (old.map Value.mend) = mendEntries (entriesOf old) := by
  cases old with
  | none => rfl
  | some value =>
      cases value with
      | scalar content => cases content <;> rfl
      | list items => rfl
      | mapping entries => rfl

mutual

/-- Torn parts may be left out before a merge or after it. -/
theorem mend_mergeOver (value : Value) (old : Option Value) :
    (mergeOver old value).mend = mergeOver (old.map Value.mend) value.mend := by
  match value with
  | .scalar content => cases content <;> rfl
  | .list items => rfl
  | .mapping upper =>
      rw [mergeOver_mapping, Value.mend, mendEntries_deepMerge, Value.mend, mergeOver_mapping, entriesOf_mend]

/-- So may they in a merge of entries. -/
theorem mendEntries_deepMerge (lower : Entries) (upper : List (Scalar × Value)) :
    mendEntries (deepMerge lower upper) = deepMerge (mendEntries lower) (mendEntries upper) := by
  match upper with
  | [] => rfl
  | (key, value) :: rest =>
      rw [deepMerge_cons, mendEntries_deepMerge _ rest]
      cases half : key.half? with
      | none =>
          rw [mendEntries_insert_whole half, mend_mergeOver value, mendEntries_cons_whole half, deepMerge_cons,
            get?_mendEntries half]
      | some lone =>
          have torn : key.half?.isSome := by rw [half]; rfl
          rw [mendEntries_insert_torn torn, mendEntries_cons_torn torn]

end

/-- So may they when entries are laid over others. -/
theorem mendEntries_overlay (lower upper : Entries) :
    mendEntries (lower.overlay upper) = (mendEntries lower).overlay (mendEntries upper) := by
  induction upper generalizing lower with
  | nil => rfl
  | cons entry rest inductionHypothesis =>
      obtain ⟨key, value⟩ := entry
      rw [Entries.overlay_cons, inductionHypothesis]
      cases half : key.half? with
      | none => rw [mendEntries_insert_whole half, mendEntries_cons_whole half, Entries.overlay_cons]
      | some lone =>
          have torn : key.half?.isSome := by rw [half]; rfl
          rw [mendEntries_insert_torn torn, mendEntries_cons_torn torn]

/-- The keys that stay are those that are not torn. -/
theorem mem_keys_mendEntries (member : key ∈ (mendEntries entries).keys) :
    key ∈ entries.keys ∧ key.half? = none := by
  induction entries with
  | nil => cases member
  | cons entry rest inductionHypothesis =>
      obtain ⟨present, old⟩ := entry
      cases half : present.half? with
      | none =>
          rw [mendEntries_cons_whole half, Entries.keys_cons] at member
          rcases List.mem_cons.mp member with rfl | later
          · exact ⟨List.mem_cons_self, half⟩
          · exact (inductionHypothesis later).imp_left (List.mem_cons_of_mem _)
      | some lone =>
          rw [mendEntries_cons_torn (by rw [half]; rfl)] at member
          exact (inductionHypothesis member).imp_left (List.mem_cons_of_mem _)

/-- The keys that stay differ. -/
theorem Entries.KeysDiffer.mendEntries (differ : entries.KeysDiffer) : (mendEntries entries).KeysDiffer := by
  induction entries with
  | nil => exact differ
  | cons entry rest inductionHypothesis =>
      obtain ⟨present, old⟩ := entry
      obtain ⟨first, others⟩ := List.pairwise_cons.mp differ
      cases half : present.half? with
      | none =>
          rw [mendEntries_cons_whole half]
          exact List.pairwise_cons.mpr
            ⟨fun key member => first key (mem_keys_mendEntries member).1, inductionHypothesis others⟩
      | some lone =>
          rw [mendEntries_cons_torn (by rw [half]; rfl)]
          exact inductionHypothesis others

/-- The values that stay are those that were there, without their torn parts. -/
theorem mem_mendEntries {entry : Scalar × Value} (member : entry ∈ mendEntries entries) :
    ∃ source ∈ entries, entry = (source.1, source.2.mend) := by
  induction entries with
  | nil => cases member
  | cons first rest inductionHypothesis =>
      obtain ⟨present, old⟩ := first
      cases half : present.half? with
      | none =>
          rw [mendEntries_cons_whole half] at member
          rcases List.mem_cons.mp member with rfl | later
          · exact ⟨_, List.mem_cons_self, rfl⟩
          · obtain ⟨source, inside, same⟩ := inductionHypothesis later
            exact ⟨source, List.mem_cons_of_mem _ inside, same⟩
      | some lone =>
          rw [mendEntries_cons_torn (by rw [half]; rfl)] at member
          obtain ⟨source, inside, same⟩ := inductionHypothesis member
          exact ⟨source, List.mem_cons_of_mem _ inside, same⟩

/-- The items are those that were there, without their torn parts. -/
theorem mendItems_eq (items : List Value) : mendItems items = items.map Value.mend := by
  induction items with
  | nil => rfl
  | cons item rest inductionHypothesis => rw [mendItems, inductionHypothesis, List.map_cons]

/-- What reading gives, without its torn parts, is what a document can hold. -/
theorem Json.IsReading.mend (reading : IsReading value) : IsDocument value.mend := by
  induction reading with
  | @plain content isPlain =>
      cases content with
      | torn content => exact isPlain.elim
      | _ => exact .scalar isPlain
  | torn => exact .scalar trivial
  | list all inductionHypothesis =>
      rw [Value.mend, mendItems_eq]
      refine .list fun item member => ?_
      obtain ⟨source, inside, rfl⟩ := List.mem_map.mp member
      exact inductionHypothesis source inside
  | mapping differ names all inductionHypothesis =>
      rw [Value.mend]
      refine .mapping (differ.mendEntries.named fun key member => ?_) fun entry member => ?_
      · obtain ⟨inside, whole⟩ := mem_keys_mendEntries member
        have isName := names key inside
        cases key with
        | text name => exact ⟨name, rfl⟩
        | torn name => cases whole
        | _ => exact isName.elim
      · obtain ⟨source, inside, rfl⟩ := mem_mendEntries member
        exact inductionHypothesis source inside

/-! ## What is laid over entries stays there -/

/-- A way to lay entries over others one by one, each over the value under its key. -/
structure LaysInTurn (lay : Entries → Entries → Entries) (upon : Option Value → Value → Value) : Prop where
  nil : ∀ lower, lay lower [] = lower
  cons : ∀ lower key value rest,
    lay lower ((key, value) :: rest) = lay (lower.insert key (upon (lower.get? key) value)) rest

/-- A deep merge does so. -/
theorem laysInTurn_deepMerge : LaysInTurn deepMerge mergeOver :=
  ⟨fun _ => rfl, fun _ _ _ _ => rfl⟩

/-- So does an overlay. -/
theorem laysInTurn_overlay : LaysInTurn Entries.overlay fun _ value => value :=
  ⟨fun _ => rfl, fun _ _ _ _ => rfl⟩

/-- A key of the lower side is the same key as one of the upper side only if it is this key. -/
def Entries.Meets (lower upper : Entries) : Prop :=
  ∀ present ∈ lower.keys, ∀ key ∈ upper.keys, present.sameKey key = true → present = key

/-- Names are the same key as these names only. -/
theorem Entries.meets_of_names (names : ∀ key ∈ lower.keys, key.IsName) : lower.Meets upper := by
  intro present member key _ same
  rw [(names present member).sameKey_right] at same
  exact beq_iff_eq.mp same

/-- An entry whose key is not the one that something is put under stays. -/
theorem Entries.mem_insert_of_differs {entry : Scalar × Value} (member : entry ∈ entries)
    (differs : entry.1.sameKey key = false) : entry ∈ entries.insert key value := by
  induction entries with
  | nil => cases member
  | cons first rest inductionHypothesis =>
      obtain ⟨present, old⟩ := first
      rw [Entries.insert]
      rcases List.mem_cons.mp member with rfl | later
      · rw [differs, if_neg Bool.false_ne_true]
        exact List.mem_cons_self
      · split
        · exact List.mem_cons_of_mem _ later
        · exact List.mem_cons_of_mem _ (inductionHypothesis later)

/-- What is put under a key stands there, under the key that it met if it met one. -/
theorem Entries.exists_mem_insert (entries : Entries) (key : Scalar) (value : Value) :
    ∃ entry ∈ entries.insert key value, entry.2 = value
      ∧ (entry.1 = key ∨ entry.1 ∈ entries.keys ∧ entry.1.sameKey key = true) := by
  induction entries with
  | nil => exact ⟨(key, value), List.mem_cons_self, rfl, .inl rfl⟩
  | cons first rest inductionHypothesis =>
      obtain ⟨present, old⟩ := first
      rw [Entries.insert]
      cases same : present.sameKey key with
      | true => exact ⟨(present, value), List.mem_cons_self, rfl, .inr ⟨List.mem_cons_self, same⟩⟩
      | false =>
          obtain ⟨entry, member, isValue, place⟩ := inductionHypothesis
          rw [if_neg Bool.false_ne_true]
          exact ⟨entry, List.mem_cons_of_mem _ member, isValue,
            place.imp_right (And.imp_left (List.mem_cons_of_mem _))⟩

/-- An entry was there, or it is the one that was put in, under its key or one that it met. -/
theorem Entries.mem_or_met_of_mem_insert {entry : Scalar × Value} (member : entry ∈ entries.insert key value) :
    entry ∈ entries ∨ entry.1 = key ∨ entry.1 ∈ entries.keys ∧ entry.1.sameKey key = true := by
  induction entries with
  | nil =>
      obtain rfl : entry = (key, value) := by simpa [Entries.insert] using member
      exact .inr (.inl rfl)
  | cons first rest inductionHypothesis =>
      obtain ⟨present, old⟩ := first
      rw [Entries.insert] at member
      cases same : present.sameKey key with
      | true =>
          rw [same, if_pos rfl] at member
          rcases List.mem_cons.mp member with rfl | later
          · exact .inr (.inr ⟨List.mem_cons_self, same⟩)
          · exact .inl (List.mem_cons_of_mem _ later)
      | false =>
          rw [same, if_neg Bool.false_ne_true] at member
          rcases List.mem_cons.mp member with rfl | later
          · exact .inl List.mem_cons_self
          · exact (inductionHypothesis later).imp (List.mem_cons_of_mem _)
              (Or.imp_right (And.imp_left (List.mem_cons_of_mem _)))

variable {lay : Entries → Entries → Entries} {upon : Option Value → Value → Value}

/-- An entry stays if none of the keys that are laid over it is the same as its own. -/
theorem LaysInTurn.mem_of_differs (lays : LaysInTurn lay upon) {entry : Scalar × Value}
    (member : entry ∈ lower) (differs : ∀ key ∈ upper.keys, entry.1.sameKey key = false) :
    entry ∈ lay lower upper := by
  induction upper generalizing lower with
  | nil => rwa [lays.nil]
  | cons first rest inductionHypothesis =>
      obtain ⟨here, others⟩ := List.forall_mem_cons.mp differs
      rw [lays.cons]
      exact inductionHypothesis (Entries.mem_insert_of_differs member here) others

/-- An entry that is laid over others stands under its own key, laid over nothing or over a value that stood
under this key. -/
theorem LaysInTurn.exists_mem (lays : LaysInTurn lay upon) (differ : upper.KeysDiffer)
    (meets : lower.Meets upper) (member : (key, value) ∈ upper) :
    ∃ old, (key, upon old value) ∈ lay lower upper
      ∧ ∀ below, old = some below → ∃ present, (present, below) ∈ lower ∧ present.sameKey key = true := by
  induction upper generalizing lower with
  | nil => cases member
  | cons first rest inductionHypothesis =>
      obtain ⟨put, given⟩ := first
      obtain ⟨apart, others⟩ := List.pairwise_cons.mp differ
      have onKey : ∀ present ∈ lower.keys, present.sameKey put = true → present = put :=
        fun present known => meets present known put List.mem_cons_self
      rw [lays.cons]
      rcases List.mem_cons.mp member with same | later
      · obtain ⟨rfl, rfl⟩ := Prod.mk.inj same
        obtain ⟨⟨present, stood⟩, inside, rfl, place⟩ :=
          Entries.exists_mem_insert lower key (upon (lower.get? key) value)
        obtain rfl : present = key := place.elim id fun met => onKey _ met.1 met.2
        refine ⟨lower.get? present, lays.mem_of_differs inside apart, fun below found => ?_⟩
        obtain ⟨source, located, rfl⟩ := Option.map_eq_some_iff.mp found
        exact ⟨source.1, List.mem_of_find?_eq_some located, by simpa using List.find?_some located⟩
      · have among : key ∈ Entries.keys rest := List.mem_map_of_mem later
        have meetsRest : (lower.insert put (upon (lower.get? put) given)).Meets rest := by
          intro present known other among same
          rcases Entries.mem_or_eq_of_mem_keys_insert known with before | rfl
          · exact meets present before other (List.mem_cons_of_mem _ among) same
          · rw [apart other among] at same
            cases same
        obtain ⟨old, stands, comes⟩ := inductionHypothesis others meetsRest later
        refine ⟨old, stands, fun below found => ?_⟩
        obtain ⟨present, inside, met⟩ := comes below found
        -- What was just put in stands under a key that differs from this one.
        rcases Entries.mem_or_met_of_mem_insert inside with before | rfl | ⟨known, here⟩
        · exact ⟨present, before, met⟩
        · rw [apart key among] at met
          cases met
        · rw [onKey present known here, apart key among] at met
          cases met

/-- The names of an object that was read meet only themselves. -/
theorem Json.IsReading.meets (below : IsReading (.mapping lower)) : lower.Meets upper := by
  cases below with
  | mapping _ names _ => exact Entries.meets_of_names names

namespace Json.Partwise

variable {ofKey : Scalar → Prop} {holds : Value → Prop}

/-- The entries of a value that has the property have it, and so have those of nothing. -/
theorem entriesOf (partwise : Partwise ofKey holds) (below : ∀ value, old = some value → holds value) :
    holds (.mapping (entriesOf old)) := by
  unfold Scaffold.entriesOf
  split
  · exact below _ rfl
  · exact (partwise.mapping_iff []).mpr (List.forall_mem_nil _)

/-- What is merged over a value that was read, or over nothing, has the property if the outcome has it. -/
theorem of_mergeOver (partwise : Partwise ofKey holds) (keyed : value.Keyed) :
    ∀ old, (∀ below, old = some below → IsReading below) → holds (mergeOver old value) → holds value := by
  induction keyed with
  | scalar => exact fun _ _ merged => merged
  | list _ => exact fun _ _ merged => merged
  | @mapping upper differ all inductionHypothesis =>
      intro old read merged
      have below : IsReading (.mapping (Scaffold.entriesOf old)) := by
        unfold Scaffold.entriesOf
        split
        · exact read _ rfl
        · exact IsReading.empty
      rw [mergeOver_mapping] at merged
      refine (partwise.mapping_iff _).mpr fun entry member => ?_
      obtain ⟨inner, stands, comes⟩ := laysInTurn_deepMerge.exists_mem differ below.meets member
      obtain ⟨ofThis, ofOutcome⟩ := (partwise.mapping_iff _).mp merged _ stands
      refine ⟨ofThis, inductionHypothesis entry member inner (fun under found => ?_) ofOutcome⟩
      obtain ⟨present, inside, _⟩ := comes under found
      cases below with
      | mapping _ _ each => exact each _ inside

/-- A merge has the property if what is merged has it, over a value that has it or over nothing. -/
theorem mergeOver (partwise : Partwise ofKey holds) (keyed : value.Keyed) :
    ∀ old, (∀ below, old = some below → holds below) → holds value → holds (mergeOver old value) := by
  induction keyed with
  | scalar => exact fun _ _ given => given
  | list _ => exact fun _ _ given => given
  | @mapping upper differ all inductionHypothesis =>
      intro old has given
      rw [mergeOver_mapping]
      have below := partwise.entriesOf has
      have each := (partwise.mapping_iff _).mp given
      generalize Scaffold.entriesOf old = lower at below
      clear differ all has given
      induction upper generalizing lower with
      | nil => exact below
      | cons entry rest further =>
          obtain ⟨first, others⟩ := List.forall_mem_cons.mp each
          obtain ⟨here, later⟩ := List.forall_mem_cons.mp inductionHypothesis
          rw [deepMerge_cons]
          exact further later others _
            (partwise.insert below first.1 (here _ (fun _ found => partwise.of_get? below found) first.2))

/-- What is merged into an object that was read has the property if the merged object has it. -/
theorem of_deepMerge (partwise : Partwise ofKey holds) (below : IsReading (.mapping lower))
    (keyed : (Value.mapping upper).Keyed) (merged : holds (.mapping (deepMerge lower upper))) :
    holds (.mapping upper) := by
  refine partwise.of_mergeOver keyed (some (.mapping lower)) (fun under same => Option.some.inj same ▸ below) ?_
  rwa [mergeOver_mapping]

/-- A merge has the property if both objects have it. -/
theorem deepMerge (partwise : Partwise ofKey holds) (below : holds (.mapping lower))
    (keyed : (Value.mapping upper).Keyed) (above : holds (.mapping upper)) :
    holds (.mapping (Scaffold.deepMerge lower upper)) := by
  have merged := partwise.mergeOver keyed (some (.mapping lower))
    (fun under same => Option.some.inj same ▸ below) above
  rwa [mergeOver_mapping] at merged

end Json.Partwise

/-- What is merged over a value that was read is like a value that was read. -/
theorem Json.IsReading.mergeOver (reading : IsReading value) :
    ∀ old, (∀ below, old = some below → IsReading below) → IsReading (mergeOver old value) := by
  induction reading with
  | plain isPlain => exact fun _ _ => .plain isPlain
  | torn => exact fun _ _ => .torn
  | list all => exact fun _ _ => .list all
  | @mapping upper differ names all inductionHypothesis =>
      intro old read
      rw [mergeOver_mapping]
      have below : IsReading (.mapping (entriesOf old)) := by
        unfold entriesOf
        split
        · exact read _ rfl
        · exact IsReading.empty
      generalize entriesOf old = lower at below
      clear differ all read
      induction upper generalizing lower with
      | nil => exact below
      | cons entry rest further =>
          obtain ⟨isName, others⟩ := List.forall_mem_cons.mp names
          obtain ⟨here, later⟩ := List.forall_mem_cons.mp inductionHypothesis
          rw [deepMerge_cons]
          exact further others later _ (below.insert isName (here _ fun _ found => below.of_get? found))

/-- So is a merge of two objects that were read. -/
theorem Json.IsReading.deepMerge (below : IsReading (.mapping lower)) (above : IsReading (.mapping upper)) :
    IsReading (.mapping (Scaffold.deepMerge lower upper)) := by
  have merged := above.mergeOver (some (.mapping lower)) fun under same => Option.some.inj same ▸ below
  rwa [mergeOver_mapping] at merged

/-! ## Merges without lone halves -/

namespace MergeMode

variable {mode : MergeMode} {current data : Entries}

/-- An object that is combined with one that was read has no lone half if the outcome has none. -/
theorem half?_of_combine (below : IsReading (.mapping current)) (keyed : (Value.mapping data).Keyed)
    (whole : (Value.mapping (mode.combine current data)).half? = none) :
    (Value.mapping data).half? = none := by
  cases mode with
  | deep => exact Partwise.half.of_deepMerge below keyed whole
  | shallow =>
      cases keyed with
      | mapping differ _ =>
          refine halfOfEntries?_eq_none_iff.mpr fun entry member => ?_
          obtain ⟨_, stands, _⟩ := laysInTurn_overlay.exists_mem differ below.meets member
          exact halfOfEntries?_eq_none_iff.mp whole _ stands
  | replace => exact whole

/-- Torn parts may be left out before objects are combined or after it. -/
theorem mendEntries_combine (mode : MergeMode) (current data : Entries) :
    mendEntries (mode.combine current data) = mode.combine (mendEntries current) (mendEntries data) := by
  cases mode with
  | deep => exact mendEntries_deepMerge current data
  | shallow => exact mendEntries_overlay current data
  | replace => rfl

/-- An object without lone halves that came of one that was read would have come of an object that a document
can hold. -/
theorem exists_mended (below : IsReading (.mapping current)) (keyed : (Value.mapping data).Keyed)
    (whole : (Value.mapping (mode.combine current data)).half? = none) :
    ∃ mended, IsDocument (.mapping mended) ∧ mode.combine current data = mode.combine mended data := by
  refine ⟨mendEntries current, below.mend, ?_⟩
  have without := mendEntries_combine mode current data
  rwa [mendEntries_eq_self _ whole, mendEntries_eq_self _ (half?_of_combine below keyed whole)] at without

end MergeMode

end Scaffold
