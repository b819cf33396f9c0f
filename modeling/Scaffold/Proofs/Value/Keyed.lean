import Scaffold.Template.Render
import Scaffold.Proofs.Computation
import Scaffold.Proofs.Value.Entries

/-!
# Mappings as dictionaries

No two keys of a dictionary are the same key, whatever they are.  The mappings of a value remain dictionaries
when the texts in it are rendered (`Template.keyed_renderData`).
-/

namespace Scaffold

/-- A key that JSON can write: a text, whole or torn. -/
def Scalar.IsName : Scalar → Prop
  | .text _ => True
  | .torn _ => True
  | _ => False

/-- Nothing but a name is the same key as this name. -/
theorem Scalar.IsName.sameKey {name : Scalar} (isName : name.IsName) (key : Scalar) :
    key.sameKey name = (key == name) := by
  cases name with
  | text name => exact sameKey_text_right key name
  | torn name =>
      cases key with
      | float value =>
          simp only [Scalar.sameKey, asInt?]
          cases value.toInt? <;> rfl
      | _ => rfl
  | _ => exact isName.elim

/-- A name is the same key as nothing but this name. -/
theorem Scalar.IsName.sameKey_right {name : Scalar} (isName : name.IsName) (key : Scalar) :
    name.sameKey key = (name == key) := by
  cases name with
  | text name =>
      cases key with
      | text other =>
          rw [sameKey_text]
          by_cases same : name = other
          · simp [same]
          · rw [beq_eq_false_iff_ne.mpr same, eq_comm, beq_eq_false_iff_ne]
            exact fun equal => same (Scalar.text.inj equal)
      | _ => rfl
  | torn name => cases key <;> rfl
  | _ => exact isName.elim

/-- No two keys are the same key. -/
def Entries.KeysDiffer (entries : Entries) : Prop :=
  entries.keys.Pairwise fun first second => first.sameKey second = false

/-- The mappings inside of a value are dictionaries. -/
inductive Value.Keyed : Value → Prop where
  | scalar {content : Scalar} : Keyed (.scalar content)
  | list {items : List Value} (all : ∀ item ∈ items, Keyed item) : Keyed (.list items)
  | mapping {entries : Entries} (differ : entries.KeysDiffer) (all : ∀ entry ∈ entries, Keyed entry.2) :
      Keyed (.mapping entries)

namespace Entries

variable {entries lower upper : Entries} {key other : Scalar} {value : Value}

/-- Keys that differ are distinct if all of them are texts. -/
theorem KeysDiffer.named (differ : entries.KeysDiffer)
    (texts : ∀ key ∈ entries.keys, ∃ name, key = .text name) : entries.Named := by
  refine ⟨texts, List.Pairwise.imp_of_mem (fun {first second} member _ apart same => ?_) differ⟩
  obtain ⟨name, rfl⟩ := texts first member
  subst same
  simp at apart

/-- A key that is put in is the same as one that is present, or else comes last. -/
theorem keys_insert_cases (entries : Entries) (key : Scalar) (value : Value) :
    ((entries.insert key value).keys = entries.keys ∧ ∃ present ∈ entries.keys, present.sameKey key = true)
      ∨ (entries.insert key value).keys = entries.keys ++ [key]
        ∧ ∀ present ∈ entries.keys, present.sameKey key = false := by
  induction entries with
  | nil => exact .inr ⟨rfl, nofun⟩
  | cons entry rest inductionHypothesis =>
      obtain ⟨present, old⟩ := entry
      rw [insert]
      cases same : present.sameKey key with
      | true => exact .inl ⟨rfl, present, List.mem_cons_self, same⟩
      | false =>
          simp only [Bool.false_eq_true, if_false, keys_cons]
          rcases inductionHypothesis with ⟨kept, other, known, isKey⟩ | ⟨added, differs⟩
          · exact .inl ⟨congrArg _ kept, other, List.mem_cons_of_mem _ known, isKey⟩
          · exact .inr ⟨congrArg _ added, List.forall_mem_cons.mpr ⟨same, differs⟩⟩

/-- A key that is present stays. -/
theorem subset_keys_insert : entries.keys ⊆ (entries.insert key value).keys := by
  rcases keys_insert_cases entries key value with ⟨kept, _⟩ | ⟨added, _⟩
  · exact kept ▸ List.Subset.refl _
  · exact added ▸ List.subset_append_left ..

/-- A key is present only if it was, or if it is the one that was put in. -/
theorem mem_or_eq_of_mem_keys_insert (member : other ∈ (entries.insert key value).keys) :
    other ∈ entries.keys ∨ other = key := by
  rcases keys_insert_cases entries key value with ⟨kept, _⟩ | ⟨added, _⟩
  · exact .inl (kept ▸ member)
  · simpa [added] using member

/-- A key that no other one is the same as is added. -/
theorem mem_keys_insert_of_differs (differs : ∀ present ∈ entries.keys, present.sameKey key = false) :
    key ∈ (entries.insert key value).keys := by
  rcases keys_insert_cases entries key value with ⟨_, present, known, same⟩ | ⟨added, _⟩
  · rw [differs present known] at same
    cases same
  · simp [added]

/-- A dictionary remains one when a value is put in. -/
theorem KeysDiffer.insert (differ : entries.KeysDiffer) : (entries.insert key value).KeysDiffer := by
  rcases keys_insert_cases entries key value with ⟨kept, _⟩ | ⟨added, apart⟩
  · rwa [KeysDiffer, kept]
  · rw [KeysDiffer, added, List.pairwise_append]
    exact ⟨differ, List.pairwise_singleton .., by simpa using apart⟩

/-- A dictionary remains one when values are put in, one after the other. -/
theorem KeysDiffer.overlay (differ : lower.KeysDiffer) : (lower.overlay upper).KeysDiffer := by
  induction upper generalizing lower with
  | nil => exact differ
  | cons entry rest inductionHypothesis => exact inductionHypothesis differ.insert

end Entries

/-- Distinct texts are keys that differ. -/
theorem Entries.Named.keysDiffer {entries : Entries} (named : entries.Named) : entries.KeysDiffer := by
  refine List.Pairwise.imp_of_mem (fun {first second} member _ apart => ?_) named.distinct
  obtain ⟨name, rfl⟩ := named.texts first member
  have isName : (Scalar.text name).IsName := trivial
  rw [isName.sameKey_right]
  exact beq_eq_false_iff_ne.mpr apart

/-- The mappings of a value with distinct texts as keys are dictionaries. -/
theorem Value.Consists.keyed {plain : Scalar → Prop} {value : Value} (consists : value.Consists plain) :
    value.Keyed := by
  induction consists with
  | scalar _ => exact .scalar
  | list _ inductionHypothesis => exact .list inductionHypothesis
  | mapping named _ inductionHypothesis => exact .mapping named.keysDiffer inductionHypothesis

/-! ## Rendering -/

namespace Template

variable {context : Context} {destination : Destination}

mutual

/-- A value that is made of dictionaries is rendered as such a value. -/
theorem keyed_renderData (value : Value) {rendered : Value} (keyed : value.Keyed)
    (found : renderData context destination value = .ok rendered) : rendered.Keyed := by
  match value, keyed with
  | .scalar content, _ =>
      unfold renderData at found
      split at found
      next =>
        obtain ⟨text, _, rfl⟩ := exists_of_map_eq_ok found
        exact .scalar
      next => exact Except.ok.inj found ▸ .scalar
      next => contradiction
      next => contradiction
  | .list items, .list all =>
      obtain ⟨parts, read, rfl⟩ := exists_of_map_eq_ok found
      exact .list (keyed_renderItems items all read)
  | .mapping entries, .mapping differ all =>
      obtain ⟨parts, read, rfl⟩ := exists_of_map_eq_ok found
      obtain ⟨sameKeys, each⟩ := keyed_renderEntries entries all read
      refine .mapping ?_ each
      rwa [Entries.KeysDiffer, sameKeys]

/-- So are items. -/
theorem keyed_renderItems (items : List Value) {rendered : List Value} (all : ∀ item ∈ items, item.Keyed)
    (found : renderItems context destination items = .ok rendered) : ∀ item ∈ rendered, item.Keyed := by
  match items with
  | [] =>
      obtain rfl := Except.ok.inj found
      exact List.forall_mem_nil _
  | item :: rest =>
      obtain ⟨here, others⟩ := List.forall_mem_cons.mp all
      obtain ⟨first, read, found⟩ := exists_of_bind_eq_ok found
      obtain ⟨further, readRest, found⟩ := exists_of_bind_eq_ok found
      obtain rfl := Except.ok.inj found
      exact List.forall_mem_cons.mpr ⟨keyed_renderData item here read, keyed_renderItems rest others readRest⟩

/-- So are entries, which keep their keys. -/
theorem keyed_renderEntries (entries : List (Scalar × Value)) {rendered : Entries}
    (all : ∀ entry ∈ entries, entry.2.Keyed)
    (found : renderEntries context destination entries = .ok rendered) :
    rendered.keys = Entries.keys entries ∧ ∀ entry ∈ rendered, entry.2.Keyed := by
  match entries with
  | [] =>
      obtain rfl := Except.ok.inj found
      exact ⟨rfl, List.forall_mem_nil _⟩
  | (key, value) :: rest =>
      obtain ⟨here, others⟩ := List.forall_mem_cons.mp all
      obtain ⟨shown, read, found⟩ := exists_of_bind_eq_ok found
      obtain ⟨further, readRest, found⟩ := exists_of_bind_eq_ok found
      obtain rfl := Except.ok.inj found
      obtain ⟨sameKeys, each⟩ := keyed_renderEntries rest others readRest
      refine ⟨?_, List.forall_mem_cons.mpr ⟨keyed_renderData value here read, each⟩⟩
      rw [Entries.keys_cons, Entries.keys_cons, sameKeys]

end

end Template

end Scaffold
