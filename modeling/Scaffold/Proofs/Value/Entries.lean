import Scaffold.Value.Basic
import Mathlib.Tactic.Common
import Mathlib.Data.List.Nodup

/-!
# Entries under names

Putting a value under a text key keeps the order of the keys and adds at most that key; every other key
keeps its value.  Entries whose keys are distinct texts stay such entries, and are known by their keys in
order and the value under each of them (`Named.ext`).  Where entries are laid over one another, the last value
under a text stands there (`get?_overlay_of_texts`, `field?_foldl_overlay`).
-/

namespace Scaffold

/-- Nothing but a text is the same key as a text. -/
@[simp] theorem Scalar.sameKey_text_right (key : Scalar) (name : String) :
    key.sameKey (.text name) = (key == .text name) := by
  cases key with
  | text other =>
      rw [sameKey_text]
      by_cases same : other = name
      · simp [same]
      · rw [beq_eq_false_iff_ne.mpr same, eq_comm, beq_eq_false_iff_ne]
        exact fun equal => same (Scalar.text.inj equal)
  | bool value => rfl
  | int value => rfl
  | float value =>
      simp only [sameKey, asInt?]
      cases value.toInt? <;> rfl
  | null => rfl
  | torn value => rfl
  | moment value => rfl

namespace Entries

variable {entries : Entries} {key other : Scalar} {name : String} {value : Value}

/-- The keys in order. -/
def keys (entries : Entries) : List Scalar := entries.map (·.1)

@[simp] theorem keys_nil : keys [] = [] := rfl

@[simp] theorem keys_cons (key : Scalar) (value : Value) (rest : Entries) :
    keys ((key, value) :: rest) = key :: keys rest := rfl

/-- The value under a text key, by the first entry. -/
theorem get?_cons (present : Scalar) (value : Value) (rest : Entries) (name : String) :
    get? ((present, value) :: rest) (.text name)
      = if present = .text name then some value else get? rest (.text name) := by
  by_cases same : present = .text name
  · simp [get?, same]
  · simp [get?, same]

/-- Putting a value under a text key, by the first entry. -/
theorem insert_cons (present : Scalar) (old : Value) (rest : Entries) (name : String)
    (value : Value) :
    insert ((present, old) :: rest) (.text name) value
      = if present = .text name then (present, value) :: rest
        else (present, old) :: insert rest (.text name) value := by
  by_cases same : present = .text name <;> simp [insert, same]

/-- A text key has a value if it is among the keys. -/
theorem get?_eq_none_iff : get? entries (.text name) = none ↔ .text name ∉ keys entries := by
  induction entries with
  | nil => simp
  | cons entry rest inductionHypothesis =>
      obtain ⟨present, old⟩ := entry
      rw [get?_cons]
      by_cases same : present = .text name
      · simp [same]
      · simp [same, inductionHypothesis, Ne.symm same]

/-- A key that is present keeps its place, and a new one comes last. -/
theorem keys_insert :
    keys (insert entries (.text name) value)
      = if .text name ∈ keys entries then keys entries else keys entries ++ [.text name] := by
  induction entries with
  | nil => simp [insert]
  | cons entry rest inductionHypothesis =>
      obtain ⟨present, old⟩ := entry
      rw [insert_cons]
      by_cases same : present = .text name
      · simp [same]
      · by_cases found : .text name ∈ keys rest <;> simp [same, Ne.symm same, inductionHypothesis, found]

/-- A value under a new text comes last. -/
theorem insert_of_notMem (absent : .text name ∉ keys entries) :
    insert entries (.text name) value = entries ++ [(.text name, value)] := by
  induction entries with
  | nil => rfl
  | cons entry rest inductionHypothesis =>
      obtain ⟨present, old⟩ := entry
      rw [keys_cons, List.mem_cons, not_or] at absent
      rw [insert_cons, if_neg (Ne.symm absent.1), inductionHypothesis absent.2]
      rfl

/-- The value that was put is found under its key, and under any other key what was there. -/
theorem get?_insert (entries : Entries) (name other : String) (value : Value) :
    get? (insert entries (.text name) value) (.text other)
      = if other = name then some value else get? entries (.text other) := by
  induction entries with
  | nil => simp [insert, get?_cons, eq_comm]
  | cons entry rest inductionHypothesis =>
      obtain ⟨present, old⟩ := entry
      rw [insert_cons]
      by_cases here : present = .text name
      · subst here
        by_cases same : other = name
        · simp [get?_cons, same]
        · simp [get?_cons, same, Ne.symm same]
      · by_cases same : other = name
        · simp only [same, if_true] at inductionHypothesis
          simp [get?_cons, same, here, inductionHypothesis]
        · simp only [same, if_false] at inductionHypothesis
          simp [get?_cons, same, here, inductionHypothesis]

/-- An entry after a value was put is that value's or was there before. -/
theorem mem_insert {entry : Scalar × Value} (member : entry ∈ insert entries key value) :
    (entry.2 = value ∧ (entry.1 = key ∨ entry.1 ∈ keys entries)) ∨ entry ∈ entries := by
  induction entries with
  | nil =>
      obtain rfl : entry = (key, value) := by simpa [insert] using member
      exact .inl ⟨rfl, .inl rfl⟩
  | cons first rest inductionHypothesis =>
      obtain ⟨present, old⟩ := first
      rw [insert] at member
      split at member
      · rcases List.mem_cons.mp member with rfl | inside
        · exact .inl ⟨rfl, .inr (by simp)⟩
        · exact .inr (List.mem_cons_of_mem _ inside)
      · rcases List.mem_cons.mp member with rfl | inside
        · exact .inr (by simp)
        · rcases inductionHypothesis inside with ⟨same, fromKey | known⟩ | before
          · exact .inl ⟨same, .inl fromKey⟩
          · exact .inl ⟨same, .inr (by simp [known])⟩
          · exact .inr (List.mem_cons_of_mem _ before)

/-- A text key is present after a value was put if it is that value's or was there before. -/
theorem mem_keys_insert :
    .text name ∈ keys (insert entries key value) ↔ key = .text name ∨ .text name ∈ keys entries := by
  induction entries with
  | nil => simp [insert, eq_comm]
  | cons entry rest inductionHypothesis =>
      obtain ⟨present, old⟩ := entry
      rw [insert]
      split
      · next same =>
        -- A key that is put in the place of an equal one is that one, if it is a text.
        have known : key = .text name → present = .text name := by
          rintro rfl
          simpa using same
        constructor
        · exact .inr
        · rintro (new | there)
          · exact List.mem_cons.mpr (.inl (known new).symm)
          · exact there
      · simp only [keys_cons, List.mem_cons, inductionHypothesis]
        constructor
        · rintro (here | new | there)
          · exact .inr (.inl here)
          · exact .inl new
          · exact .inr (.inr there)
        · rintro (new | here | there)
          · exact .inr (.inl new)
          · exact .inl here
          · exact .inr (.inr there)

/-- A text key is present in entries that are laid over others if it is among the ones or the others. -/
theorem mem_keys_overlay {lower upper : Entries} :
    .text name ∈ keys (overlay lower upper) ↔ .text name ∈ keys lower ∨ .text name ∈ keys upper := by
  induction upper generalizing lower with
  | nil => simp
  | cons entry rest inductionHypothesis =>
      obtain ⟨key, value⟩ := entry
      rw [overlay_cons, inductionHypothesis, mem_keys_insert, keys_cons, List.mem_cons, or_assoc,
        or_left_comm, eq_comm]

/-- Every value of entries that are laid over others is one of theirs. -/
theorem mem_overlay {entry : Scalar × Value} {lower upper : Entries}
    (member : entry ∈ overlay lower upper) : ∃ source ∈ lower ++ upper, source.2 = entry.2 := by
  induction upper generalizing lower with
  | nil => exact ⟨entry, by simpa using member, rfl⟩
  | cons first rest inductionHypothesis =>
      obtain ⟨key, value⟩ := first
      obtain ⟨source, among, same⟩ := inductionHypothesis member
      rcases List.mem_append.mp among with inserted | later
      · rcases mem_insert inserted with ⟨put, _⟩ | before
        · exact ⟨(key, value), by simp, put.symm.trans same⟩
        · exact ⟨source, List.mem_append_left _ before, same⟩
      · exact ⟨source, List.mem_append_right _ (List.mem_cons_of_mem _ later), same⟩

/-- The keys are distinct texts. -/
structure Named (entries : Entries) : Prop where
  texts : ∀ key ∈ keys entries, ∃ name, key = .text name
  distinct : (keys entries).Nodup

/-- No entries have no keys. -/
theorem named_nil : Named [] := ⟨by simp, by simp⟩

/-- Putting a value under a text keeps the keys distinct texts. -/
theorem Named.insert (named : Named entries) : Named (insert entries (.text name) value) := by
  by_cases present : .text name ∈ keys entries
  · have same : keys (entries.insert (.text name) value) = keys entries := by
      rw [keys_insert, if_pos present]
    exact ⟨by rw [same]; exact named.texts, by rw [same]; exact named.distinct⟩
  · have grown : keys (entries.insert (.text name) value) = keys entries ++ [.text name] := by
      rw [keys_insert, if_neg present]
    refine ⟨fun key member => ?_, ?_⟩
    · rw [grown, List.mem_append, List.mem_singleton] at member
      rcases member with known | rfl
      · exact named.texts key known
      · exact ⟨name, rfl⟩
    · rw [grown]
      exact named.distinct.append (by simp) (by simpa using present)

/-- The rest of entries with distinct texts as keys has such keys too. -/
theorem Named.tail {entry : Scalar × Value} (named : Named (entry :: entries)) : Named entries :=
  ⟨fun key member => named.texts key (List.mem_cons_of_mem _ member),
    (List.nodup_cons.mp named.distinct).2⟩

/-- Entries are the same if they have the same keys in order and the same value under each text. -/
theorem Named.ext {left right : Entries} (named : Named left) (sameKeys : keys left = keys right)
    (same : ∀ name, get? left (.text name) = get? right (.text name)) : left = right := by
  induction left generalizing right with
  | nil =>
      cases right with
      | nil => rfl
      | cons entry rest => simp [keys] at sameKeys
  | cons entry rest inductionHypothesis =>
      obtain ⟨key, value⟩ := entry
      cases right with
      | nil => simp [keys] at sameKeys
      | cons other others =>
          obtain ⟨otherKey, otherValue⟩ := other
          obtain ⟨rfl, sameRest⟩ := List.cons.inj sameKeys
          obtain ⟨name, rfl⟩ := named.texts key (by simp)
          have first := same name
          rw [get?_cons, get?_cons, if_pos rfl, if_pos rfl] at first
          rw [Option.some.inj first, inductionHypothesis named.tail sameRest]
          intro further
          by_cases here : further = name
          · -- The first key occurs once, so neither rest has a value under it.
            have absent : .text name ∉ keys rest := (List.nodup_cons.mp named.distinct).1
            have alsoAbsent : .text name ∉ keys others := by
              rw [keys, ← sameRest]
              exact absent
            rw [here, get?_eq_none_iff.mpr absent, get?_eq_none_iff.mpr alsoAbsent]
          · have later := same further
            rwa [get?_cons, get?_cons, if_neg (by simpa using Ne.symm here),
              if_neg (by simpa using Ne.symm here)] at later

/-- An entry is found under its text. -/
theorem Named.get?_eq_some_iff (named : Named entries) :
    get? entries (.text name) = some value ↔ (.text name, value) ∈ entries := by
  induction entries with
  | nil => simp
  | cons entry rest inductionHypothesis =>
      obtain ⟨key, first⟩ := entry
      have absent : ∀ value, (key, value) ∉ rest := fun value member =>
        (List.nodup_cons.mp named.distinct).1 (List.mem_map.mpr ⟨_, member, rfl⟩)
      rw [get?_cons, List.mem_cons, Prod.mk.injEq]
      by_cases same : key = .text name
      · subst same
        simp [absent, eq_comm]
      · simp [same, Ne.symm same, inductionHypothesis named.tail]

/-- Entries under texts, laid over entries with distinct texts as keys, leave such keys. -/
theorem Named.overlay {lower upper : Entries} (named : Named lower)
    (texts : ∀ key ∈ keys upper, ∃ name, key = .text name) : Named (overlay lower upper) := by
  induction upper generalizing lower with
  | nil => exact named
  | cons entry rest inductionHypothesis =>
      obtain ⟨key, value⟩ := entry
      obtain ⟨⟨name, rfl⟩, others⟩ := List.forall_mem_cons.mp texts
      exact inductionHypothesis named.insert others

/-- Under a text stands the value that was laid over the others, or else what was there. -/
theorem Named.get?_overlay {lower upper : Entries} (above : Named upper) (name : String) :
    get? (Entries.overlay lower upper) (.text name)
      = (get? upper (.text name)).or (get? lower (.text name)) := by
  induction upper generalizing lower with
  | nil => rfl
  | cons entry rest inductionHypothesis =>
      obtain ⟨key, value⟩ := entry
      obtain ⟨other, rfl⟩ := above.texts key (by simp)
      have absent : get? rest (.text other) = none :=
        get?_eq_none_iff.mpr (List.nodup_cons.mp above.distinct).1
      rw [overlay_cons, inductionHypothesis above.tail, get?_insert, get?_cons]
      by_cases same : name = other
      · simp [same, absent]
      · simp [same, Ne.symm same]

/-- New keys that are laid over others follow them. -/
theorem Named.keys_overlay {lower upper : Entries} (above : Named upper) :
    keys (Entries.overlay lower upper) = keys lower ++ (keys upper).filter fun key => key ∉ keys lower := by
  induction upper generalizing lower with
  | nil => simp
  | cons entry rest inductionHypothesis =>
      obtain ⟨key, value⟩ := entry
      obtain ⟨name, rfl⟩ := above.texts key (by simp)
      have single : .text name ∉ keys rest := (List.nodup_cons.mp above.distinct).1
      rw [overlay_cons, inductionHypothesis above.tail, keys_insert, keys_cons]
      by_cases present : .text name ∈ keys lower
      · rw [if_pos present, List.filter_cons_of_neg (by simpa using present)]
      · have others : (keys rest).filter (fun key => key ∉ keys lower ++ [.text name])
            = (keys rest).filter fun key => key ∉ keys lower := by
          refine List.filter_congr fun key member => ?_
          have differ : key ≠ .text name := fun same => single (same ▸ member)
          simp [differ]
        rw [if_neg present, others, List.filter_cons_of_pos (by simpa using present), List.append_assoc]
        rfl

/-- Leaving entries out by their values leaves distinct texts as keys. -/
theorem Named.filter (named : Named entries) (keep : Scalar × Value → Bool) :
    Named (entries.filter keep) := by
  have below : (keys (entries.filter keep)).Sublist (keys entries) := List.filter_sublist.map _
  exact ⟨fun key member => named.texts key (below.subset member), named.distinct.sublist below⟩

/-- Under a text stands the value that was there, unless it was left out. -/
theorem Named.get?_filter (named : Named entries) (keep : Value → Bool) (name : String) :
    get? (entries.filter fun entry => keep entry.2) (.text name)
      = (get? entries (.text name)).filter keep := by
  induction entries with
  | nil => rfl
  | cons entry rest inductionHypothesis =>
      obtain ⟨key, value⟩ := entry
      have later := inductionHypothesis named.tail
      rw [get?_cons]
      by_cases same : key = .text name
      · have absent : get? rest (.text name) = none :=
          get?_eq_none_iff.mpr (same ▸ (List.nodup_cons.mp named.distinct).1)
        cases kept : keep value with
        | true => simp [kept, same, get?_cons, Option.filter]
        | false => simp [kept, same, later, absent, Option.filter]
      · cases kept : keep value with
        | true => simp [kept, same, later, get?_cons]
        | false => simp [kept, same, later]

/-- Of values under texts that are laid over others, which may repeat a text, the last one stands there. -/
theorem get?_overlay_of_texts {lower upper : Entries}
    (texts : ∀ key ∈ keys upper, ∃ name, key = .text name) (name : String) :
    get? (overlay lower upper) (.text name)
      = ((upper.filter fun entry => entry.1 == .text name).getLast?.map (·.2)).or
        (get? lower (.text name)) := by
  induction upper generalizing lower with
  | nil => rfl
  | cons entry rest inductionHypothesis =>
      obtain ⟨key, value⟩ := entry
      obtain ⟨⟨other, rfl⟩, others⟩ := List.forall_mem_cons.mp texts
      rw [overlay_cons, inductionHypothesis others, get?_insert]
      by_cases same : name = other
      · cases last : (rest.filter fun entry => entry.1 == .text name).getLast? with
        | none => simp [same, List.getLast?_eq_none_iff.mp (same ▸ last)]
        | some found => simp [same, List.getLast?_cons, same ▸ last]
      · simp [same, Ne.symm same]

/-- Mappings that are laid over one another in turn leave a mapping. -/
theorem Named.foldl_overlay {lower : Entries} {layers : List Entries} (named : Named lower)
    (all : ∀ layer ∈ layers, Named layer) : Named (layers.foldl Entries.overlay lower) := by
  induction layers generalizing lower with
  | nil => exact named
  | cons layer rest inductionHypothesis =>
      obtain ⟨first, others⟩ := List.forall_mem_cons.mp all
      exact inductionHypothesis (named.overlay first.texts) others

/-- Of mappings that are laid over one another in turn, the last one with a name decides. -/
theorem field?_foldl_overlay {lower : Entries} {layers : List Entries}
    (all : ∀ layer ∈ layers, Named layer) (name : String) :
    field? (layers.foldl overlay lower) name
      = (layers.filterMap fun layer => field? layer name).getLast?.or (field? lower name) := by
  induction layers generalizing lower with
  | nil => rfl
  | cons layer rest inductionHypothesis =>
      obtain ⟨first, others⟩ := List.forall_mem_cons.mp all
      have here : field? (overlay lower layer) name = (field? layer name).or (field? lower name) :=
        first.get?_overlay name
      rw [List.foldl_cons, inductionHypothesis others, here, List.filterMap_cons]
      cases field? layer name with
      | none => rfl
      | some value =>
          cases last : (rest.filterMap fun layer => field? layer name).getLast? <;>
            simp [List.getLast?_cons, last]

end Entries

/-- A value whose scalars have a property and whose mappings have distinct texts as keys. -/
inductive Value.Consists (plain : Scalar → Prop) : Value → Prop where
  | scalar {content : Scalar} (isPlain : plain content) : Consists plain (.scalar content)
  | list {items : List Value} (all : ∀ item ∈ items, Consists plain item) : Consists plain (.list items)
  | mapping {entries : Entries} (named : entries.Named)
      (all : ∀ entry ∈ entries, Consists plain entry.2) : Consists plain (.mapping entries)

/-- A value whose scalars have a property has scalars with any weaker one. -/
theorem Value.Consists.mono {plain weaker : Scalar → Prop} {value : Value}
    (consists : value.Consists plain) (implies : ∀ content, plain content → weaker content) :
    value.Consists weaker := by
  induction consists with
  | scalar isPlain => exact .scalar (implies _ isPlain)
  | list _ inductionHypothesis => exact .list inductionHypothesis
  | mapping named _ inductionHypothesis => exact .mapping named inductionHypothesis

/-- The entries of such a mapping stay such when a value of this kind is put among them. -/
theorem Value.Consists.insert {plain : Scalar → Prop} {entries : Entries} {name : String}
    {value : Value} (before : Value.Consists plain (.mapping entries))
    (consists : value.Consists plain) :
    Value.Consists plain (.mapping (entries.insert (.text name) value)) := by
  cases before with
  | mapping named all =>
      refine .mapping named.insert fun entry member => ?_
      rcases Entries.mem_insert member with ⟨same, _⟩ | old
      · rwa [same]
      · exact all entry old

/-- A value of such a mapping is such a value. -/
theorem Value.Consists.of_get? {plain : Scalar → Prop} {entries : Entries} {key : Scalar} {value : Value}
    (consists : Value.Consists plain (.mapping entries)) (found : entries.get? key = some value) :
    Value.Consists plain value := by
  cases consists with
  | mapping named all =>
      obtain ⟨entry, present, rfl⟩ := Option.map_eq_some_iff.mp found
      exact all entry (List.mem_of_find?_eq_some present)

/-- Such a mapping has distinct texts as keys. -/
theorem Value.Consists.named {plain : Scalar → Prop} {entries : Entries}
    (consists : Value.Consists plain (.mapping entries)) : entries.Named := by
  cases consists with
  | mapping named _ => exact named

/-- Without entries there is nothing to have the property. -/
theorem Value.consists_empty (plain : Scalar → Prop) : Value.Consists plain (.mapping []) :=
  .mapping Entries.named_nil nofun

end Scaffold
