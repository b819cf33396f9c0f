import Scaffold.Proofs.Json.RoundTrip

/-!
# Names that occur once

An object in a text may have two members of one name.  `namesApart` finds out from the tokens of the text,
and the text of a value has no such object just if the keys of its mappings are written differently
(`namesApart_print`).
-/

namespace Scaffold

/-- The keys of every mapping inside of a value are written differently. -/
inductive Value.SpeltApart : Value → Prop where
  | scalar {content : Scalar} : SpeltApart (.scalar content)
  | list {items : List Value} (all : ∀ item ∈ items, SpeltApart item) : SpeltApart (.list items)
  | mapping {entries : Entries} (apart : (entries.map fun entry => Json.keyText entry.1).Nodup)
      (all : ∀ entry ∈ entries, SpeltApart entry.2) : SpeltApart (.mapping entries)

namespace Json

/-- Whether no object among tokens has two members of one name, behind the names of the objects that are
still open, innermost first. -/
def namesApart : List (List String) → List Token → Bool
  | _, [] => true
  | objects, .openMapping :: rest => namesApart ([] :: objects) rest
  | objects, .closeMapping :: rest => namesApart objects.tail rest
  | objects, .text name :: rest =>
    -- A text is a name just if a colon follows.
    if rest.head? = some .colon then
      !(objects.headD []).contains name
        && namesApart ((name :: objects.headD []) :: objects.tail) rest
    else namesApart objects rest
  | objects, _ :: rest => namesApart objects rest

/-- No object in a text has two members of one name. -/
def NamesApart (text : String) : Prop := namesApart [] (kinds text.toList) = true

variable {objects outer : List (List String)} {names : List String} {rest : List Token}
  {items : List Value} {entries : Entries}

/-- A list is written apart if its items are. -/
theorem speltApart_list : (Value.list items).SpeltApart ↔ ∀ item ∈ items, item.SpeltApart :=
  ⟨fun apart => by cases apart; assumption, .list⟩

/-- A mapping is written apart if its keys and its values are. -/
theorem speltApart_mapping : (Value.mapping entries).SpeltApart
    ↔ (entries.map fun entry => keyText entry.1).Nodup ∧ ∀ entry ∈ entries, entry.2.SpeltApart :=
  ⟨fun apart => by cases apart; exact ⟨‹_›, ‹_›⟩, fun apart => .mapping apart.1 apart.2⟩

/-- A scalar that is no name has no part in the names. -/
theorem namesApart_tokenOf (content : Scalar) (noName : rest.head? ≠ some .colon) :
    namesApart objects (tokenOf content :: rest) = namesApart objects rest := by
  cases content <;> simp [tokenOf, namesApart, noName]

/-- A name before a colon is a new one. -/
theorem namesApart_name (name : String) :
    namesApart (names :: outer) (.text name :: .colon :: rest) = true
      ↔ name ∉ names ∧ namesApart ((name :: names) :: outer) rest = true := by
  simp [namesApart]

/-- The tokens of a list are those of its items, each behind a comma. -/
theorem namesApart_spelled_list :
    namesApart objects (spelled (.list items) ++ rest)
      = namesApart objects (spelledItems items ++ .closeList :: rest) := by
  cases items <;> simp [spelled, spelledItems, namesApart]

/-- The tokens of a mapping are those of its entries, each behind a comma. -/
theorem namesApart_spelled_mapping :
    namesApart objects (spelled (.mapping entries) ++ rest)
      = namesApart ([] :: objects) (spelledEntries entries ++ .closeMapping :: rest) := by
  cases entries <;> simp [spelled, spelledEntries, namesApart]

/-- No colon follows the items of a list. -/
theorem head?_spelledItems (noName : rest.head? ≠ some .colon) :
    (spelledItems items ++ rest).head? ≠ some .colon := by
  cases items with
  | nil => exact noName
  | cons item items => simp [spelledItems]

/-- No colon follows the entries of a mapping. -/
theorem head?_spelledEntries (noName : rest.head? ≠ some .colon) :
    (spelledEntries entries ++ rest).head? ≠ some .colon := by
  cases entries with
  | nil => exact noName
  | cons entry entries => simp [spelledEntries]

mutual

/-- The names in the tokens of a value are apart just if the value is written apart. -/
theorem namesApart_written (value : Value) (objects : List (List String)) (rest : List Token)
    (noName : rest.head? ≠ some .colon) :
    namesApart objects (spelled (written value) ++ rest) = true
      ↔ value.SpeltApart ∧ namesApart objects rest = true := by
  match value with
  | .scalar content =>
      rw [written, spelled, List.singleton_append, namesApart_tokenOf _ noName]
      exact ⟨fun later => ⟨.scalar, later⟩, And.right⟩
  | .list items =>
      rw [written, namesApart_spelled_list, namesApart_writtenItems items objects _ (by simp),
        speltApart_list]
      simp [namesApart]
  | .mapping entries =>
      rw [written, namesApart_spelled_mapping, namesApart_writtenEntries entries [] objects,
        speltApart_mapping]
      simp [and_assoc]

/-- So are those of items. -/
theorem namesApart_writtenItems (items : List Value) (objects : List (List String)) (rest : List Token)
    (noName : rest.head? ≠ some .colon) :
    namesApart objects (spelledItems (writtenItems items) ++ rest) = true
      ↔ (∀ item ∈ items, item.SpeltApart) ∧ namesApart objects rest = true := by
  match items with
  | [] => simp [writtenItems, spelledItems]
  | item :: items =>
      have split : namesApart objects (spelledItems (writtenItems (item :: items)) ++ rest)
          = namesApart objects (spelled (written item) ++ (spelledItems (writtenItems items) ++ rest)) := by
        simp [writtenItems, spelledItems, namesApart]
      rw [split, namesApart_written item _ _ (head?_spelledItems noName),
        namesApart_writtenItems items _ _ noName, List.forall_mem_cons, and_assoc]

/-- So are those of entries, whose names are also apart from those before them. -/
theorem namesApart_writtenEntries (entries : List (Scalar × Value)) (names : List String)
    (outer : List (List String)) (rest : List Token) :
    namesApart (names :: outer) (spelledEntries (writtenEntries entries) ++ .closeMapping :: rest) = true
      ↔ ((entries.map fun entry => keyText entry.1).Nodup
          ∧ ∀ entry ∈ entries, keyText entry.1 ∉ names)
        ∧ (∀ entry ∈ entries, entry.2.SpeltApart) ∧ namesApart outer rest = true := by
  match entries with
  | [] => simp [writtenEntries, spelledEntries, namesApart]
  | (key, value) :: entries =>
      have split : namesApart (names :: outer)
            (spelledEntries (writtenEntries ((key, value) :: entries)) ++ .closeMapping :: rest)
          = namesApart (names :: outer) (.text (keyText key) :: .colon :: (spelled (written value)
            ++ (spelledEntries (writtenEntries entries) ++ .closeMapping :: rest))) := by
        simp [writtenEntries, spelledEntries, tokenOf, namesApart]
      rw [split, namesApart_name, namesApart_written value _ _ (head?_spelledEntries (by simp)),
        namesApart_writtenEntries entries, List.map_cons, List.nodup_cons, List.forall_mem_cons,
        List.forall_mem_cons]
      have apart : (∀ entry ∈ entries, keyText entry.1 ∉ keyText key :: names)
          ↔ keyText key ∉ (entries.map fun entry => keyText entry.1)
            ∧ ∀ entry ∈ entries, keyText entry.1 ∉ names := by
        simp [not_or, forall_and]
      rw [apart]
      tauto

end

variable {layout : Layout} {value : Value}

/-- The text of a value has no object with two members of one name just if the value is written apart. -/
theorem namesApart_print (separates : layout.Separates) (free : writeFault? true value = none)
    {gap : List Char} (blank : ∀ c ∈ gap, isSpace c) :
    NamesApart (String.ofList (print layout 0 value ++ gap)) ↔ value.SpeltApart := by
  have ends : Delimits ([] : List Char) := nofun
  have lexed := lexes_written separates value free 0 [] gap nofun (by simpa using ends.append blank)
  rw [List.nil_append, print_written, kinds_blank blank] at lexed
  rw [NamesApart, String.toList_ofList, lexed, namesApart_written value [] [] (by simp)]
  exact and_iff_left (by simp [namesApart])

/-- A name may stand again in an object inside, and not twice in one object. -/
example : namesApart [] [.openMapping, .text "a", .colon, .openMapping, .text "a", .colon, .text "a",
      .closeMapping, .closeMapping] = true
    ∧ namesApart [] [.openMapping, .text "a", .colon, .openMapping, .closeMapping, .comma, .text "a",
      .colon, .scalar .null, .closeMapping] = false := by decide

end Json

end Scaffold
