import Scaffold.Template.Render
import Scaffold.Proofs.Text.Search
import Scaffold.Proofs.Template.Rendering

/-!
# Lists in source files

A list is written into a source file with its items between quotation marks and nothing escaped in them.  So two
lists have the same literal exactly if neither has items, or both have and the items are joined to the same text
(`listLiteral_eq_iff`).  A reader that stops at each separator finds an item again exactly if the separator does not
stand in it, not even with the quotation mark behind it (`IsReadable`).
-/

namespace Scaffold.Template

open Text

variable {destination : Destination} {items others : List String} {item rest text : List Char}
  {pieces : List (List Char)}

/-- What stands between two items: a closing quotation mark, a comma, a space and an opening quotation mark. -/
def itemSeparator : List Char := ['\'', ',', ' ', '\'']

/-- The separator ends neither in an item nor with the quotation mark behind it. -/
def IsReadable (item : String) : Prop := ¬itemSeparator <:+: item.toList ++ ['\'']

instance (item : String) : Decidable (IsReadable item) :=
  decidable_of_iff (¬occursIn itemSeparator (item.toList ++ ['\'']) = true) (not_congr occursIn_eq_true_iff)

/-- The literal of a list. -/
def listLiteral (items : List String) : String :=
  "[" ++ String.intercalate ", " (items.map fun item => "'" ++ item ++ "'") ++ "]"

/-! ## Literals and joined items -/

/-- The items of a list, joined. -/
def joinedItems (items : List String) : List Char := joinWith itemSeparator (items.map String.toList)

/-- The literal of a list without items. -/
theorem toList_listLiteral_nil : (listLiteral []).toList = ['[', ']'] := by decide

/-- Quoted items with commas between them are the joined items between quotation marks. -/
theorem joinWith_quoted (nonempty : pieces ≠ []) :
    joinWith [',', ' '] (pieces.map fun piece => ['\''] ++ piece ++ ['\''])
      = ['\''] ++ joinWith itemSeparator pieces ++ ['\''] := by
  induction pieces with
  | nil => exact absurd rfl nonempty
  | cons piece pieces inductionHypothesis =>
      by_cases last : pieces = []
      · subst last
        rfl
      · rw [List.map_cons, joinWith_cons (by simpa using last), inductionHypothesis last, joinWith_cons last,
          itemSeparator]
        simp

/-- The literal of a list with items. -/
theorem toList_listLiteral (nonempty : items ≠ []) :
    (listLiteral items).toList = '[' :: '\'' :: (joinedItems items ++ ['\'', ']']) := by
  have quoted : (items.map fun item => "'" ++ item ++ "'").map String.toList
      = (items.map String.toList).map fun piece => ['\''] ++ piece ++ ['\''] := by
    simp [Function.comp_def]
  have comma : (", ".toList : List Char) = [',', ' '] := by decide
  rw [listLiteral, String.toList_append, String.toList_append, String.toList_intercalate, quoted, comma,
    ← joinWith_eq_intercalate, joinWith_quoted (by simpa using nonempty), joinedItems]
  simp

/-- Two lists have the same literal if neither has items, or both have and are joined to the same text. -/
theorem listLiteral_eq_iff : listLiteral items = listLiteral others
    ↔ (items = [] ↔ others = []) ∧ joinedItems items = joinedItems others := by
  have apart {some : List String} (nonempty : some ≠ []) : listLiteral some ≠ listLiteral [] := by
    intro same
    have characters := congrArg String.toList same
    rw [toList_listLiteral nonempty, toList_listLiteral_nil] at characters
    simp at characters
  by_cases none : items = []
  · subst none
    by_cases noOthers : others = []
    · subst noOthers
      simp
    · exact iff_of_false (apart noOthers).symm fun both => noOthers (both.1.mp rfl)
  · by_cases noOthers : others = []
    · subst noOthers
      exact iff_of_false (apart none) fun both => none (both.1.mpr rfl)
    · rw [← String.toList_inj, toList_listLiteral none, toList_listLiteral noOthers]
      simp [none, noOthers]

/-! ## Items that are read back -/

/-- Joined items are cut behind the first one, if it is readable. -/
theorem cutAt?_of_readable (readable : ¬itemSeparator <:+: item ++ ['\'']) (rest : List Char) :
    cutAt? itemSeparator (item ++ itemSeparator ++ rest) = some (item, rest) := by
  induction item with
  | nil => exact cutAt?_self (List.cons_ne_nil _ _) rest
  | cons c item inductionHypothesis =>
      have later : ¬itemSeparator <:+: item ++ ['\''] := fun inside =>
        readable (inside.trans (List.suffix_cons c _).isInfix)
      have unstarted : ¬itemSeparator.isPrefixOf (c :: (item ++ itemSeparator ++ rest)) = true := by
        rw [List.isPrefixOf_iff_prefix]
        intro starts
        match item with
        -- A separator that starts less than three characters before another one would differ from it.
        | [] => simp [itemSeparator] at starts
        | [d] => simp [itemSeparator] at starts
        | d :: e :: more =>
            have quoted : c :: (d :: e :: more ++ ['\''])
                <+: c :: (d :: e :: more ++ itemSeparator ++ rest) := by
              refine ⟨[',', ' ', '\''] ++ rest, ?_⟩
              simp [itemSeparator]
            exact readable (List.prefix_of_prefix_length_le starts quoted
              (by simp [itemSeparator])).isInfix
      rw [List.cons_append, List.cons_append, cutAt?, if_neg unstarted, inductionHypothesis later]
      rfl

/-- Readable items are read back from the text that they are joined to. -/
theorem joinWith_inj {first second : List (List Char)} (nonempty : first ≠ []) (nonempty' : second ≠ [])
    (readable : ∀ item ∈ first, ¬itemSeparator <:+: item ++ ['\''])
    (readable' : ∀ item ∈ second, ¬itemSeparator <:+: item ++ ['\''])
    (same : joinWith itemSeparator first = joinWith itemSeparator second) : first = second := by
  -- A single readable item has no separator in it, so it is joined from nothing else.
  have whole {item next : List Char} {more : List (List Char)} (reads : ¬itemSeparator <:+: item ++ ['\'']) :
      item ≠ next ++ itemSeparator ++ joinWith itemSeparator more := by
    rintro rfl
    exact reads ⟨next, joinWith itemSeparator more ++ ['\''], by simp⟩
  induction first generalizing second with
  | nil => exact absurd rfl nonempty
  | cons item first inductionHypothesis =>
      obtain ⟨next, second, rfl⟩ := List.exists_cons_of_ne_nil nonempty'
      obtain ⟨here, later⟩ := List.forall_mem_cons.mp readable
      obtain ⟨here', later'⟩ := List.forall_mem_cons.mp readable'
      by_cases last : first = []
      · subst last
        by_cases last' : second = []
        · subst last'
          exact congrArg (fun piece => [piece]) same
        · rw [joinWith_cons last'] at same
          exact absurd same (whole here)
      · by_cases last' : second = []
        · subst last'
          rw [joinWith_cons last] at same
          exact absurd same.symm (whole here')
        · rw [joinWith_cons last, joinWith_cons last'] at same
          have cut := cutAt?_of_readable here (joinWith itemSeparator first)
          rw [same, cutAt?_of_readable here'] at cut
          obtain ⟨rfl, joined⟩ := Prod.mk.inj (Option.some.inj cut)
          rw [inductionHypothesis last last' later later' joined.symm]

/-- What stands before the first separator is readable. -/
theorem readable_of_cutAt? (found : cutAt? itemSeparator text = some (item, rest)) :
    ¬itemSeparator <:+: item ++ ['\''] := by
  rintro ⟨front, back, split⟩
  have again : cutAt? itemSeparator (item ++ itemSeparator ++ []) = some (item, []) :=
    cutAt?_append (List.cons_ne_nil _ _) found []
  have whole : item ++ itemSeparator ++ [] = front ++ itemSeparator ++ (back ++ [',', ' ', '\'']) := by
    have quoted : item ++ itemSeparator ++ [] = item ++ ['\''] ++ [',', ' ', '\''] := by simp [itemSeparator]
    rw [quoted, ← split]
    simp
  rw [whole] at again
  have first := length_le_of_cutAt? again
  have lengths := congrArg List.length split
  simp only [List.length_append, itemSeparator, List.length_cons, List.length_nil] at lengths
  omega

/-- A text that is empty or ends in a quotation mark is joined from readable items. -/
theorem exists_readable (text : List Char) (closed : ∀ c, text.getLast? = some c → c = '\'') :
    ∃ pieces, pieces ≠ [] ∧ joinWith itemSeparator pieces = text
      ∧ ∀ piece ∈ pieces, ¬itemSeparator <:+: piece ++ ['\''] := by
  cases found : cutAt? itemSeparator text with
  | none =>
      refine ⟨[text], List.cons_ne_nil _ _, rfl, ?_⟩
      rw [List.forall_mem_singleton, List.infix_concat_iff, not_or]
      constructor
      · intro ends
        obtain nothing | ⟨front, split, suffix⟩ := List.suffix_concat_iff.mp ends
        · exact absurd nothing (List.cons_ne_nil _ _)
        · replace split : ['\'', ',', ' '] ++ ['\''] = front ++ ['\''] := split
          have opened : front = ['\'', ',', ' '] := (List.append_inj_left' split rfl).symm
          obtain ⟨before, rfl⟩ := suffix
          exact absurd (closed ' ' (by simp [opened])) (by decide)
      · rintro ⟨before, after, rfl⟩
        exact cutAt?_ne_none before itemSeparator after found
  | some parts =>
      obtain ⟨item, rest⟩ := parts
      have whole := append_of_cutAt? found
      have shorter : rest.length < text.length := by
        have lengths := congrArg List.length whole
        simp only [List.length_append, itemSeparator, List.length_cons, List.length_nil] at lengths
        omega
      obtain ⟨pieces, nonempty, joined, readable⟩ := exists_readable rest fun c last => closed c (by
        rw [← whole, List.getLast?_append, last]
        rfl)
      refine ⟨item :: pieces, List.cons_ne_nil _ _, ?_, List.forall_mem_cons.mpr ⟨readable_of_cutAt? found, readable⟩⟩
      rw [joinWith_cons nonempty, joined, whole]
termination_by text.length

/-! ## Formatted lists -/

/-- A list of texts is written as its literal where lists are written so. -/
theorem formatValue_eq_listLiteral (quotes : destination.quotesItems = true) (items : List String) :
    formatValue destination (.texts items) = .ok (listLiteral items) := by
  rw [Value.texts, formatValue, mapM_formatItem_text]
  simp only [quotes, bind, Except.bind, if_true]
  rfl

/-- Lists of readable items are told apart by their literals. -/
theorem listLiteral_inj (readable : ∀ item ∈ items, IsReadable item) (readable' : ∀ other ∈ others, IsReadable other)
    (same : listLiteral items = listLiteral others) : items = others := by
  obtain ⟨alike, joined⟩ := listLiteral_eq_iff.mp same
  by_cases none : items = []
  · rw [none, alike.mp none]
  · have characters : items.map String.toList = others.map String.toList :=
      joinWith_inj (by simpa using none) (by simpa using alike.not.mp none)
        (List.forall_mem_map.mpr readable) (List.forall_mem_map.mpr readable') joined
    exact List.map_injective_iff.mpr (fun _ _ => String.toList_injective) characters

/-- The literal of an unreadable item with an empty one behind it is also the literal of readable items. -/
theorem exists_listLiteral_eq {item : String} (unreadable : ¬IsReadable item) :
    ∃ others, (∀ other ∈ others, IsReadable other) ∧ others ≠ [item, ""]
      ∧ listLiteral others = listLiteral [item, ""] := by
  obtain ⟨pieces, nonempty, joined, readable⟩ := exists_readable (item.toList ++ itemSeparator) fun c last => by
    rw [List.getLast?_append] at last
    exact (Option.some.inj last).symm
  refine ⟨pieces.map String.ofList, ?_, ?_, ?_⟩
  · rw [List.forall_mem_map]
    exact fun piece member => by simpa [IsReadable] using readable piece member
  · rintro same
    refine unreadable ?_
    have among : item.toList ∈ pieces := by
      have back := congrArg (List.map String.toList) same
      simp only [List.map_map, Function.comp_def, String.toList_ofList, List.map_id'] at back
      rw [back]
      exact List.mem_cons_self
    exact readable _ among
  · rw [listLiteral_eq_iff]
    refine ⟨by simpa using nonempty, ?_⟩
    rw [joinedItems, joinedItems, List.map_map]
    simp only [Function.comp_def, String.toList_ofList, List.map_id', joined]
    simp [joinWith]

/-- A list is the only one with its literal exactly if it has no items, or one item without a separator in it. -/
theorem listLiteral_unique_iff : (∀ others, listLiteral others = listLiteral items → others = items)
    ↔ items = [] ∨ ∃ item, items = [item] ∧ ¬itemSeparator <:+: item.toList := by
  constructor
  · intro only
    obtain _ | ⟨item, _ | ⟨second, more⟩⟩ := items
    · exact .inl rfl
    · refine .inr ⟨item, rfl, ?_⟩
      rintro ⟨before, after, split⟩
      have other := only [String.ofList before, String.ofList after]
        (listLiteral_eq_iff.mpr ⟨by simp, by simp [joinedItems, joinWith, split]⟩)
      simp at other
    · -- All the items together are one item of the same literal.
      have other := only [String.ofList (joinedItems (item :: second :: more))]
        (listLiteral_eq_iff.mpr ⟨by simp, by simp [joinedItems, joinWith]⟩)
      simp at other
  · rintro (rfl | ⟨item, rfl, whole⟩) others same
    · exact (listLiteral_eq_iff.mp same).1.mpr rfl
    · obtain ⟨alike, joined⟩ := listLiteral_eq_iff.mp same
      obtain _ | ⟨first, _ | ⟨second, more⟩⟩ := others
      · simp at alike
      · rw [String.toList_injective joined]
      · rw [joinedItems, List.map_cons, joinWith_cons (by simp)] at joined
        exact absurd ⟨first.toList, _, joined⟩ whole

/-- Where lists are written as literals, lists of readable items are told apart by what is written for them; a text
that is not readable makes it the same for two lists, and a list with several items is never the only one that is
written so. -/
theorem formatValue_determines (notCommand : destination.kind ≠ some .runCommand)
    (source : (Path.ofText destination.path).suffix ∈ sourceSuffixes) :
    (∀ items others : List String, (∀ item ∈ items, IsReadable item) → (∀ other ∈ others, IsReadable other)
        → formatValue destination (.texts items) = formatValue destination (.texts others) → items = others)
      ∧ (∀ item : String, ¬IsReadable item → ∃ others : List String, (∀ other ∈ others, IsReadable other)
        ∧ others ≠ [item, ""]
        ∧ formatValue destination (.texts others) = formatValue destination (.texts [item, ""]))
      ∧ ∀ items : List String, (∀ others : List String,
          formatValue destination (.texts others) = formatValue destination (.texts items) → others = items)
        ↔ items = [] ∨ ∃ item, items = [item] ∧ ¬itemSeparator <:+: item.toList := by
  have quotes : destination.quotesItems = true := by
    simp [Destination.quotesItems, notCommand, source]
  simp only [formatValue_eq_listLiteral quotes, Except.ok.injEq]
  exact ⟨fun _ _ => listLiteral_inj, fun _ => exists_listLiteral_eq, fun _ => listLiteral_unique_iff⟩

/-- A page of a project. -/
def page : Destination := ⟨"app/page.tsx", some .createFile⟩

/-- Items with quotation marks and commas in them are still told apart. -/
theorem formatValue_determines_quotes :
    page.kind ≠ some .runCommand ∧ (Path.ofText page.path).suffix ∈ sourceSuffixes
      ∧ formatValue page (.texts ["it's", ", 'b"]) ≠ formatValue page (.texts ["it's", "b"]) := by
  have notCommand : page.kind ≠ some .runCommand := by decide
  have source : (Path.ofText page.path).suffix ∈ sourceSuffixes := by decide
  refine ⟨notCommand, source, fun same => ?_⟩
  exact absurd ((formatValue_determines notCommand source).1 _ _ (by decide) (by decide) same) (by decide)

/-- An item with the separator in it is written as two items are. -/
theorem formatValue_collides :
    page.kind ≠ some .runCommand ∧ (Path.ofText page.path).suffix ∈ sourceSuffixes
      ∧ formatValue page (.texts ["a', 'b"]) = formatValue page (.texts ["a", "b"])
      ∧ ["a', 'b"] ≠ ["a", "b"] := by
  refine ⟨by decide, by decide, ?_, by decide⟩
  rfl

end Scaffold.Template
