import Scaffold.Proofs.Json.Lexing

/-!
# What values settle to

A document has texts as keys and no dates.  Every value with a JSON form is written like one of a document
(`print_written`), in which a key may still stand twice; `settled` is what that is read as: of a repeated key
the last value counts, at the first place.  A value that a document can hold is settled (`settled_eq_self`).
-/

namespace Scaffold.Json

/-- The text that a key is written as. -/
def keyText : Scalar → String
  | .text name => name
  | .torn name => name.filled '\ufffd'
  | .moment value => value.text
  | key => String.ofList (printScalar key)

/-- A scalar as it is written: a date is a text, and so is a torn text. -/
def writtenScalar : Scalar → Scalar
  | .torn value => .text (value.filled '\ufffd')
  | .moment value => .text value.text
  | content => content

mutual

/-- A value as it is written: keys and dates are texts. -/
def written : Value → Value
  | .scalar content => .scalar (writtenScalar content)
  | .list items => .list (writtenItems items)
  | .mapping entries => .mapping (writtenEntries entries)
termination_by structural value => value

/-- The items of a list as they are written. -/
def writtenItems : List Value → List Value
  | [] => []
  | item :: rest => written item :: writtenItems rest
termination_by structural items => items

/-- The entries of a mapping as they are written. -/
def writtenEntries : List (Scalar × Value) → Entries
  | [] => []
  | (key, value) :: rest => (.text (keyText key), written value) :: writtenEntries rest
termination_by structural entries => entries

end

mutual

/-- A value as it is read after it was written. -/
def settled : Value → Value
  | .scalar content => .scalar (writtenScalar content)
  | .list items => .list (settledItems items)
  | .mapping entries => .mapping (Entries.ofPairs (settledEntries entries))
termination_by structural value => value

/-- The items of a list as they are read. -/
def settledItems : List Value → List Value
  | [] => []
  | item :: rest => settled item :: settledItems rest
termination_by structural items => items

/-- The entries of a mapping as they are read, one by one. -/
def settledEntries : List (Scalar × Value) → List (Scalar × Value)
  | [] => []
  | (key, value) :: rest => (.text (keyText key), settled value) :: settledEntries rest
termination_by structural entries => entries

end

variable {layout : Layout} {entries : Entries} {value : Value}

/-- The items are written one by one. -/
theorem writtenItems_eq (items : List Value) : writtenItems items = items.map written := by
  induction items with
  | nil => rfl
  | cons item rest inductionHypothesis => rw [writtenItems, inductionHypothesis, List.map_cons]

/-- The entries are written one by one. -/
theorem writtenEntries_eq (entries : Entries) :
    writtenEntries entries = entries.map fun entry => (.text (keyText entry.1), written entry.2) := by
  induction entries with
  | nil => rfl
  | cons entry rest inductionHypothesis => rw [writtenEntries, inductionHypothesis, List.map_cons]

/-- The items are read one by one. -/
theorem settledItems_eq (items : List Value) : settledItems items = items.map settled := by
  induction items with
  | nil => rfl
  | cons item rest inductionHypothesis => rw [settledItems, inductionHypothesis, List.map_cons]

/-- The entries are read one by one. -/
theorem settledEntries_eq (entries : Entries) :
    settledEntries entries = entries.map fun entry => (.text (keyText entry.1), settled entry.2) := by
  induction entries with
  | nil => rfl
  | cons entry rest inductionHypothesis => rw [settledEntries, inductionHypothesis, List.map_cons]

/-! ## Values that are settled -/

/-- Entries with distinct texts as keys are put in as they are. -/
theorem ofPairs_eq_self (named : entries.Named) : Entries.ofPairs entries = entries := by
  suffices behind : ∀ done : Entries, (done ++ entries).Named → done.overlay entries = done ++ entries by
    exact behind [] named
  intro done together
  induction entries generalizing done with
  | nil => simp
  | cons entry rest inductionHypothesis =>
      obtain ⟨key, value⟩ := entry
      obtain ⟨name, rfl⟩ := named.texts key (by simp)
      have absent : .text name ∉ done.keys := by
        have distinct := together.distinct
        rw [Entries.keys, List.map_append, List.nodup_append] at distinct
        intro present
        exact distinct.2.2 _ present _ (by simp) rfl
      have regroup : done ++ (.text name, value) :: rest = done ++ [(.text name, value)] ++ rest := by simp
      rw [Entries.overlay_cons, Entries.insert_of_notMem absent,
        inductionHypothesis named.tail _ (regroup ▸ together), regroup]

/-- The values of entries with distinct texts as keys settle one by one. -/
theorem ofPairs_settledEntries (named : entries.Named) :
    Entries.ofPairs (settledEntries entries) = entries.map fun entry => (entry.1, settled entry.2) := by
  have same : (entries.map fun entry => ((.text (keyText entry.1) : Scalar), settled entry.2))
      = entries.map fun entry => (entry.1, settled entry.2) := by
    refine List.map_congr_left fun entry member => ?_
    obtain ⟨name, isText⟩ := named.texts entry.1 (List.mem_map_of_mem member)
    rw [isText, keyText]
  have stillNamed : Entries.Named (entries.map fun entry => (entry.1, settled entry.2)) := by
    have sameKeys : Entries.keys (entries.map fun entry => (entry.1, settled entry.2)) = entries.keys := by
      simp [Entries.keys, Function.comp_def]
    exact ⟨sameKeys ▸ named.texts, sameKeys ▸ named.distinct⟩
  rw [settledEntries_eq, same, ofPairs_eq_self stillNamed]

/-- So do those of a mapping. -/
theorem settled_mapping (named : entries.Named) :
    settled (.mapping entries) = .mapping (entries.map fun entry => (entry.1, settled entry.2)) := by
  rw [settled, ofPairs_settledEntries named]

/-- Their keys are read as they are. -/
theorem keys_settledEntries (named : entries.Named) :
    (Entries.ofPairs (settledEntries entries)).keys = entries.keys := by
  rw [ofPairs_settledEntries named]
  simp [Entries.keys, Function.comp_def]

/-- Under every text stands what the value settles to. -/
theorem get?_settledEntries (named : entries.Named) (name : String) :
    Entries.get? (Entries.ofPairs (settledEntries entries)) (.text name)
      = (Entries.get? entries (.text name)).map settled := by
  rw [ofPairs_settledEntries named]
  clear named
  induction entries with
  | nil => rfl
  | cons entry rest inductionHypothesis =>
      obtain ⟨key, value⟩ := entry
      rw [List.map_cons, Entries.get?_cons, Entries.get?_cons, inductionHypothesis]
      split <;> rfl

/-- A value that a document can hold is settled. -/
theorem settled_eq_self (document : IsDocument value) : settled value = value := by
  induction document with
  | @scalar content plain =>
      cases content with
      | moment moment => exact plain.elim
      | torn torn => exact plain.elim
      | _ => rfl
  | list _ inductionHypothesis =>
      rw [settled, settledItems_eq, List.map_congr_left inductionHypothesis, List.map_id']
  | mapping named _ inductionHypothesis =>
      rw [settled_mapping named]
      congr 1
      refine (List.map_congr_left fun entry member => ?_).trans (List.map_id _)
      rw [inductionHypothesis entry member]
      rfl

/-- A scalar is written without lone halves. -/
theorem half?_writtenScalar (content : Scalar) : (writtenScalar content).half? = none := by
  cases content <;> rfl

mutual

/-- What a value settles to has no lone half. -/
theorem half?_settled (value : Value) : (settled value).half? = none := by
  match value with
  | .scalar content => exact half?_writtenScalar content
  | .list items => exact halfOfItems?_settledItems items
  | .mapping entries =>
      have nothing : (Value.mapping []).half? = none := rfl
      exact Partwise.half.overlay nothing (halfOfEntries?_settledEntries entries)

/-- Neither have items. -/
theorem halfOfItems?_settledItems (items : List Value) : Value.halfOfItems? (settledItems items) = none := by
  match items with
  | [] => rfl
  | item :: rest =>
      refine halfOfItems?_eq_none_iff.mpr (List.forall_mem_cons.mpr ⟨half?_settled item, ?_⟩)
      exact halfOfItems?_eq_none_iff.mp (halfOfItems?_settledItems rest)

/-- Neither have entries. -/
theorem halfOfEntries?_settledEntries (entries : List (Scalar × Value)) :
    Value.halfOfEntries? (settledEntries entries) = none := by
  match entries with
  | [] => rfl
  | (key, value) :: rest =>
      refine halfOfEntries?_eq_none_iff.mpr (List.forall_mem_cons.mpr ⟨⟨rfl, half?_settled value⟩, ?_⟩)
      exact halfOfEntries?_eq_none_iff.mp (halfOfEntries?_settledEntries rest)

end

/-! ## Writing -/

/-- A key is written as its text. -/
theorem printKey_eq (key : Scalar) : printKey key = printText (keyText key) := by
  cases key <;> rfl

mutual

/-- A value is written like the value that it is written as. -/
theorem print_written (depth : Nat) (value : Value) :
    print layout depth (written value) = print layout depth value := by
  match value with
  | .scalar content => cases content <;> rfl
  | .list [] => rfl
  | .list (item :: rest) =>
      simp only [written, writtenItems, print, print_written (depth + 1) item,
        printItems_written (depth + 1) rest]
  | .mapping [] => rfl
  | .mapping ((key, value) :: rest) =>
      simp only [written, writtenEntries, print, printKey_eq, keyText, print_written (depth + 1) value,
        printEntries_written (depth + 1) rest]

/-- So are items. -/
theorem printItems_written (depth : Nat) (items : List Value) :
    printItems layout depth (writtenItems items) = printItems layout depth items := by
  match items with
  | [] => rfl
  | item :: rest =>
      simp only [writtenItems, printItems, print_written depth item, printItems_written depth rest]

/-- So are entries. -/
theorem printEntries_written (depth : Nat) (entries : List (Scalar × Value)) :
    printEntries layout depth (writtenEntries entries) = printEntries layout depth entries := by
  match entries with
  | [] => rfl
  | (key, value) :: rest =>
      simp only [writtenEntries, printEntries, printKey_eq, keyText, print_written depth value,
        printEntries_written depth rest]

end

/-- A scalar that can be written is plain where it is written. -/
theorem isPlain_writtenScalar {content : Scalar} (free : writeFault? true (.scalar content) = none) :
    IsPlain (writtenScalar content) := by
  cases content with
  | int value => simpa [writeFault?, IsPlain, writtenScalar] using free
  | _ => trivial

mutual

/-- A value that can be written is split into the tokens that spell it. -/
theorem lexes_written (separates : layout.Separates) (value : Value)
    (free : writeFault? true value = none) : Lexes layout (written value) := by
  match value with
  | .scalar content =>
      intro depth gap rest blank delimited
      obtain ⟨first, others, split, visible, read⟩ :=
        readToken_printScalar (isPlain_writtenScalar free) delimited
      rw [written, print, split]
      exact kinds_token blank visible read
  | .list items => exact .list separates (lexes_writtenItems separates items free)
  | .mapping entries =>
      refine .mapping separates (fun key member => ?_) (lexes_writtenEntries separates entries free)
      rw [writtenEntries_eq, Entries.keys, List.map_map] at member
      obtain ⟨entry, _, same⟩ := List.mem_map.mp member
      exact ⟨_, same.symm⟩

/-- So are items. -/
theorem lexes_writtenItems (separates : layout.Separates) (items : List Value)
    (free : writeFaultItems? true items = none) : ∀ item ∈ writtenItems items, Lexes layout item := by
  match items with
  | [] => exact nofun
  | item :: rest =>
      rw [writeFaultItems?_eq_none_iff, List.forall_mem_cons, ← writeFaultItems?_eq_none_iff] at free
      exact List.forall_mem_cons.mpr
        ⟨lexes_written separates item free.1, lexes_writtenItems separates rest free.2⟩

/-- So are entries. -/
theorem lexes_writtenEntries (separates : layout.Separates) (entries : List (Scalar × Value))
    (free : writeFaultEntries? true entries = none) :
    ∀ entry ∈ writtenEntries entries, Lexes layout entry.2 := by
  match entries with
  | [] => exact nofun
  | (key, value) :: rest =>
      rw [writeFaultEntries?_eq_none_iff, List.forall_mem_cons, ← writeFaultEntries?_eq_none_iff] at free
      exact List.forall_mem_cons.mpr
        ⟨lexes_written separates value free.1.2, lexes_writtenEntries separates rest free.2⟩

end

end Scaffold.Json
