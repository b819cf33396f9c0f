import Scaffold.Proofs.Json.Settling

/-!
# Documents are read back

The machine takes the tokens that spell a value as it is written, and delivers the settled value to the
innermost open collection (`takes_written`).  So a printed value is read as the settled value
(`parse_print_settled`), and a printed document as the value it was printed from (`parse_print`).
-/

namespace Scaffold.Json

/-- Hands tokens to the machine, one after the other. -/
def Machine.feed (machine : Machine) (kinds : List Token) : Except Misfit Machine :=
  kinds.foldlM Machine.step machine

variable {machine next : Machine} {stack outer : List Frame} {spelt value : Value}

/-- Tokens behind others are handed to the machine that these leave. -/
theorem Machine.feed_append {first second : List Token} (fed : machine.feed first = .ok next) :
    machine.feed (first ++ second) = next.feed second := by
  unfold feed at fed ⊢
  rw [List.foldlM_append, fed]
  rfl

/-- The first token leaves a machine for the others. -/
theorem Machine.feed_cons {token : Token} {rest : List Token} (stepped : machine.step token = .ok next) :
    machine.feed (token :: rest) = next.feed rest := by
  unfold feed
  rw [List.foldlM_cons, stepped]
  rfl

/-- A run over tokens that are all taken ends as the machine that they leave. -/
theorem Machine.run_of_feed {length : Nat} {placed : List Placed}
    (fed : machine.feed (placed.map (·.token)) = .ok next) :
    machine.run length placed = next.finish.mapError fun fault => ⟨fault, length⟩ := by
  induction placed generalizing machine with
  | nil =>
      obtain rfl := Except.ok.inj fed
      rfl
  | cons first rest inductionHypothesis =>
      obtain ⟨token, remaining⟩ := first
      rw [Machine.run]
      cases stepped : machine.step token with
      | error misfit =>
          rw [List.map_cons, feed, List.foldlM_cons, stepped] at fed
          cases fed
      | ok after =>
          rw [List.map_cons, feed_cons stepped] at fed
          exact inductionHypothesis fed

/-- The tokens that spell a value are delivered as another one. -/
def Machine.Takes (spelt value : Value) : Prop :=
  ∀ stack, (Machine.mk stack .value).feed (spelled spelt) = .ok (deliver stack value)

/-- No value starts with the end of a list. -/
theorem head_spelled (value : Value) :
    ∃ token rest, spelled value = token :: rest ∧ token ≠ .closeList := by
  cases value with
  | scalar content =>
      refine ⟨tokenOf content, [], rfl, ?_⟩
      cases content <;> simp [tokenOf]
  | list items =>
      cases items with
      | nil => exact ⟨_, _, rfl, by simp⟩
      | cons item rest => exact ⟨_, _, rfl, by simp⟩
  | mapping entries =>
      cases entries with
      | nil => exact ⟨_, _, rfl, by simp⟩
      | cons entry rest => exact ⟨_, _, rfl, by simp⟩

/-- The first item of a list is taken like any other value. -/
theorem Machine.Takes.firstItem (takes : Machine.Takes spelt value) (done : List Value)
    (outer : List Frame) :
    (Machine.mk (.items done :: outer) .firstItem).feed (spelled spelt)
      = .ok ⟨.items (value :: done) :: outer, .comma⟩ := by
  obtain ⟨token, rest, split, notEnd⟩ := head_spelled spelt
  have taken := takes (.items done :: outer)
  rw [split] at taken ⊢
  have same : (Machine.mk (.items done :: outer) .firstItem).step token
      = (Machine.mk (.items done :: outer) .value).step token := by
    cases token <;> first | rfl | exact absurd rfl notEnd
  rw [feed, List.foldlM_cons, same]
  exact taken

/-- The items after the first are taken one by one; each is given with what it is read as. -/
theorem feed_spelledItems {items : List (Value × Value)}
    (all : ∀ item ∈ items, Machine.Takes item.1 item.2) (done : List Value) (outer : List Frame) :
    (Machine.mk (.items done :: outer) .comma).feed (spelledItems (items.map (·.1)))
      = .ok ⟨.items ((items.map (·.2)).reverse ++ done) :: outer, .comma⟩ := by
  induction items generalizing done with
  | nil => rfl
  | cons item items inductionHypothesis =>
      obtain ⟨here, others⟩ := List.forall_mem_cons.mp all
      have comma : (Machine.mk (.items done :: outer) .comma).step .comma
        = .ok ⟨.items done :: outer, .value⟩ := rfl
      rw [List.map_cons, spelledItems, List.cons_append, Machine.feed_cons comma,
        Machine.feed_append (here _), Machine.deliver, inductionHypothesis others]
      simp

/-- A key, a colon and a value are taken as an entry. -/
theorem feed_entry {mode : Mode} (name : String) (takes : Machine.Takes spelt value) (done : Entries)
    (outer : List Frame) (named : mode = .firstName ∨ mode = .name) :
    (Machine.mk (.entries done :: outer) mode).feed (.text name :: .colon :: spelled spelt)
      = .ok ⟨.entries (done.insert (.text name) value) :: outer, .comma⟩ := by
  have key : (Machine.mk (.entries done :: outer) mode).step (.text name)
      = .ok ⟨.entries done :: outer, .colon (.text name)⟩ := by
    rcases named with rfl | rfl <;> rfl
  have colon : (Machine.mk (.entries done :: outer) (.colon (.text name))).step .colon
      = .ok ⟨.entry done (.text name) :: outer, .value⟩ := rfl
  rw [Machine.feed_cons key, Machine.feed_cons colon]
  exact takes _

/-- An entry that is read: its name, its value as it is spelled, and what that is read as. -/
structure ReadEntry where
  name : String
  spelt : Value
  value : Value

/-- The entry as it is spelled. -/
def ReadEntry.before (entry : ReadEntry) : Scalar × Value := (.text entry.name, entry.spelt)

/-- The entry as it is read. -/
def ReadEntry.after (entry : ReadEntry) : Scalar × Value := (.text entry.name, entry.value)

/-- The entries after the first are taken one by one, each put among those before it. -/
theorem feed_spelledEntries {entries : List ReadEntry}
    (all : ∀ entry ∈ entries, Machine.Takes entry.spelt entry.value) (done : Entries)
    (outer : List Frame) :
    (Machine.mk (.entries done :: outer) .comma).feed (spelledEntries (entries.map ReadEntry.before))
      = .ok ⟨.entries (done.overlay (entries.map ReadEntry.after)) :: outer, .comma⟩ := by
  induction entries generalizing done with
  | nil => rfl
  | cons entry entries inductionHypothesis =>
      obtain ⟨here, others⟩ := List.forall_mem_cons.mp all
      have comma : (Machine.mk (.entries done :: outer) .comma).step .comma
        = .ok ⟨.entries done :: outer, .name⟩ := rfl
      have split : spelledEntries ((entry :: entries).map ReadEntry.before)
          = .comma :: ((.text entry.name :: .colon :: spelled entry.spelt)
            ++ spelledEntries (entries.map ReadEntry.before)) := by
        simp [spelledEntries, tokenOf, ReadEntry.before]
      rw [split, Machine.feed_cons comma,
        Machine.feed_append (feed_entry entry.name here done outer (.inr rfl)), inductionHypothesis others]
      rfl

/-- The tokens of a list are taken as the list. -/
theorem Machine.Takes.list {items : List (Value × Value)}
    (all : ∀ item ∈ items, Machine.Takes item.1 item.2) :
    Machine.Takes (.list (items.map (·.1))) (.list (items.map (·.2))) := by
  intro stack
  cases items with
  | nil => rfl
  | cons item items =>
      obtain ⟨here, others⟩ := List.forall_mem_cons.mp all
      have opening : (Machine.mk stack .value).step .openList
          = .ok ⟨.items [] :: stack, .firstItem⟩ := rfl
      have close : (Machine.mk (.items ((items.map (·.2)).reverse ++ [item.2]) :: stack) .comma).feed
            [.closeList]
          = .ok (Machine.deliver stack (.list ((items.map (·.2)).reverse ++ [item.2]).reverse)) := rfl
      rw [List.map_cons, spelled, List.cons_append, List.cons_append, feed_cons opening,
        List.append_assoc, feed_append (here.firstItem [] stack),
        feed_append (feed_spelledItems others [item.2] stack), close]
      simp

/-- The tokens of a mapping are taken as the mapping of its entries, put in one after the other. -/
theorem Machine.Takes.mapping {entries : List ReadEntry}
    (all : ∀ entry ∈ entries, Machine.Takes entry.spelt entry.value) :
    Machine.Takes (.mapping (entries.map ReadEntry.before))
      (.mapping (Entries.ofPairs (entries.map ReadEntry.after))) := by
  intro stack
  cases entries with
  | nil => rfl
  | cons entry entries =>
      obtain ⟨here, others⟩ := List.forall_mem_cons.mp all
      have opening : (Machine.mk stack .value).step .openMapping
          = .ok ⟨.entries [] :: stack, .firstName⟩ := rfl
      have first := feed_entry entry.name here [] stack (.inl rfl)
      have split : spelled (.mapping ((entry :: entries).map ReadEntry.before))
          = .openMapping :: ((.text entry.name :: .colon :: spelled entry.spelt)
            ++ (spelledEntries (entries.map ReadEntry.before) ++ [.closeMapping])) := by
        simp [spelled, tokenOf, ReadEntry.before]
      rw [split, feed_cons opening, feed_append first, feed_append (feed_spelledEntries others _ stack)]
      rfl

mutual

/-- The tokens that spell a value as it is written are taken as the settled value. -/
theorem takes_written (value : Value) : Machine.Takes (written value) (settled value) := by
  match value with
  | .scalar content =>
      intro stack
      cases content <;> rfl
  | .list items =>
      have all := @Machine.Takes.list (items.map fun item => (written item, settled item))
        fun item member => by
          obtain ⟨source, inside, rfl⟩ := List.mem_map.mp member
          exact takes_writtenItems items source inside
      rw [List.map_map, List.map_map] at all
      rw [written, settled, writtenItems_eq, settledItems_eq]
      exact all
  | .mapping entries =>
      have all := @Machine.Takes.mapping
        (entries.map fun entry => ⟨keyText entry.1, written entry.2, settled entry.2⟩)
        fun entry member => by
          obtain ⟨source, inside, rfl⟩ := List.mem_map.mp member
          exact takes_writtenEntries entries source inside
      rw [List.map_map, List.map_map] at all
      rw [written, settled, writtenEntries_eq, settledEntries_eq]
      exact all

/-- So are those of items. -/
theorem takes_writtenItems (items : List Value) :
    ∀ item ∈ items, Machine.Takes (written item) (settled item) := by
  match items with
  | [] => exact nofun
  | item :: rest => exact List.forall_mem_cons.mpr ⟨takes_written item, takes_writtenItems rest⟩

/-- So are those of entries. -/
theorem takes_writtenEntries (entries : List (Scalar × Value)) :
    ∀ entry ∈ entries, Machine.Takes (written entry.2) (settled entry.2) := by
  match entries with
  | [] => exact nofun
  | (key, value) :: rest =>
      exact List.forall_mem_cons.mpr ⟨takes_written value, takes_writtenEntries rest⟩

end

/-- Nothing but spaces has no tokens. -/
theorem kinds_blank {gap : List Char} (blank : ∀ c ∈ gap, isSpace c) : kinds gap = [] := by
  unfold kinds
  rw [tokens, List.dropWhile_eq_nil_iff.mpr blank]
  rfl

/-- A byte order mark is no token. -/
theorem kinds_byteOrderMark (rest : List Char) :
    ∃ others, kinds ('\ufeff' :: rest) = .unknown :: others := by
  have unknown : readToken '\ufeff' rest = (.unknown, []) := rfl
  have start : ('\ufeff' :: rest).dropWhile isSpace = '\ufeff' :: rest := rfl
  unfold kinds
  rw [tokens, start]
  simp only [unknown, List.map_cons]
  exact ⟨_, rfl⟩

/-- A printed value is read as the settled value, also with spaces behind it. -/
theorem parse_print_settled {layout : Layout} (separates : layout.Separates)
    (free : writeFault? true value = none) (gap : List Char) (blank : ∀ c ∈ gap, isSpace c) :
    parse (print layout 0 value ++ gap) = .ok (settled value) := by
  have ends : Delimits ([] : List Char) := nofun
  have lexed := lexes_written separates value free 0 [] gap nofun (by simpa using ends.append blank)
  have fed : Machine.start.feed (spelled (written value)) = .ok ⟨[], .done (settled value)⟩ :=
    takes_written value []
  rw [List.nil_append, print_written, kinds_blank blank, List.append_nil] at lexed
  generalize print layout 0 value ++ gap = text at lexed
  unfold parse
  split
  next rest =>
    obtain ⟨others, unknown⟩ := kinds_byteOrderMark rest
    rw [← lexed, unknown] at fed
    cases fed
  next =>
    rw [Machine.run_of_feed (lexed ▸ fed : Machine.start.feed ((tokens text).map (·.token)) = _)]
    rfl

/-- A printed document is read as the value it was printed from, also with spaces behind it. -/
theorem parse_print {layout : Layout} (separates : layout.Separates) (document : IsDocument value)
    (gap : List Char) (blank : ∀ c ∈ gap, isSpace c) :
    parse (print layout 0 value ++ gap) = .ok value := by
  rw [parse_print_settled separates (writeFault?_of_isDocument document) gap blank,
    settled_eq_self document]

/-- A document can hold what a value with a JSON form settles to. -/
theorem isDocument_settled (free : writeFault? true value = none) : IsDocument (settled value) :=
  (isReading_of_parse (parse_print_settled separates_tree free [] (List.forall_mem_nil _))).isDocument
    (half?_settled value)

end Scaffold.Json
