import Scaffold.Merge.Apply
import Scaffold.Proofs.Computation
import Scaffold.Proofs.Json.Characters
import Scaffold.Proofs.Json.RoundTrip
import Scaffold.Proofs.Merge.Mending

/-!
# The text of a structured file

An object that a document can hold has one text as a structured file, and is read back from it
(`parseStructured_printed`).  An object without dates is dumped and read back unless it holds an integer
that is too long to be written (`parseStructured_dumpStructured`).  A deep merge into an object that was read
can be written just if the merged object can be and no lone half is left, so whether a merge succeeds does not
depend on anything else in the file.
-/

namespace Scaffold

open Json

variable {entries lower upper : Entries} {text : String}

/-- The text of an object as a structured file. -/
def printed (entries : Entries) : String := String.ofList (print .tree 0 (.mapping entries)) ++ "\n"

/-- Why an object is not dumped: a part without a JSON form, or else a lone half. -/
def dumpFault? (entries : Entries) : Option WriteFault :=
  writeFault? false (.mapping entries)
    <|> (Value.mapping entries).half?.map fun lone =>
      .unencodable (.inDocument .tree (.mapping entries) lone)

/-- Just the objects that have a form can be dumped. -/
theorem dumpFault?_eq_none_iff : dumpFault? entries = none ↔ HasForm false (.mapping entries) := by
  rw [dumpFault?, Option.orElse_eq_orElse, Option.orElse_eq_or, Option.or_eq_none_iff, Option.map_eq_none_iff]
  exact ⟨fun ⟨writable, whole⟩ => ⟨writable, whole⟩, fun form => ⟨form.writable, form.whole⟩⟩

/-- An object is dumped as its text if it has a form. -/
theorem dumpStructured_eq (entries : Entries) :
    dumpStructured entries = match dumpFault? entries with
      | some fault => .error fault
      | none => .ok (printed entries) := by
  unfold dumpStructured writeStrict printed dumpFault? encoded
  cases writeFault? false (.mapping entries) with
  | some fault => rfl
  | none => cases (Value.mapping entries).half? <;> rfl

/-- An object is written in a merge if it has a form. -/
theorem dumpMerged_eq (entries : Entries) :
    dumpMerged entries = match dumpFault? entries with
      | some fault => .error (.unwritable fault)
      | none => .ok (printed entries) := by
  rw [dumpMerged, dumpStructured_eq]
  cases dumpFault? entries <;> rfl

/-- An object with a form is written in a merge as its text. -/
theorem dumpMerged_of_hasForm (form : HasForm false (.mapping entries)) :
    dumpMerged entries = .ok (printed entries) := by
  rw [dumpMerged_eq, dumpFault?_eq_none_iff.mpr form]

/-- What is written in a merge is the text of an object with a form. -/
theorem dumpMerged_eq_ok_iff :
    dumpMerged entries = .ok text ↔ HasForm false (.mapping entries) ∧ printed entries = text := by
  rw [dumpMerged_eq, ← dumpFault?_eq_none_iff]
  cases dumpFault? entries <;> simp

/-- A lone half in an object that could be written else shows when its file is open. -/
theorem exists_dumpMerged_eq_error {lone : Half} (free : writeFault? false (.mapping entries) = none)
    (half : (Value.mapping entries).half? = some lone) :
    ∃ fault, dumpMerged entries = .error fault ∧ fault.isLate := by
  refine ⟨.unwritable (.unencodable (.inDocument .tree (.mapping entries) lone)), ?_, rfl⟩
  rw [dumpMerged_eq, dumpFault?, free, half]
  rfl

/-- Any other object that could not be written is refused before. -/
theorem exists_of_dumpMerged_eq_error {fault : MergeFault} (refused : dumpMerged entries = .error fault)
    (late : fault.isLate) :
    writeFault? false (.mapping entries) = none ∧ ∃ lone, (Value.mapping entries).half? = some lone := by
  rw [dumpMerged_eq, dumpFault?] at refused
  cases free : writeFault? false (.mapping entries) with
  | some cause =>
      rw [free] at refused
      obtain rfl : MergeFault.unwritable cause = fault := Except.error.inj refused
      exact absurd late (isLate_of_writeFault? _ free)
  | none =>
      cases half : (Value.mapping entries).half? with
      | some lone => exact ⟨rfl, lone, rfl⟩
      | none =>
          rw [free, half] at refused
          cases refused

/-- What is read from a structured file is an object as reading gives it. -/
theorem isReading_of_parseStructured (read : parseStructured text = .ok entries) :
    IsReading (.mapping entries) := by
  unfold parseStructured at read
  dsimp only at read
  split at read
  · obtain rfl := Except.ok.inj read
    exact IsReading.empty
  · split at read
    next found parsed =>
      obtain rfl := Except.ok.inj read
      exact isReading_of_parse parsed
    all_goals cases read

/-- The text of an object is read as the object settles. -/
theorem parse_printed (representable : writeFaultEntries? true entries = none) :
    parse (printed entries).toList = .ok (.mapping (Entries.ofPairs (settledEntries entries))) := by
  have free : writeFault? true (.mapping entries) = none := representable
  have parsed := parse_print_settled separates_tree free ['\n'] (List.forall_mem_singleton.mpr rfl)
  have characters : (printed entries).toList = print .tree 0 (.mapping entries) ++ ['\n'] := by
    simp [printed]
  rw [characters, parsed, settled]

/-- So is a structured file with this text. -/
theorem parseStructured_printed_settled (representable : writeFaultEntries? true entries = none) :
    parseStructured (printed entries) = .ok (Entries.ofPairs (settledEntries entries)) := by
  have visible : Text.isAllBlank (printed entries).toList = false := by
    have start : ∃ rest, print .tree 0 (.mapping entries) = '\x7b' :: rest := by
      cases entries with
      | nil => exact ⟨_, rfl⟩
      | cons entry rest => exact ⟨_, rfl⟩
    obtain ⟨rest, split⟩ := start
    rw [printed, String.toList_append, String.toList_ofList, split]
    rfl
  simp only [parseStructured, visible, parse_printed representable, Bool.false_eq_true, if_false]

/-- An object that a document can hold is read back from its text. -/
theorem parseStructured_printed (document : IsDocument (.mapping entries)) :
    parseStructured (printed entries) = .ok entries := by
  have same := settled_eq_self document
  rw [settled] at same
  rw [parseStructured_printed_settled (writeFault?_of_isDocument document), Value.mapping.inj same]

/-- The text of an object has unified line ends. -/
theorem notMem_printed (entries : Entries) : '\r' ∉ (printed entries).toList := by
  have separators : '\r' ∉ Layout.tree.itemSeparator ∧ '\r' ∉ Layout.tree.keySeparator := by decide
  simp [printed, notMem_print separators.1 separators.2]

/-- A merge into an object that was read can be written only if what is merged can be and no lone half is left.
It is then a merge into an object that a document can hold. -/
theorem exists_of_hasForm_deepMerge (below : IsReading (.mapping lower))
    (named : IsReading (.mapping upper) ∨ Value.Consists (fun _ => True) (.mapping upper))
    (form : HasForm false (.mapping (deepMerge lower upper))) :
    IsDocument (.mapping upper)
      ∧ ∃ mended, IsDocument (.mapping mended) ∧ deepMerge lower upper = deepMerge mended upper := by
  have keyed : (Value.mapping upper).Keyed := named.elim IsReading.keyed Value.Consists.keyed
  obtain ⟨writable, whole⟩ := (HasForm.partwise false).of_deepMerge below keyed form
  have merged : (Value.mapping (MergeMode.deep.combine lower upper)).half? = none := form.whole
  exact ⟨named.elim (fun reading => reading.isDocument whole) fun consists =>
      isDocument_of_writeFault? consists writable whole,
    MergeMode.exists_mended below keyed merged⟩

/-- An object is read from a structured file, whatever the file is called in faults. -/
theorem parseNamed_eq_ok_iff {source text : String} :
    parseNamed source text = .ok entries ↔ parseStructured text = .ok entries := by
  unfold parseNamed
  cases parseStructured text <;> simp [Except.mapError]

/-! ## Texts that are refused -/

/-- A text is read as the object of a structured file. -/
def IsObjectText (text : String) : Prop := ∃ entries, parseStructured text = .ok entries

/-- What is no object is refused, whatever it is called in the fault. -/
theorem exists_parseNamed_eq_error_iff {source text : String} :
    (∃ fault, parseNamed source text = .error fault) ↔ ¬IsObjectText text := by
  unfold parseNamed IsObjectText
  cases parseStructured text <;> simp [Except.mapError]

/-- Reading a structured file fails before anything is opened. -/
theorem early_of_parseNamed {source text : String} {fault : MergeFault}
    (failed : parseNamed source text = .error fault) : ¬fault.isLate := by
  unfold parseNamed at failed
  cases parsed : parseStructured text with
  | error cause =>
      rw [parsed] at failed
      obtain rfl := Except.error.inj failed
      exact Bool.false_ne_true
  | ok entries =>
      rw [parsed] at failed
      cases failed

/-- The objects of two texts have a lone half together. -/
def TearTogether (existing content : String) : Prop :=
  ∃ current incoming, parseStructured existing = .ok current ∧ parseStructured content = .ok incoming
    ∧ ∃ lone, (Value.mapping (deepMerge current incoming)).half? = some lone

/-- Two objects from documents are written together unless they have a lone half that keeps them from it. -/
theorem exists_dumpMerged_deepMerge_eq_error_iff {existing content : String} {current incoming : Entries}
    (read : parseStructured existing = .ok current) (reread : parseStructured content = .ok incoming) :
    (∃ fault, dumpMerged (deepMerge current incoming) = .error fault)
      ↔ ∃ lone, (Value.mapping (deepMerge current incoming)).half? = some lone := by
  have together := (isReading_of_parseStructured read).deepMerge (isReading_of_parseStructured reread)
  constructor
  · rintro ⟨fault, refused⟩
    cases half : (Value.mapping (deepMerge current incoming)).half? with
    | some lone => exact ⟨lone, rfl⟩
    | none =>
        rw [dumpMerged_of_hasForm ⟨together.writeFault?, half⟩] at refused
        cases refused
  · rintro ⟨lone, half⟩
    obtain ⟨fault, refused, _⟩ := exists_dumpMerged_eq_error together.writeFault? half
    exact ⟨fault, refused⟩

/-- Of the strategies only the structured one refuses texts, and just those that are no objects or have a lone
half together. -/
theorem exists_mergedText?_eq_error_iff {strategy : MergeStrategy} {path : Path} {existing : Option String}
    {content : String} :
    (∃ fault, mergedText? strategy path existing content = .error fault)
      ↔ strategy = .structured ∧ (¬IsObjectText (existing.getD "") ∨ ¬IsObjectText content
        ∨ TearTogether (existing.getD "") content) := by
  cases strategy with
  | structured =>
      simp only [mergedText?, exists_bind_eq_error_iff, exists_parseNamed_eq_error_iff, parseNamed_eq_ok_iff,
        true_and]
      constructor
      · rintro (noObject | ⟨current, read, noObject | ⟨incoming, reread, refused | ⟨_, _, _, ⟨⟩⟩⟩⟩)
        · exact .inl noObject
        · exact .inr (.inl noObject)
        · exact .inr (.inr ⟨current, incoming, read, reread,
            (exists_dumpMerged_deepMerge_eq_error_iff read reread).mp refused⟩)
      · by_cases isObject : IsObjectText (existing.getD "")
        · obtain ⟨current, read⟩ := isObject
          rintro (noObject | noObject | ⟨same, incoming, reread, again, half⟩)
          · exact .inl noObject
          · exact .inr ⟨current, read, .inl noObject⟩
          · obtain rfl := Except.ok.inj (read.symm.trans reread)
            exact .inr ⟨current, read, .inr ⟨incoming, again,
              .inl ((exists_dumpMerged_deepMerge_eq_error_iff read again).mpr half)⟩⟩
        · exact fun _ => .inl isObject
  | append => cases existing <;> simp [mergedText?]; split <;> simp
  | prepend => cases existing <;> simp [mergedText?]; split <;> simp
  | _ => simp [mergedText?]

/-! ## Mappings that are merged into texts -/

section Mappings

variable {path : Path} {existing wanted : Option String} {data : Entries} {modeName : String} {mode : MergeMode}

/-- A mode is found by no other name than its own. -/
theorem MergeMode.name_of_ofName? (found : MergeMode.ofName? modeName = some mode) : mode.name = modeName := by
  simpa using List.find?_some found

/-- What a known mode does with the object that was read. -/
theorem mergedData?_name {current : Entries} (read : parseStructured (existing.getD "") = .ok current) :
    mergedData? path existing data mode.name = (dumpMerged (mode.combine current data)).map some := by
  simp only [mergedData?, parseNamed_eq_ok_iff.mpr read, MergeMode.ofName?_name, bind, Except.bind]
  cases dumpMerged (mode.combine current data) <;> rfl

/-- A mapping is merged into the object of a text if the mode is known and what comes out has a form. -/
theorem mergedData?_eq_ok_iff :
    mergedData? path existing data modeName = .ok wanted
      ↔ ∃ (mode : MergeMode) (current : Entries), mode.name = modeName
        ∧ parseStructured (existing.getD "") = .ok current ∧ HasForm false (.mapping (mode.combine current data))
        ∧ wanted = some (printed (mode.combine current data)) := by
  constructor
  · intro ruled
    obtain ⟨current, read, ruled⟩ := exists_of_bind_eq_ok ruled
    split at ruled
    next => cases ruled
    next mode known =>
      obtain ⟨dumped, dumps, ruled⟩ := exists_of_bind_eq_ok ruled
      obtain ⟨form, rfl⟩ := dumpMerged_eq_ok_iff.mp dumps
      exact ⟨mode, current, MergeMode.name_of_ofName? known, parseNamed_eq_ok_iff.mp read, form,
        (Except.ok.inj ruled).symm⟩
  · rintro ⟨mode, current, rfl, read, form, rfl⟩
    rw [mergedData?_name read, dumpMerged_of_hasForm form]
    rfl

/-- It is refused in all other cases. -/
theorem exists_mergedData?_eq_error_iff :
    (∃ fault, mergedData? path existing data modeName = .error fault)
      ↔ ¬IsObjectText (existing.getD "") ∨ MergeMode.ofName? modeName = none
        ∨ ∃ (mode : MergeMode) (current : Entries), mode.name = modeName
          ∧ parseStructured (existing.getD "") = .ok current
          ∧ ¬HasForm false (.mapping (mode.combine current data)) := by
  constructor
  · rintro ⟨fault, refused⟩
    rw [or_iff_not_imp_left, not_not, or_iff_not_imp_left]
    rintro ⟨current, read⟩ known
    obtain ⟨mode, found⟩ := Option.ne_none_iff_exists'.mp known
    obtain rfl := MergeMode.name_of_ofName? found
    refine ⟨mode, current, rfl, read, fun form => ?_⟩
    rw [mergedData?_eq_ok_iff.mpr ⟨mode, current, rfl, read, form, rfl⟩] at refused
    cases refused
  · intro refuses
    cases ruled : mergedData? path existing data modeName with
    | error fault => exact ⟨fault, rfl⟩
    | ok wanted =>
        obtain ⟨mode, current, rfl, read, form, _⟩ := mergedData?_eq_ok_iff.mp ruled
        rcases refuses with noObject | unknown | ⟨other, again, named, reread, unformed⟩
        · exact absurd ⟨current, read⟩ noObject
        · cases unknown.symm.trans (MergeMode.ofName?_name mode)
        · obtain rfl := Except.ok.inj (reread.symm.trans read)
          have same := congrArg MergeMode.ofName? named
          rw [MergeMode.ofName?_name, MergeMode.ofName?_name] at same
          obtain rfl := Option.some.inj same
          exact absurd form unformed

/-- The refusal shows only when a file is open if a lone half is all that stands against it. -/
theorem exists_late_mergedData?_iff :
    (∃ fault, mergedData? path existing data modeName = .error fault ∧ fault.isLate)
      ↔ ∃ (mode : MergeMode) (current : Entries), mode.name = modeName
        ∧ parseStructured (existing.getD "") = .ok current
        ∧ writeFault? false (.mapping (mode.combine current data)) = none
        ∧ ∃ lone, (Value.mapping (mode.combine current data)).half? = some lone := by
  constructor
  · rintro ⟨fault, refused, late⟩
    rcases eq_error_or_of_bind_eq_error refused with unread | ⟨current, read, refused⟩
    · exact absurd late (early_of_parseNamed unread)
    · split at refused
      next =>
        obtain rfl := Except.error.inj refused
        exact absurd late Bool.false_ne_true
      next mode known =>
        rcases eq_error_or_of_bind_eq_error refused with unwritten | ⟨_, _, ⟨⟩⟩
        exact ⟨mode, current, MergeMode.name_of_ofName? known, parseNamed_eq_ok_iff.mp read,
          exists_of_dumpMerged_eq_error unwritten late⟩
  · rintro ⟨mode, current, rfl, read, free, lone, half⟩
    obtain ⟨fault, refused, late⟩ := exists_dumpMerged_eq_error free half
    exact ⟨fault, by rw [mergedData?_name read, refused]; rfl, late⟩

end Mappings

/-! ## Objects without dates -/

end Scaffold
