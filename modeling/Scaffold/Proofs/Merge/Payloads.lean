import Mathlib
import Scaffold.Proofs.Merge.Structured
import Scaffold.Proofs.Tree.Files

/-!
# An object merged into a file

An object, given as a text or as data (`Payload`), is merged into a file.  Afterwards the file holds the text of
the merged object (`holds_of_mergePayload`).  What is no object, or has a part without a JSON form, leaves the
tree (`exists_mergePayload_of_isRefused`).  A lone half of a character, in the payload or left of the file, keeps
the merged object from being written only when the file is open (`exists_mergePayload_eq_spoil`).
-/

namespace Scaffold

open Json

/-- An object that is merged into a file. -/
inductive Payload where
  /-- The text of a structured file. -/
  | content (text : String)
  | data (entries : Entries)

/-- The object of a payload that is merged into a path. -/
def Payload.object? (path : Path) : Payload → Except MergeFault Entries
  | .content text => parseNamed (path.text ++ " (rendered content)") text
  | .data entries => .ok entries

/-- The entries of a payload; one that is no object has none. -/
def Payload.entries (path : Path) (payload : Payload) : Entries :=
  match payload.object? path with
  | .ok object => object
  | .error _ => []

/-- The keys of data are distinct texts, at every depth. -/
def Payload.Named : Payload → Prop
  | .content _ => True
  | .data entries => Value.Consists (fun _ => True) (.mapping entries)

/-- A payload is an object that a document can hold. -/
def Payload.IsObject (path : Path) (payload : Payload) : Prop :=
  ∃ object, payload.object? path = .ok object ∧ IsDocument (.mapping object)

/-- What keeps the object of a payload from being written is a lone half. -/
def Payload.IsTorn (path : Path) (payload : Payload) : Prop :=
  ∃ object, payload.object? path = .ok object ∧ writeFault? false (.mapping object) = none
    ∧ ∃ lone, (Value.mapping object).half? = some lone

/-- A payload is no object, or has a part without a JSON form. -/
def Payload.IsRefused (path : Path) (payload : Payload) : Prop :=
  ∀ object, payload.object? path = .ok object → writeFault? false (.mapping object) ≠ none

namespace Payload

variable {path : Path} {payload : Payload} {object : Entries}

/-- A payload that is an object has its entries. -/
theorem IsObject.entries (isObject : payload.IsObject path) :
    payload.object? path = .ok (payload.entries path) ∧ IsDocument (.mapping (payload.entries path)) := by
  obtain ⟨object, same, document⟩ := isObject
  rw [Payload.entries, same]
  exact ⟨rfl, document⟩

/-- The object of a payload was read, or has distinct texts as keys. -/
theorem Named.isNamed (named : payload.Named) (isObject : payload.object? path = .ok object) :
    IsReading (.mapping object) ∨ Value.Consists (fun _ => True) (.mapping object) := by
  cases payload with
  | content text => exact .inl (isReading_of_parseStructured (parseNamed_eq_ok_iff.mp isObject))
  | data entries =>
      obtain rfl := Except.ok.inj isObject
      exact .inr named

/-- The object of a payload is a dictionary. -/
theorem Named.keyed (named : payload.Named) (isObject : payload.object? path = .ok object) :
    (Value.mapping object).Keyed :=
  (named.isNamed isObject).elim IsReading.keyed Value.Consists.keyed

/-- A payload is an object, or torn, or refused. -/
theorem Named.cases (named : payload.Named) :
    payload.IsObject path ∨ payload.IsTorn path ∨ payload.IsRefused path := by
  cases isObject : payload.object? path with
  | error fault => exact .inr (.inr fun object same => by rw [isObject] at same; cases same)
  | ok object =>
      cases free : writeFault? false (.mapping object) with
      | some fault =>
          refine .inr (.inr fun other same => ?_)
          obtain rfl := Except.ok.inj (isObject.symm.trans same)
          rw [free]
          exact Option.some_ne_none fault
      | none =>
          cases whole : (Value.mapping object).half? with
          | some lone => exact .inr (.inl ⟨object, isObject, free, lone, whole⟩)
          | none =>
              exact .inl ⟨object, isObject, (named.isNamed isObject).elim (fun reading => reading.isDocument whole)
                fun consists => isDocument_of_writeFault? consists free whole⟩

end Payload

namespace Tree

/-- Merges a payload into a file. -/
def mergePayload (tree : Tree) (path : Path) : Payload → Except MergeFault Bool × Tree
  | .content text => tree.merge .structured path text
  | .data entries => tree.mergeData path entries MergeMode.deep.name

/-- What is merged into at a path: the object of a file, and the empty one for no file and for a blank
one. -/
def HasObject (tree : Tree) (path : Path) (current : Entries) : Prop :=
  ∃ existing, tree.existingText path = .ok existing ∧ parseStructured (existing.getD "") = .ok current

variable {tree merged left : Tree} {path : Path} {location : Location} {payload : Payload}
  {entries object current : Entries} {text : String}

/-- A payload is merged by one rule, however it is given. -/
theorem mergePayload_eq (tree : Tree) (path : Path) (payload : Payload) :
    tree.mergePayload path payload = tree.revise path fun existing => do
      let current ← parseNamed path.text (existing.getD "")
      let incoming ← payload.object? path
      return some (← dumpMerged (deepMerge current incoming)) := by
  cases payload with
  | content text => rfl
  | data entries =>
      unfold mergePayload mergeData mergedData?
      simp only [MergeMode.ofName?_name]
      rfl

/-- The text of a file is there if its path leads to a file. -/
theorem exists_file_of_existingText (found : tree.existingText path = .ok (some text)) :
    ∃ location content, tree.locate true path = .ok location
      ∧ tree.node? location = some (.file content) := by
  unfold existingText isFile test at found
  cases looked : tree.look path with
  | error cause =>
      cases cause <;>
        simp [looked, bind, Except.bind, Except.mapError, pure, Except.pure] at found
  | ok node =>
      obtain ⟨location, located, present⟩ := look_eq_ok_iff.mp looked
      cases node with
      | file content => exact ⟨location, content, located, present⟩
      | folder => simp [looked, bind, Except.bind, Except.mapError, pure, Except.pure] at found
      | link target => simp [looked, bind, Except.bind, Except.mapError, pure, Except.pure] at found

/-- A file that was written has the text that was written. -/
theorem existingText_of_file (located : tree.locate true path = .ok location)
    (file : tree.node? location = some (.file text.toUTF8)) (unified : '\r' ∉ text.toList) :
    tree.existingText path = .ok (some text) := by
  have found := look_eq_ok_iff.mpr ⟨location, located, file⟩
  have read := readText_of_file found unified
  simp only [existingText, isFile, test, found, read, Except.mapError, bind, Except.bind, pure,
    Except.pure]
  rfl

/-- What is merged into is an object as reading gives it. -/
theorem HasObject.isReading (has : tree.HasObject path current) : IsReading (.mapping current) := by
  obtain ⟨_, _, read⟩ := has
  exact isReading_of_parseStructured read

/-- One object is merged into. -/
theorem HasObject.unique {other : Entries} (has : tree.HasObject path current)
    (hasOther : tree.HasObject path other) : current = other := by
  obtain ⟨existing, found, read⟩ := has
  obtain ⟨_, foundOther, readOther⟩ := hasOther
  obtain rfl := Except.ok.inj (found.symm.trans foundOther)
  exact Except.ok.inj (read.symm.trans readOther)

/-- A text that a file already has is not written; any other is, or the file cannot be saved. -/
theorem settle_cases (tree : Tree) (path : Path) (existing : Option String) (text : String) :
    (existing = some text ∧ tree.settle path existing (some text) = (.ok false, tree))
      ∨ (∃ written, tree.writeBelow path text = (.ok (), written)
        ∧ tree.settle path existing (some text) = (.ok true, written))
      ∨ ∃ error grown, tree.writeBelow path text = (.error error, grown)
        ∧ tree.settle path existing (some text) = (.error (.file error), grown) := by
  unfold settle
  dsimp only
  split
  next same => exact .inl ⟨by simpa using same, rfl⟩
  next =>
    split
    next written saved => exact .inr (.inl ⟨written, saved, rfl⟩)
    next error grown refused => exact .inr (.inr ⟨error, grown, refused, rfl⟩)

/-- Any text is settled where a file can be saved. -/
theorem exists_settle_eq_ok (writable : tree.IsWritable path) (existing wanted : Option String) :
    ∃ changed settled, tree.settle path existing wanted = (.ok changed, settled) := by
  cases wanted with
  | none => exact ⟨false, tree, rfl⟩
  | some text =>
      obtain ⟨grown, made, saves⟩ := writable
      obtain ⟨written, saved⟩ := saves text.toUTF8
      have below : tree.writeBelow path text = (.ok (), written) := by
        simp only [writeBelow, made, saved]
      rcases settle_cases tree path existing text with
        ⟨_, kept⟩ | ⟨_, _, rewritten⟩ | ⟨_, _, refused, _⟩
      · exact ⟨false, tree, kept⟩
      · exact ⟨true, _, rewritten⟩
      · rw [refused] at below
        cases below

/-! ## One payload -/

/-- An object that is merged into another is settled with the text of both if that has a form. -/
theorem mergePayload_of_hasForm {existing : Option String} (found : tree.existingText path = .ok existing)
    (read : parseStructured (existing.getD "") = .ok current) (isObject : payload.object? path = .ok object)
    (form : HasForm false (.mapping (deepMerge current object))) :
    tree.mergePayload path payload
      = tree.settle path existing (some (printed (deepMerge current object))) := by
  rw [mergePayload_eq, revise, found]
  simp [parseNamed_eq_ok_iff.mpr read, isObject, dumpMerged_of_hasForm form, bind, Except.bind, pure,
    Except.pure]

/-- A lone half that is left keeps the merged object from being written once the file is open. -/
theorem exists_mergePayload_eq_spoil {lone : Half} (has : tree.HasObject path current) (named : payload.Named)
    (isObject : payload.object? path = .ok object) (free : writeFault? false (.mapping object) = none)
    (half : (Value.mapping (deepMerge current object)).half? = some lone) :
    ∃ fault : MergeFault, fault.isLate ∧ tree.mergePayload path payload = tree.spoil path fault := by
  obtain ⟨existing, found, read⟩ := has
  have merged := (Partwise.writeFault false).deepMerge (isReading_of_parseStructured read).writeFault?
    (named.keyed isObject) free
  obtain ⟨fault, refused, late⟩ := exists_dumpMerged_eq_error merged half
  refine ⟨fault, late, ?_⟩
  rw [mergePayload_eq, revise, found]
  simp only [parseNamed_eq_ok_iff.mpr read, isObject, refused, bind, Except.bind, if_pos late]

/-- A torn payload is not merged, and leaves the file empty. -/
theorem exists_mergePayload_of_isTorn (has : tree.HasObject path current) (named : payload.Named)
    (torn : payload.IsTorn path) : ∃ fault, tree.mergePayload path payload = tree.spoil path fault := by
  obtain ⟨object, isObject, free, lone, half⟩ := torn
  cases whole : (Value.mapping (deepMerge current object)).half? with
  | some _ =>
      obtain ⟨fault, _, spoiled⟩ := exists_mergePayload_eq_spoil has named isObject free whole
      exact ⟨fault, spoiled⟩
  | none =>
      rw [Partwise.half.of_deepMerge has.isReading (named.keyed isObject) whole] at half
      cases half

/-- Where nothing can be merged into, a payload leaves the tree. -/
theorem exists_mergePayload_of_not_hasObject (without : ∀ current, ¬tree.HasObject path current) (payload : Payload) :
    ∃ fault, tree.mergePayload path payload = (.error fault, tree) := by
  have rule := mergePayload_eq tree path payload
  unfold revise at rule
  cases found : tree.existingText path with
  | error fault => exact ⟨fault, by rw [rule, found]⟩
  | ok existing =>
      cases parsed : parseNamed path.text (existing.getD "") with
      | error fault => exact ⟨fault, by simp [rule, found, parsed, early_of_parseNamed parsed, bind, Except.bind]⟩
      | ok current => exact absurd ⟨existing, found, parseNamed_eq_ok_iff.mp parsed⟩ (without current)

/-- A payload that is refused leaves the tree. -/
theorem exists_mergePayload_of_isRefused (tree : Tree) (named : payload.Named)
    (refused : payload.IsRefused path) : ∃ fault, tree.mergePayload path payload = (.error fault, tree) := by
  by_cases has : ∃ current, tree.HasObject path current
  · obtain ⟨current, existing, found, read⟩ := has
    have rule := mergePayload_eq tree path payload
    simp only [revise, found, parseNamed_eq_ok_iff.mpr read, bind, Except.bind] at rule
    cases isObject : payload.object? path with
    | error fault =>
        have early : ¬fault.isLate := by
          cases payload with
          | content text => exact early_of_parseNamed isObject
          | data entries => cases isObject
        exact ⟨fault, by simp only [rule, isObject, if_neg early]⟩
    | ok object =>
        cases free : writeFault? false (.mapping (deepMerge current object)) with
        | some fault =>
            have dumped : dumpMerged (deepMerge current object) = .error (.unwritable fault) := by
              rw [dumpMerged_eq, dumpFault?, free]
              rfl
            have early : ¬(MergeFault.unwritable fault).isLate := isLate_of_writeFault? _ free
            exact ⟨.unwritable fault, by simp only [rule, isObject, dumped, if_neg early]⟩
        | none =>
            exact absurd ((Partwise.writeFault false).of_deepMerge (isReading_of_parseStructured read)
              (named.keyed isObject) free) (refused object isObject)
  · exact exists_mergePayload_of_not_hasObject (not_exists.mp has) payload

/-- A payload that fails for its file leaves a tree in which every payload fails. -/
theorem stuck_of_writeBelow {error : FileError} (wellFormed : tree.WellFormed)
    (refused : tree.writeBelow path text = (.error error, left)) (payload : Payload) :
    ∃ again, left.mergePayload path payload = (.error again, left) := by
  obtain ⟨stillFormed, stuck⟩ := wellFormed.writeBelow_stuck refused
  have rule := mergePayload_eq left path payload
  unfold revise at rule
  cases found : left.existingText path with
  | error fault => exact ⟨fault, by rw [rule, found]⟩
  | ok existing =>
      have absent : existing = none := by
        cases existing with
        | none => rfl
        | some present =>
            obtain ⟨location, content, located, file⟩ := exists_file_of_existingText found
            obtain ⟨again, refusedAgain⟩ := stuck ""
            rw [stillFormed.writeBelow_of_file located file] at refusedAgain
            cases refusedAgain
      subst absent
      rw [found] at rule
      dsimp only at rule
      split at rule
      next fault _ =>
        split at rule
        next =>
          obtain ⟨again, refusedAgain⟩ := stuck ""
          exact ⟨.file again, by rw [rule, spoil, refusedAgain]⟩
        next => exact ⟨fault, rule⟩
      next wanted ruled =>
        obtain ⟨_, _, ruled⟩ := exists_of_bind_eq_ok ruled
        obtain ⟨_, _, ruled⟩ := exists_of_bind_eq_ok ruled
        obtain ⟨dumped, _, ruled⟩ := exists_of_bind_eq_ok ruled
        obtain rfl := Except.ok.inj ruled
        obtain ⟨again, refusedAgain⟩ := stuck dumped
        refine ⟨.file again, ?_⟩
        rw [rule, settle]
        simp [refusedAgain]

/-! ## Files that stand -/

/-- A path leads to a file. -/
structure StandsAt (tree : Tree) (path : Path) (location : Location) : Prop where
  wellFormed : tree.WellFormed
  located : tree.locate true path = .ok location
  file : ∃ content, tree.node? location = some (.file content)

/-- A file that stands can be written. -/
theorem StandsAt.writeBelow (stands : tree.StandsAt path location) (text : String) :
    tree.writeBelow path text = (.ok (), tree.put location (.file text.toUTF8)) := by
  obtain ⟨content, file⟩ := stands.file
  exact stands.wellFormed.writeBelow_of_file stands.located file text

/-- A file that stands has the text that is put in its place. -/
theorem StandsAt.put (stands : tree.StandsAt path location) (unified : '\r' ∉ text.toList) :
    (tree.put location (.file text.toUTF8)).StandsAt path location
      ∧ (tree.put location (.file text.toUTF8)).existingText path = .ok (some text) := by
  obtain ⟨again, file, stillFormed⟩ := stands.wellFormed.put_located (.file text.toUTF8) stands.located
    (.inr stands.file) fun _ => Node.noConfusion
  exact ⟨⟨stillFormed, again, _, file⟩, existingText_of_file again file unified⟩

/-- A file with a text stands. -/
theorem exists_standsAt (wellFormed : tree.WellFormed) (found : tree.existingText path = .ok (some text)) :
    ∃ location, tree.StandsAt path location := by
  obtain ⟨location, content, located, file⟩ := exists_file_of_existingText found
  exact ⟨location, wellFormed, located, content, file⟩

/-- A path leads to a file with a text, from which an object is read that a document can hold. -/
structure Holds (tree : Tree) (path : Path) (location : Location) (text : String) (entries : Entries) : Prop
    extends StandsAt tree path location where
  found : tree.existingText path = .ok (some text)
  read : parseStructured text = .ok entries
  document : IsDocument (.mapping entries)

/-- A file into which the text of an object is put holds the object. -/
theorem StandsAt.holds_printed (stands : tree.StandsAt path location) (document : IsDocument (.mapping entries)) :
    (tree.put location (.file (printed entries).toUTF8)).Holds path location (printed entries) entries := by
  obtain ⟨still, read⟩ := stands.put (notMem_printed entries)
  exact ⟨still, read, parseStructured_printed document, document⟩

/-- An empty file holds the empty object. -/
theorem StandsAt.holds_empty (stands : tree.StandsAt path location) :
    (tree.put location (.file "".toUTF8)).Holds path location "" [] := by
  obtain ⟨still, read⟩ := stands.put (show '\r' ∉ "".toList by decide)
  exact ⟨still, read, rfl, Value.consists_empty _⟩

/-- What a file holds is merged into. -/
theorem Holds.hasObject (holds : tree.Holds path location text entries) : tree.HasObject path entries :=
  ⟨some text, holds.found, holds.read⟩

/-- A file has one text. -/
theorem Holds.text_eq {other : Location} {otherText : String} {others : Entries}
    (first : tree.Holds path location text entries) (second : tree.Holds path other otherText others) :
    text = otherText :=
  Option.some.inj (Except.ok.inj (first.found.symm.trans second.found))

/-- An object that is merged into a file that holds one leaves the text of both. -/
theorem Holds.mergePayload (holds : tree.Holds path location text entries) (isObject : payload.IsObject path) :
    ∃ changed, ∃ merged : Tree, tree.mergePayload path payload = (.ok changed, merged)
      ∧ merged.Holds path location (printed (deepMerge entries (payload.entries path)))
        (deepMerge entries (payload.entries path))
      ∧ (merged = tree ∨ merged = tree.put location
        (.file (printed (deepMerge entries (payload.entries path))).toUTF8)) := by
  obtain ⟨isObject, document⟩ := isObject.entries
  generalize payload.entries path = object at isObject document ⊢
  have together := document.lays.deepMerge holds.document
  have settled := mergePayload_of_hasForm holds.found holds.read isObject (.of_isDocument together)
  have saves := holds.writeBelow (printed (deepMerge entries object))
  rcases settle_cases tree path (some text) (printed (deepMerge entries object)) with
    ⟨same, kept⟩ | ⟨written, saved, rewritten⟩ | ⟨_, _, refused, _⟩
  · obtain rfl : text = printed (deepMerge entries object) := Option.some.inj same
    exact ⟨false, tree, settled.trans kept,
      ⟨holds.toStandsAt, holds.found, parseStructured_printed together, together⟩, .inl rfl⟩
  · obtain rfl := (Prod.mk.inj (saved.symm.trans saves)).2
    exact ⟨true, _, settled.trans rewritten, holds.holds_printed together, .inr rfl⟩
  · rw [refused] at saves
    cases saves

/-- A torn payload leaves a file that stands empty. -/
theorem StandsAt.exists_mergePayload (stands : tree.StandsAt path location) (has : tree.HasObject path current)
    (named : payload.Named) (torn : payload.IsTorn path) :
    ∃ fault, tree.mergePayload path payload = (.error fault, tree.put location (.file "".toUTF8)) := by
  obtain ⟨fault, spoiled⟩ := exists_mergePayload_of_isTorn has named torn
  exact ⟨fault, by rw [spoiled, spoil, stands.writeBelow]⟩

/-- After an object was merged the file holds the text of the merged object, and it could have held before what a
document can hold. -/
theorem holds_of_mergePayload {changed : Bool} (wellFormed : tree.WellFormed) (named : payload.Named)
    (has : tree.HasObject path current) (isObject : payload.IsObject path)
    (done : tree.mergePayload path payload = (.ok changed, merged)) :
    ∃ location mended, IsDocument (.mapping mended)
      ∧ deepMerge current (payload.entries path) = deepMerge mended (payload.entries path)
      ∧ merged.Holds path location (printed (deepMerge mended (payload.entries path)))
        (deepMerge mended (payload.entries path))
      ∧ (merged = tree ∨ ∃ base : Tree, merged
        = base.put location (.file (printed (deepMerge mended (payload.entries path))).toUTF8)) := by
  obtain ⟨isEntries, document⟩ := isObject.entries
  generalize payload.entries path = object at isEntries document ⊢
  have free := (Partwise.writeFault false).deepMerge has.isReading.writeFault? (named.keyed isEntries)
    (writeFault?_of_isDocument document)
  cases whole : (Value.mapping (deepMerge current object)).half? with
  | some lone =>
      obtain ⟨fault, _, spoiled⟩ :=
        exists_mergePayload_eq_spoil has named isEntries (writeFault?_of_isDocument document) whole
      rw [spoiled, spoil] at done
      split at done <;> cases done
  | none =>
      obtain ⟨_, mended, holdsMended, same⟩ :=
        exists_of_hasForm_deepMerge has.isReading (named.isNamed isEntries) ⟨free, whole⟩
      obtain ⟨existing, found, read⟩ := has
      have settled := mergePayload_of_hasForm found read isEntries ⟨free, whole⟩
      have together := document.lays.deepMerge holdsMended
      rw [same] at settled
      rcases settle_cases tree path existing (printed (deepMerge mended object))
        with ⟨isText, kept⟩ | ⟨written, saved, rewritten⟩ | ⟨_, _, _, refused⟩
      · obtain rfl : tree = merged := (Prod.mk.inj (kept.symm.trans (settled.symm.trans done))).2
        subst isText
        obtain ⟨location, stands⟩ := exists_standsAt wellFormed found
        exact ⟨location, mended, holdsMended, same,
          ⟨stands, found, parseStructured_printed together, together⟩, .inl rfl⟩
      · obtain rfl : written = merged :=
          (Prod.mk.inj (rewritten.symm.trans (settled.symm.trans done))).2
        obtain ⟨base, location, isPut, located, file, stillFormed⟩ := wellFormed.writeBelow saved
        exact ⟨location, mended, holdsMended, same, ⟨⟨stillFormed, located, _, file⟩,
          existingText_of_file located file (notMem_printed _), parseStructured_printed together, together⟩,
          .inr ⟨base, isPut⟩⟩
      · rw [settled, refused] at done
        cases done

end Tree

/-! ## A lone half -/

/-- The first of the codes that stand for halves of characters. -/
theorem isHalf_first : 0xD800 ≤ 0xD800 ∧ 0xD800 < 0xE000 := by decide

/-- The first half of a character, and nothing behind it. -/
def loneHalf : Half := ⟨0xD800, isHalf_first⟩

/-- An object whose text is a lone half of a character. -/
def tornText : String := "\x7b\"k\": \"\\ud800\"\x7d"

/-- The object that is read from it. -/
def tornObject : Entries := [(.text "k", .torn ⟨[], loneHalf, []⟩)]

/-- The lone half is read. -/
theorem parseStructured_tornText : parseStructured tornText = .ok tornObject := by
  have parsed : Json.parse tornText.toList = .ok (.mapping tornObject) := by cbv
  have visible : Text.isAllBlank tornText.toList = false := by decide
  simp only [parseStructured, visible, parsed, Bool.false_eq_true, if_false]

end Scaffold
