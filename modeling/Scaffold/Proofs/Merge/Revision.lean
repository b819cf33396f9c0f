import Scaffold.Proofs.Computation
import Scaffold.Proofs.Merge.Payloads
import Scaffold.Proofs.Text.Lines
import Scaffold.Proofs.Tree.Files

/-!
# What is in a file before and after a merge

A merge reads the text of a file with unified line ends, settles on a new text and compares the two.  If it
succeeds, the file holds the new text or was left alone (`settled_of_revise`), and it succeeds wherever a
file can be saved (`exists_settled_of_revise`).  If it fails, every file is as it was, unless a lone half of a
character keeps the new text from being encoded: its file is open by then, and is left empty (`merges_keepFiles`).
-/

namespace Scaffold

namespace Text

/-- A text with unified line ends. -/
def unified (text : String) : String := String.ofList (unifyLineEnds text.toList)

/-- Unified line ends are line feeds. -/
theorem notMem_unified (text : String) : '\r' ∉ (unified text).toList := by
  rw [unified, String.toList_ofList]
  exact notMem_unifyLineEnds text.toList

/-- A text without carriage returns is unified. -/
theorem unified_of_notMem {text : String} (plain : '\r' ∉ text.toList) : unified text = text := by
  rw [unified, unifyLineEnds_of_notMem plain, String.ofList_toList]

/-- A unified text has no carriage returns. -/
theorem unified_eq_self_iff {text : String} : unified text = text ↔ '\r' ∉ text.toList :=
  ⟨fun same => same ▸ notMem_unified text, unified_of_notMem⟩

end Text

namespace Tree

/-- The bytes of the file that a path leads to; none if it leads to no file. -/
def bytes? (tree : Tree) (path : Path) : Option ByteArray :=
  match tree.look path with
  | .ok (.file content) => some content
  | _ => none

/-- How a merge ends that did not fail: nothing happened because there was no new text or the file has it
already, or the file holds the new text. -/
inductive Settled (tree : Tree) (path : Path) (existing : Option String) :
    Option String → Bool → Tree → Prop where
  | kept {wanted} (same : ∀ text ∈ wanted, existing = some text) :
      Settled tree path existing wanted false tree
  | written {text after} (differs : existing ≠ some text) (wellFormed : after.WellFormed)
      (holds : after.bytes? path = some text.toUTF8) :
      Settled tree path existing (some text) true after

variable {tree after : Tree} {path : Path} {content : ByteArray} {text : String}
  {existing wanted : Option String} {changed : Bool}
  {rule : Option String → Except MergeFault (Option String)}

/-- The bytes at a path are those of the file that it leads to. -/
theorem bytes?_eq_some_iff : tree.bytes? path = some content ↔ tree.look path = .ok (.file content) := by
  unfold bytes?
  split
  next found => rw [found, Option.some.injEq, Except.ok.injEq, Node.file.injEq]
  next other => exact ⟨nofun, fun found => absurd found (other content)⟩

/-- A file can be saved where one is. -/
theorem WellFormed.isWritable_of_bytes (wellFormed : tree.WellFormed)
    (file : tree.bytes? path = some content) : tree.IsWritable path := by
  have found := bytes?_eq_some_iff.mp file
  obtain ⟨location, located, present⟩ := look_eq_ok_iff.mp found
  exact isWritable_of_look found (wellFormed.parts_ne_nil located present)

/-- Whether a path leads to a file, if that can be told. -/
theorem eq_isSome_of_isFile {present : Bool} (found : tree.isFile path = .ok present) :
    present = (tree.bytes? path).isSome := by
  unfold isFile test at found
  unfold bytes?
  cases looked : tree.look path with
  | error cause =>
      rw [looked] at found
      cases cause with
      | nameTooLong => cases found
      | _ => exact (Except.ok.inj found).symm
  | ok node =>
      rw [looked] at found
      cases node <;> exact (Except.ok.inj found).symm

/-- What is read from a file is what its bytes store, with unified line ends. -/
theorem exists_text_of_existingText (found : tree.existingText path = .ok existing) :
    ∃ text : Option String, tree.bytes? path = text.map String.toUTF8
      ∧ existing = text.map Text.unified := by
  unfold existingText at found
  cases tested : tree.isFile path with
  | error error =>
      rw [tested] at found
      cases found
  | ok present =>
      rw [tested] at found
      have isPresent := eq_isSome_of_isFile tested
      cases present with
      | false =>
          refine ⟨none, ?_, (Except.ok.inj found).symm⟩
          rwa [eq_comm, Option.isSome_eq_false_iff, Option.isNone_iff_eq_none] at isPresent
      | true =>
          cases readable : tree.readText path with
          | error failure =>
              rw [readable] at found
              cases found
          | ok read =>
              rw [readable] at found
              obtain ⟨content, text, stands, decoded, rfl⟩ := readText_eq_ok readable
              refine ⟨some text, ?_, (Except.ok.inj found).symm⟩
              rw [bytes?_eq_some_iff.mpr stands, Text.eq_toUTF8_of_decode decoded]
              rfl

/-- What is read from a file has no carriage returns. -/
theorem notMem_of_existingText (found : tree.existingText path = .ok (some text)) :
    '\r' ∉ text.toList := by
  obtain ⟨stored, -, same⟩ := exists_text_of_existingText found
  obtain ⟨other, -, rfl⟩ := Option.map_eq_some_iff.mp same.symm
  exact Text.notMem_unified other

/-- The text of a file is read with unified line ends. -/
theorem existingText_of_bytes (file : tree.bytes? path = some text.toUTF8) :
    tree.existingText path = .ok (some (Text.unified text)) := by
  have found := bytes?_eq_some_iff.mp file
  have decoded : Text.decode text.toByteArray = .ok text := Text.decode_encode text
  simp [existingText, isFile, test, readText, read, found, decoded, Except.mapError, bind, Except.bind,
    pure, Except.pure, Text.unified]

/-- A text that is settled on was in the file, or was written. -/
theorem settled_of_settle (wellFormed : tree.WellFormed)
    (done : tree.settle path existing wanted = (.ok changed, after)) :
    Settled tree path existing wanted changed after := by
  cases wanted with
  | none =>
      obtain ⟨rfl, rfl⟩ : false = changed ∧ tree = after := by
        simpa [settle] using done
      exact .kept (by simp)
  | some text =>
      rcases settle_cases tree path existing text with
        ⟨same, kept⟩ | ⟨written, saved, rewritten⟩ | ⟨error, grown, _, refused⟩
      · obtain ⟨rfl, rfl⟩ : false = changed ∧ tree = after := by
          simpa using kept.symm.trans done
        exact .kept fun other isSame => same.trans isSame
      · obtain ⟨rfl, rfl⟩ : true = changed ∧ written = after := by
          simpa using rewritten.symm.trans done
        obtain ⟨base, location, _, located, stands, stillFormed⟩ := wellFormed.writeBelow saved
        refine .written ?_ stillFormed (bytes?_eq_some_iff.mpr (look_eq_ok_iff.mpr ⟨_, located, stands⟩))
        rintro rfl
        simp [settle] at rewritten
      · rw [refused] at done
        cases done

/-- A merge that succeeds settled on a text. -/
theorem settled_of_revise (wellFormed : tree.WellFormed)
    (done : tree.revise path rule = (.ok changed, after)) :
    ∃ existing wanted, tree.existingText path = .ok existing ∧ rule existing = .ok wanted
      ∧ Settled tree path existing wanted changed after := by
  obtain ⟨existing, wanted, found, ruled, settles⟩ := settle_of_revise done
  exact ⟨existing, wanted, found, ruled, settled_of_settle wellFormed settles⟩

/-- A merge that settles on a text succeeds where a file can be saved. -/
theorem exists_settled_of_revise (wellFormed : tree.WellFormed) (writable : tree.IsWritable path)
    (found : tree.existingText path = .ok existing) (ruled : rule existing = .ok wanted) :
    ∃ changed after, tree.revise path rule = (.ok changed, after)
      ∧ Settled tree path existing wanted changed after := by
  have settles : tree.revise path rule = tree.settle path existing wanted := by
    rw [revise, found]
    dsimp only
    rw [ruled]
  obtain ⟨changed, after, done⟩ := exists_settle_eq_ok writable existing wanted
  exact ⟨changed, after, settles.trans done, settled_of_settle wellFormed done⟩

/-! ## Merges that fail -/

/-- A merge fails just if the file cannot be read, its text is refused, or a new text cannot be saved. -/
theorem exists_revise_eq_error_iff :
    (∃ fault left, tree.revise path rule = (.error fault, left))
      ↔ (∃ fault, tree.existingText path = .error fault)
        ∨ ∃ existing, tree.existingText path = .ok existing
          ∧ ((∃ fault, rule existing = .error fault)
            ∨ ∃ text, rule existing = .ok (some text) ∧ existing ≠ some text ∧ ¬tree.IsWritable path) := by
  simp only [revise_eq_error_iff]
  constructor
  · rintro ⟨fault, left, fails⟩
    cases fails with
    | unread unread => exact .inl ⟨fault, unread⟩
    | refused found refused => exact .inr ⟨_, found, .inl ⟨fault, refused⟩⟩
    | unsaved found ruled differs unsaved =>
        exact .inr ⟨_, found, .inr ⟨_, ruled, differs, (exists_writeBelow_error_iff _).mp ⟨_, _, unsaved⟩⟩⟩
    | unopened found refused => exact .inr ⟨_, found, .inl ⟨_, refused⟩⟩
    | emptied found refused => exact .inr ⟨_, found, .inl ⟨_, refused⟩⟩
  · rintro (⟨fault, unread⟩ | ⟨existing, found, ⟨fault, refused⟩ | ⟨text, ruled, differs, unwritable⟩⟩)
    · exact ⟨fault, tree, .unread unread⟩
    · by_cases late : fault.isLate
      · cases opened : tree.writeBelow path "" with
        | mk answer left =>
            cases answer with
            | error error => exact ⟨_, left, .unopened found refused late opened⟩
            | ok done => exact ⟨fault, left, .emptied found refused ⟨late, opened⟩⟩
      · exact ⟨fault, tree, .refused found refused late⟩
    · obtain ⟨error, left, unsaved⟩ := (exists_writeBelow_error_iff text).mpr unwritable
      exact ⟨.file error, left, .unsaved found ruled differs unsaved⟩

/-- What keeps a file from being read shows before anything is opened. -/
theorem early_of_existingText {fault : MergeFault} (unread : tree.existingText path = .error fault) :
    ¬fault.isLate := by
  unfold existingText at unread
  cases present : tree.isFile path with
  | error error =>
      rw [present] at unread
      cases unread
      exact Bool.false_ne_true
  | ok isFile =>
      rw [present] at unread
      cases isFile with
      | false => cases unread
      | true =>
          cases readable : tree.readText path with
          | error failure =>
              rw [readable] at unread
              cases unread
              exact Bool.false_ne_true
          | ok text =>
              rw [readable] at unread
              cases unread

/-- A merge leaves its file empty just if its rule has a fault that shows only when the file is open, and the file
can be opened. -/
theorem exists_late_revise_iff :
    (∃ fault left, tree.revise path rule = (.error fault, left) ∧ fault.isLate)
      ↔ ∃ existing, tree.existingText path = .ok existing
        ∧ (∃ fault, rule existing = .error fault ∧ fault.isLate) ∧ tree.IsWritable path := by
  constructor
  · rintro ⟨fault, left, failed, late⟩
    cases revise_eq_error_iff.mp failed with
    | unread unread => exact absurd late (early_of_existingText unread)
    | refused _ _ early => exact absurd late early
    | unsaved => exact absurd late Bool.false_ne_true
    | unopened => exact absurd late Bool.false_ne_true
    | emptied found refused empties =>
        refine ⟨_, found, ⟨fault, refused, late⟩, ?_⟩
        by_contra unwritable
        obtain ⟨_, _, unopened⟩ := (exists_writeBelow_error_iff "").mpr unwritable
        rw [empties.opened] at unopened
        cases unopened
  · rintro ⟨existing, found, ⟨fault, refused, late⟩, writable⟩
    cases opened : tree.writeBelow path "" with
    | mk answer left =>
        cases answer with
        | error error => exact absurd writable ((exists_writeBelow_error_iff "").mp ⟨_, _, opened⟩)
        | ok done => exact ⟨fault, left, revise_eq_error_iff.mpr (.emptied found refused ⟨late, opened⟩), late⟩

/-- What a merge of a text meets that makes it fail. -/
inductive HindersMerge (tree : Tree) (strategy : MergeStrategy) (path : Path) (content : String) : Prop where
  | unreadable {fault : MergeFault} (unread : tree.existingText path = .error fault)
  | noObject {existing : Option String} (found : tree.existingText path = .ok existing)
      (structured : strategy = .structured)
      (noObject : ¬IsObjectText (existing.getD "") ∨ ¬IsObjectText content)
  | torn {existing : Option String} (found : tree.existingText path = .ok existing)
      (structured : strategy = .structured) (torn : TearTogether (existing.getD "") content)
  | unwritable {existing : Option String} {text : String} (found : tree.existingText path = .ok existing)
      (ruled : mergedText? strategy path existing content = .ok (some text)) (differs : existing ≠ some text)
      (unwritable : ¬tree.IsWritable path)

/-- A mapping, and the object of a file that it is combined with, have a lone half together and nothing else that
cannot be written. -/
structure TearsData (tree : Tree) (path : Path) (data : Entries) (mode : MergeMode) (current : Entries) : Prop where
  has : tree.HasObject path current
  free : Json.writeFaultEntries? false (mode.combine current data) = none
  half : ∃ lone, (Value.mapping (mode.combine current data)).half? = some lone

/-- What a merge of a mapping meets that makes it fail. -/
inductive HindersData (tree : Tree) (path : Path) (data : Entries) (modeName : String) : Prop where
  | unreadable {fault : MergeFault} (unread : tree.existingText path = .error fault)
  | noObject {existing : Option String} (found : tree.existingText path = .ok existing)
      (noObject : ¬IsObjectText (existing.getD ""))
  | unknownMode (unknown : MergeMode.ofName? modeName = none)
  | unserialisable {mode : MergeMode} {current : Entries} (named : mode.name = modeName)
      (has : tree.HasObject path current)
      (fault : Json.writeFaultEntries? false (mode.combine current data) ≠ none)
  | torn {mode : MergeMode} {current : Entries} (named : mode.name = modeName)
      (torn : tree.TearsData path data mode current)
  | unwritable {mode : MergeMode} {current : Entries} {existing : Option String} (named : mode.name = modeName)
      (found : tree.existingText path = .ok existing) (read : parseStructured (existing.getD "") = .ok current)
      (form : Json.HasForm false (.mapping (mode.combine current data)))
      (differs : existing ≠ some (printed (mode.combine current data))) (unwritable : ¬tree.IsWritable path)

/-- A merge of a text fails just if something hinders it. -/
theorem exists_merge_eq_error_iff {strategy : MergeStrategy} {content : String} :
    (∃ fault left, tree.merge strategy path content = (.error fault, left))
      ↔ tree.HindersMerge strategy path content := by
  rw [merge, exists_revise_eq_error_iff]
  simp only [exists_mergedText?_eq_error_iff]
  constructor
  · rintro (⟨fault, unread⟩ | ⟨existing, found, ⟨structured, noObject | noObject | torn⟩
      | ⟨text, ruled, differs, unwritable⟩⟩)
    · exact .unreadable unread
    · exact .noObject found structured (.inl noObject)
    · exact .noObject found structured (.inr noObject)
    · exact .torn found structured torn
    · exact .unwritable found ruled differs unwritable
  · intro hinders
    cases hinders with
    | unreadable unread => exact .inl ⟨_, unread⟩
    | noObject found structured noObject =>
        exact .inr ⟨_, found, .inl ⟨structured, noObject.imp_right .inl⟩⟩
    | torn found structured torn => exact .inr ⟨_, found, .inl ⟨structured, .inr (.inr torn)⟩⟩
    | unwritable found ruled differs unwritable => exact .inr ⟨_, found, .inr ⟨_, ruled, differs, unwritable⟩⟩

/-- So does a merge of a mapping. -/
theorem exists_mergeData_eq_error_iff {data : Entries} {modeName : String} :
    (∃ fault left, tree.mergeData path data modeName = (.error fault, left))
      ↔ tree.HindersData path data modeName := by
  rw [mergeData, exists_revise_eq_error_iff]
  simp only [exists_mergedData?_eq_error_iff, mergedData?_eq_ok_iff, Json.not_hasForm_iff]
  constructor
  · rintro (⟨fault, unread⟩ | ⟨existing, found,
      (noObject | unknown | ⟨mode, current, named, read, faulty | ⟨free, half⟩⟩)
        | ⟨text, ⟨mode, current, named, read, form, isText⟩, differs, unwritable⟩⟩)
    · exact .unreadable unread
    · exact .noObject found noObject
    · exact .unknownMode unknown
    · exact .unserialisable named ⟨existing, found, read⟩ faulty
    · exact .torn named ⟨⟨existing, found, read⟩, free, half⟩
    · obtain rfl := Option.some.inj isText
      exact .unwritable named found read form differs unwritable
  · intro hinders
    cases hinders with
    | unreadable unread => exact .inl ⟨_, unread⟩
    | noObject found noObject => exact .inr ⟨_, found, .inl (.inl noObject)⟩
    | unknownMode unknown =>
        cases found : tree.existingText path with
        | error fault => exact .inl ⟨fault, rfl⟩
        | ok existing => exact .inr ⟨existing, rfl, .inl (.inr (.inl unknown))⟩
    | unserialisable named has faulty =>
        obtain ⟨existing, found, read⟩ := has
        exact .inr ⟨existing, found, .inl (.inr (.inr ⟨_, _, named, read, .inl faulty⟩))⟩
    | torn named torn =>
        obtain ⟨⟨existing, found, read⟩, free, half⟩ := torn
        exact .inr ⟨existing, found, .inl (.inr (.inr ⟨_, _, named, read, .inr ⟨free, half⟩⟩))⟩
    | unwritable named found read form differs unwritable =>
        exact .inr ⟨_, found, .inr ⟨_, ⟨_, _, named, read, form, rfl⟩, differs, unwritable⟩⟩

/-- A merge of a text leaves its file empty just if the objects of both texts have a lone half together and the
file can be opened. -/
theorem exists_late_merge_iff {strategy : MergeStrategy} {content : String} :
    (∃ fault left, tree.merge strategy path content = (.error fault, left) ∧ fault.isLate)
      ↔ strategy = .structured ∧ (∃ existing, tree.existingText path = .ok existing
        ∧ TearTogether (existing.getD "") content) ∧ tree.IsWritable path := by
  rw [merge, exists_late_revise_iff]
  constructor
  · rintro ⟨existing, found, ⟨fault, refused, late⟩, writable⟩
    obtain ⟨structured, _⟩ := exists_mergedText?_eq_error_iff.mp ⟨fault, refused⟩
    subst structured
    refine ⟨rfl, ⟨existing, found, ?_⟩, writable⟩
    rcases eq_error_or_of_bind_eq_error refused with unread | ⟨current, read, refused⟩
    · exact absurd late (early_of_parseNamed unread)
    · rcases eq_error_or_of_bind_eq_error refused with unread | ⟨incoming, reread, refused⟩
      · exact absurd late (early_of_parseNamed unread)
      · have parsed := parseNamed_eq_ok_iff.mp read
        have parsedToo := parseNamed_eq_ok_iff.mp reread
        refine ⟨current, incoming, parsed, parsedToo, ?_⟩
        rcases eq_error_or_of_bind_eq_error refused with unwritten | ⟨_, _, ⟨⟩⟩
        exact (exists_of_dumpMerged_eq_error unwritten late).2
  · rintro ⟨rfl, ⟨existing, found, current, incoming, read, reread, lone, half⟩, writable⟩
    have together := (isReading_of_parseStructured read).deepMerge (isReading_of_parseStructured reread)
    obtain ⟨fault, refused, late⟩ := exists_dumpMerged_eq_error together.writeFault? half
    refine ⟨existing, found, ⟨fault, ?_, late⟩, writable⟩
    simp only [mergedText?, parseNamed_eq_ok_iff.mpr read, parseNamed_eq_ok_iff.mpr reread, refused, bind,
      Except.bind]

/-- So does a merge of a mapping. -/
theorem exists_late_mergeData_iff {data : Entries} {modeName : String} :
    (∃ fault left, tree.mergeData path data modeName = (.error fault, left) ∧ fault.isLate)
      ↔ (∃ mode current, mode.name = modeName ∧ tree.TearsData path data mode current)
        ∧ tree.IsWritable path := by
  rw [mergeData, exists_late_revise_iff]
  simp only [exists_late_mergedData?_iff]
  constructor
  · rintro ⟨existing, found, ⟨mode, current, named, read, free, half⟩, writable⟩
    exact ⟨⟨mode, current, named, ⟨existing, found, read⟩, free, half⟩, writable⟩
  · rintro ⟨⟨mode, current, named, ⟨existing, found, read⟩, free, half⟩, writable⟩
    exact ⟨existing, found, ⟨mode, current, named, read, free, half⟩, writable⟩

/-- What a merge that fails leaves: every file, and the whole tree unless the new text could not be saved; or,
after a fault that shows only when the file is open, that file empty and every other one as it was. -/
structure Leaves (tree : Tree) (path : Path) (fault : MergeFault) (left : Tree) : Prop where
  early : ¬fault.isLate →
    tree.SameFiles left ∧ tree.AddsFolders left ∧ ((∀ error, fault ≠ .file error) → left = tree)
  late : fault.isLate → tree.writeBelow path "" = (.ok (), left)
    ∧ ∃ location, left.file? location = some "".toUTF8
      ∧ ∀ other, other ≠ location → left.file? other = tree.file? other

/-- A merge that fails leaves every file, or only its own file empty. -/
theorem leaves_of_revise {fault : MergeFault} {left : Tree}
    (failed : tree.revise path rule = (.error fault, left)) : tree.Leaves path fault left := by
  refine ⟨fun early => ?_, fun late => ?_⟩
  · rcases addsFolders_or_empties_of_revise failed with adds | empties
    · refine ⟨adds.sameFiles, adds, fun noFile => ?_⟩
      exact (eq_of_revise_error failed noFile).resolve_right fun empties => early empties.isLate
    · exact absurd empties.isLate early
  · cases revise_eq_error_iff.mp failed with
    | unread unread => exact absurd late (early_of_existingText unread)
    | refused _ _ early => exact absurd late early
    | unsaved => exact absurd late Bool.false_ne_true
    | unopened => exact absurd late Bool.false_ne_true
    | emptied _ _ empties =>
        refine ⟨empties.opened, ?_⟩
        obtain ⟨grown, location, adds, located, noFolder, rfl⟩ := exists_put_of_writeBelow empties.opened
        refine ⟨location, ?_, fun other differs => ?_⟩
        · exact file?_put_self fun root => noFolder (root ▸ rfl)
        · rw [file?_put_of_ne differs, adds.sameFiles]

/-- A merge that fails keeps the content of every file: at most folders were made, and not even these unless the
new text could not be saved.  It fails just if the file cannot be read, a text is no object where one is needed,
a mode is unknown, a mapping has no JSON form, or a new text cannot be saved.  There is one exception: if the new
text has a lone half of a character, its file is open when the merge fails, and is left empty. -/
theorem merges_keepFiles (tree : Tree) (path : Path) :
    (∀ strategy content, ((∃ fault left, tree.merge strategy path content = (.error fault, left))
        ↔ tree.HindersMerge strategy path content)
      ∧ ((∃ fault left, tree.merge strategy path content = (.error fault, left) ∧ fault.isLate)
        ↔ strategy = .structured ∧ (∃ existing, tree.existingText path = .ok existing
          ∧ TearTogether (existing.getD "") content) ∧ tree.IsWritable path)
      ∧ ∀ fault left, tree.merge strategy path content = (.error fault, left) → tree.Leaves path fault left)
    ∧ ∀ data modeName, ((∃ fault left, tree.mergeData path data modeName = (.error fault, left))
        ↔ tree.HindersData path data modeName)
      ∧ ((∃ fault left, tree.mergeData path data modeName = (.error fault, left) ∧ fault.isLate)
        ↔ (∃ mode current, mode.name = modeName ∧ tree.TearsData path data mode current)
          ∧ tree.IsWritable path)
      ∧ ∀ fault left, tree.mergeData path data modeName = (.error fault, left) → tree.Leaves path fault left :=
  ⟨fun _ _ => ⟨exists_merge_eq_error_iff, exists_late_merge_iff, fun _ _ failed => leaves_of_revise failed⟩,
    fun _ _ => ⟨exists_mergeData_eq_error_iff, exists_late_mergeData_iff, fun _ _ failed => leaves_of_revise failed⟩⟩

/-! ## One page -/

/-- A tree with one file, a page of text. -/
def paged (text : String) : Tree := ⟨[(["page"], .file text.toUTF8)], []⟩

/-- The path of the page. -/
def page : Path := ⟨.relative, ["page"]⟩

theorem wellFormed_paged (text : String) : (paged text).WellFormed :=
  wellFormed_of_nodes rfl (by simp [paged, node?])

theorem locate_page (text : String) : (paged text).locate true page = .ok ["page"] :=
  locate_eq_ok_iff.mpr ⟨by decide, by decide,
    .down rfl (by decide) (by decide) rfl (fun _ => Node.noConfusion) .arrive⟩

theorem bytes?_page (text : String) : (paged text).bytes? page = some text.toUTF8 :=
  bytes?_eq_some_iff.mpr (look_eq_ok_iff.mpr ⟨_, locate_page text, rfl⟩)

/-- Nothing is merged into the page in a mode that does not exist, and the page is kept. -/
theorem merges_keepFiles_page : ∃ fault left,
    (paged "\x7b\x7d").mergeData page [] "zip" = (.error fault, left)
      ∧ (paged "\x7b\x7d").SameFiles left := by
  have unknown : MergeMode.ofName? "zip" = none := by decide
  obtain ⟨fails, late, leaves⟩ := (merges_keepFiles (paged "\x7b\x7d") page).2 [] "zip"
  obtain ⟨fault, left, failed⟩ := fails.mpr (.unknownMode unknown)
  have early : ¬fault.isLate := fun isLate => by
    obtain ⟨⟨mode, current, isName, _⟩, _⟩ := late.mp ⟨fault, left, failed, isLate⟩
    rw [← isName, MergeMode.ofName?_name] at unknown
    cases unknown
  exact ⟨fault, left, failed, ((leaves fault left failed).early early).1⟩

/-- An object with a lone half is merged into a page with an object: the merge fails, and the page is empty. -/
theorem merges_emptyPage :
    ∃ fault, (paged "\x7b\"a\": 1\x7d").merge .structured page tornText = (.error fault, paged "")
      ∧ ¬(paged "\x7b\"a\": 1\x7d").SameFiles (paged "") := by
  have parsed : Json.parse "\x7b\"a\": 1\x7d".toList = .ok (.mapping [(.text "a", .int 1)]) := by cbv
  have visible : Text.isAllBlank "\x7b\"a\": 1\x7d".toList = false := by decide
  have read : parseStructured "\x7b\"a\": 1\x7d" = .ok [(.text "a", .int 1)] := by
    simp only [parseStructured, visible, parsed, Bool.false_eq_true, if_false]
  have half : (Value.mapping (deepMerge [(.text "a", .int 1)] tornObject)).half? = some loneHalf := rfl
  obtain ⟨fault, refused, late⟩ := exists_dumpMerged_eq_error (by decide +kernel) half
  have found := existingText_of_bytes (bytes?_page "\x7b\"a\": 1\x7d")
  rw [Text.unified_of_notMem (by decide)] at found
  have opened := (wellFormed_paged "\x7b\"a\": 1\x7d").writeBelow_of_file (locate_page _) rfl ""
  have failed : (paged "\x7b\"a\": 1\x7d").merge .structured page tornText = (.error fault, paged "") := by
    simp only [merge, revise, found, mergedText?, Option.getD_some, parseNamed_eq_ok_iff.mpr read,
      parseNamed_eq_ok_iff.mpr parseStructured_tornText, refused, bind, Except.bind, if_pos late, spoil, opened]
    rfl
  refine ⟨fault, failed, fun same => ?_⟩
  have kept := same ["page"]
  exact absurd kept (by decide)

/-- What a merge settles on is written to the page unless it is read from it already. -/
theorem merge_page {strategy : MergeStrategy} {content : String} (text later : String)
    (ruled : mergedText? strategy page (some (Text.unified text)) content = .ok (some later)) :
    (paged text).merge strategy page content =
      if Text.unified text = later then (.ok false, paged text) else (.ok true, paged later) := by
  have read : (paged text).existingText page = .ok (some (Text.unified text)) :=
    existingText_of_bytes (bytes?_page text)
  have saves : (paged text).writeBelow page later = (.ok (), paged later) :=
    (wellFormed_paged text).writeBelow_of_file (locate_page text) rfl later
  simp [merge, revise, read, ruled, settle, saves]

end Tree

end Scaffold
