import Scaffold.Proofs.Merge.Blocks
import Scaffold.Proofs.Merge.Revision

/-!
# Blocks added to a file in turn

An `Addition` is a visible block that is put at an end of a file unless the file contains it.  Whatever is
added before and behind a block, the file goes on to contain it (`exists_merge_addition`), so after a
sequence of additions it contains all of their blocks and adding any of them again leaves it as it is
(`addInTurn_contains`).
-/

namespace Scaffold

open EnvLines (completed)

/-- A block that is added to an end of a file: one of its lines is visible, and it has no carriage
returns. -/
structure Addition where
  strategy : MergeStrategy
  content : String
  atEnd : strategy = .append ∨ strategy = .prepend
  visible : ∃ line ∈ Text.lines content.toList, Text.isAllBlank line = false
  plain : '\r' ∉ content.toList

namespace Addition

/-- The text of a file contains the block of an addition. -/
def IsIn (addition : Addition) (existing : Option String) : Prop :=
  ∃ text, existing = some text ∧ Block.contains text.toList addition.content.toList = true

variable {addition : Addition} {path : Path} {existing : Option String} {text : String}

/-- A visible block is not empty. -/
theorem nonempty (addition : Addition) : addition.content.toList ≠ [] := by
  intro empty
  obtain ⟨line, member, _⟩ := addition.visible
  rw [empty] at member
  cases member

/-- A block that a file contains is not added. -/
theorem mergedText?_of_isIn (inside : addition.IsIn existing) (path : Path) :
    mergedText? addition.strategy path existing addition.content = .ok none := by
  obtain ⟨text, rfl, contains⟩ := inside
  rcases addition.atEnd with same | same <;> simp [mergedText?, same, contains]

/-- A block that a file does not contain is joined with its text. -/
theorem exists_joined (outside : ¬addition.IsIn (some text)) (path : Path) :
    ∃ first second, mergedText? addition.strategy path (some text) addition.content
        = .ok (some (String.ofList (completed first ++ second)))
      ∧ (first = text.toList ∧ second = addition.content.toList
        ∨ first = addition.content.toList ∧ second = text.toList) := by
  have absent : Block.contains text.toList addition.content.toList = false := by
    by_contra contains
    exact outside ⟨text, rfl, by simpa using contains⟩
  rcases addition.atEnd with same | same
  · exact ⟨_, _, by simp [mergedText?, same, absent, Block.append_eq], .inl ⟨rfl, rfl⟩⟩
  · exact ⟨_, _, by simp [mergedText?, same, absent, Block.prepend_eq addition.nonempty],
      .inr ⟨rfl, rfl⟩⟩

/-- A block that a file does not contain is added so that the file contains it and all that it contained
before. -/
theorem exists_mergedText? (outside : ¬addition.IsIn existing)
    (unified : ∀ text ∈ existing, '\r' ∉ text.toList) (path : Path) :
    ∃ later, mergedText? addition.strategy path existing addition.content = .ok (some later)
      ∧ '\r' ∉ later.toList ∧ addition.IsIn (some later)
      ∧ ∀ other : Addition, other.IsIn existing → other.IsIn (some later) := by
  have itself := Block.contains_self addition.visible
  cases existing with
  | none =>
      refine ⟨addition.content, ?_, addition.plain, ⟨_, rfl, itself⟩, nofun⟩
      rcases addition.atEnd with same | same <;> rw [same] <;> rfl
  | some text =>
      obtain ⟨first, second, ruled, order⟩ := exists_joined outside path
      have plain := unified text rfl
      have isJoined : (String.ofList (completed first ++ second)).toList = completed first ++ second :=
        String.toList_ofList
      refine ⟨_, ruled, ?_, ⟨_, rfl, ?_⟩, ?_⟩
      · obtain ⟨before, behind⟩ : '\r' ∉ first ∧ '\r' ∉ second := by
          rcases order with ⟨rfl, rfl⟩ | ⟨rfl, rfl⟩
          · exact ⟨plain, addition.plain⟩
          · exact ⟨addition.plain, plain⟩
        rw [isJoined, List.mem_append, not_or]
        exact ⟨EnvLines.notMem_completed before (by decide), behind⟩
      · rw [isJoined]
        refine Block.contains_join (order.symm.imp ?_ ?_) <;> exact fun same => by simpa [same] using itself
      · rintro other ⟨_, same, contains⟩
        obtain rfl := Option.some.inj same
        refine ⟨_, rfl, ?_⟩
        rw [isJoined]
        refine Block.contains_join (order.imp ?_ ?_) <;> exact fun same => by simpa [same] using contains

end Addition

namespace Tree

/-- The bytes of a file store the text that is read from it; no text is read where there is no file. -/
structure HasText (tree : Tree) (path : Path) (existing : Option String) : Prop where
  read : tree.existingText path = .ok existing
  stored : tree.bytes? path = existing.map String.toUTF8

/-- Adds blocks to a file in turn, up to the first that fails. -/
def addInTurn (tree : Tree) (path : Path) : List Addition → Except MergeFault Unit × Tree
  | [] => (.ok (), tree)
  | addition :: rest =>
    match tree.merge addition.strategy path addition.content with
    | (.ok _, later) => later.addInTurn path rest
    | (.error fault, left) => (.error fault, left)

variable {tree : Tree} {path : Path} {existing : Option String} {text : String} {addition : Addition}

/-- A file has the text that it stores if that has no carriage returns. -/
theorem hasText_some_iff :
    tree.HasText path (some text) ↔ tree.bytes? path = some text.toUTF8 ∧ '\r' ∉ text.toList := by
  constructor
  · rintro ⟨read, stored⟩
    refine ⟨stored, ?_⟩
    have unified := Except.ok.inj ((existingText_of_bytes stored).symm.trans read)
    exact Text.unified_eq_self_iff.mp (Option.some.inj unified)
  · rintro ⟨stored, plain⟩
    refine ⟨?_, stored⟩
    rw [existingText_of_bytes stored, Text.unified_of_notMem plain]

/-- A file that contains a block is left as it is when the block is added. -/
theorem merge_of_isIn (has : tree.HasText path existing) (inside : addition.IsIn existing) :
    tree.merge addition.strategy path addition.content = (.ok false, tree) := by
  rw [merge, revise, has.read]
  dsimp only
  rw [Addition.mergedText?_of_isIn inside]
  rfl

/-- Adding a block succeeds wherever a file can be saved, and the file contains the block and all that it
contained before. -/
theorem exists_merge_addition (wellFormed : tree.WellFormed) (has : tree.HasText path existing)
    (writable : existing = none → tree.IsWritable path) (addition : Addition) :
    ∃ changed, ∃ after : Tree, ∃ text : String,
      tree.merge addition.strategy path addition.content = (.ok changed, after)
        ∧ after.WellFormed ∧ after.HasText path (some text) ∧ addition.IsIn (some text)
        ∧ ∀ other : Addition, other.IsIn existing → other.IsIn (some text) := by
  by_cases inside : addition.IsIn existing
  · obtain ⟨text, rfl, _⟩ := id inside
    exact ⟨false, tree, text, merge_of_isIn has inside, wellFormed, has, inside, fun _ => id⟩
  · have unified : ∀ text ∈ existing, '\r' ∉ text.toList := by
      rintro text rfl
      exact (hasText_some_iff.mp has).2
    obtain ⟨later, ruled, plain, isIn, others⟩ := Addition.exists_mergedText? inside unified path
    have saves : tree.IsWritable path := by
      cases existing with
      | none => exact writable rfl
      | some text => exact wellFormed.isWritable_of_bytes has.stored
    obtain ⟨changed, after, done, settled⟩ : ∃ changed, ∃ after : Tree,
        tree.merge addition.strategy path addition.content = (.ok changed, after)
          ∧ tree.Settled path existing (some later) changed after :=
      exists_settled_of_revise wellFormed saves has.read ruled
    refine ⟨changed, after, later, done, ?_⟩
    cases settled with
    | kept same =>
        obtain rfl := same later rfl
        exact ⟨wellFormed, has, isIn, others⟩
    | written _ stillFormed holds =>
        exact ⟨stillFormed, hasText_some_iff.mpr ⟨holds, plain⟩, isIn, others⟩

/-- After blocks were added to a file in turn, it contains all of them and all that it contained
before. -/
theorem exists_addInTurn (wellFormed : tree.WellFormed) (has : tree.HasText path existing)
    (writable : existing = none → tree.IsWritable path) (additions : List Addition) :
    ∃ (after : Tree) (last : Option String), tree.addInTurn path additions = (.ok (), after)
      ∧ after.HasText path last ∧ (∀ addition ∈ additions, addition.IsIn last)
      ∧ ∀ other : Addition, other.IsIn existing → other.IsIn last := by
  induction additions generalizing tree existing with
  | nil => exact ⟨tree, existing, rfl, has, nofun, fun _ => id⟩
  | cons addition rest inductionHypothesis =>
      obtain ⟨changed, later, text, done, stillFormed, hasText, isIn, kept⟩ :=
        exists_merge_addition wellFormed has writable addition
      obtain ⟨after, last, ran, hasLast, all, stay⟩ := inductionHypothesis stillFormed hasText nofun
      refine ⟨after, last, ?_, hasLast, List.forall_mem_cons.mpr ⟨stay _ isIn, all⟩,
        fun other before => stay other (kept other before)⟩
      rw [addInTurn, done]
      exact ran

/-- Blocks that are added in turn, each before or behind the text of a file or to a new file, are all
added.  Afterwards the file contains every one of them, and adding any of them again is answered with no
and leaves the tree. -/
theorem addInTurn_contains (wellFormed : tree.WellFormed) (has : tree.HasText path existing)
    (writable : existing = none → tree.IsWritable path) (additions : List Addition) :
    ∃ (after : Tree) (last : Option String), tree.addInTurn path additions = (.ok (), after)
      ∧ after.bytes? path = last.map String.toUTF8
      ∧ ∀ addition ∈ additions,
        (∃ text, last = some text ∧ Block.contains text.toList addition.content.toList = true)
          ∧ after.merge addition.strategy path addition.content = (.ok false, after) := by
  obtain ⟨after, last, ran, hasLast, all, _⟩ := exists_addInTurn wellFormed has writable additions
  exact ⟨after, last, ran, hasLast.stored, fun addition member =>
    ⟨all addition member, merge_of_isIn hasLast (all addition member)⟩⟩

/-- Blocks that overlap: the second and the third are contained in the text with the first. -/
def layers : List Addition :=
  [⟨.append, "b\nc", .inl rfl, by decide, by decide⟩,
   ⟨.prepend, "\nc\n\n", .inr rfl, by decide, by decide⟩,
   ⟨.append, "a\nb", .inl rfl, by decide, by decide⟩,
   ⟨.prepend, "d", .inr rfl, by decide, by decide⟩]

/-- Overlapping blocks that are added to an incomplete line. -/
theorem addInTurn_contains_layers :
    (paged "a").WellFormed ∧ (paged "a").HasText page (some "a")
      ∧ ∃ (after : Tree) (last : Option String), (paged "a").addInTurn page layers = (.ok (), after)
        ∧ after.bytes? page = last.map String.toUTF8
        ∧ ∀ addition ∈ layers,
          (∃ text, last = some text ∧ Block.contains text.toList addition.content.toList = true)
            ∧ after.merge addition.strategy page addition.content = (.ok false, after) := by
  have has : (paged "a").HasText page (some "a") := hasText_some_iff.mpr ⟨bytes?_page "a", by decide⟩
  exact ⟨wellFormed_paged "a", has, addInTurn_contains (wellFormed_paged "a") has nofun layers⟩

end Tree

end Scaffold
