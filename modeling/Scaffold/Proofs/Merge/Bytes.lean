import Scaffold.Proofs.Merge.Blocks
import Scaffold.Proofs.Merge.Revision

/-!
# What merges do to the bytes of a file

A text is read with unified line ends and written as it is.  So the bytes of a file survive a merge that
adds to it exactly if they hold no carriage return or nothing is written (`merge_keeps_iff`), and the
answer of a merge tells whether the bytes changed, but for a file that is overwritten with the bytes it
has (`merge_answers_iff`).
-/

namespace Scaffold

/-- A text stands in front of the lines that are merged into it. -/
theorem EnvLines.prefix_merge? {existing incoming later : List Char}
    (merged : EnvLines.merge? existing incoming = some later) : existing <+: later := by
  unfold EnvLines.merge? at merged
  split at merged
  · cases merged
  · rw [← Option.some.inj merged]
    exact (EnvLines.prefix_completed existing).trans (List.prefix_append ..)

/-- The strategies that add to the end of a file. -/
def MergeStrategy.Extends (strategy : MergeStrategy) : Prop :=
  strategy = .append ∨ strategy = .lineAppendDedup

/-- The strategies that leave nothing of what was in a file. -/
def MergeStrategy.Overwrites (strategy : MergeStrategy) : Prop :=
  strategy = .write ∨ strategy = .replace

variable {strategy : MergeStrategy} {path : Path} {existing : Option String}
  {text later content : String}

/-- A strategy that overwrites settles on the content. -/
theorem mergedText?_of_overwrites (overwrites : strategy.Overwrites) (path : Path)
    (existing : Option String) (content : String) :
    mergedText? strategy path existing content = .ok (some content) := by
  rcases overwrites with rfl | rfl <;> rfl

/-- What adds to the end of a file keeps its text in front. -/
theorem prefix_of_mergedText? (extends' : strategy.Extends)
    (ruled : mergedText? strategy path (some text) content = .ok (some later)) :
    text.toList <+: later.toList := by
  rcases extends' with rfl | rfl
  · simp only [mergedText?] at ruled
    split at ruled
    · cases ruled
    · obtain rfl := Option.some.inj (Except.ok.inj ruled)
      rw [String.toList_ofList]
      exact Block.prefix_append ..
  · obtain ⟨merged, found, rfl⟩ := Option.map_eq_some_iff.mp (Except.ok.inj ruled)
    rw [String.toList_ofList]
    exact EnvLines.prefix_merge? found

/-- What adds to the start of a file keeps its text behind complete lines. -/
theorem exists_head_of_mergedText?
    (ruled : mergedText? .prepend path (some text) content = .ok (some later)) :
    ∃ head, later.toList = head ++ text.toList ∧ head.getLast? = some '\n' := by
  simp only [mergedText?] at ruled
  split at ruled
  · cases ruled
  · obtain rfl := Option.some.inj (Except.ok.inj ruled)
    rw [String.toList_ofList]
    exact Block.exists_head ..

/-- Nothing keeps content from being added to a text. -/
theorem exists_mergedText?_eq_ok (adds : strategy.Extends ∨ strategy = .prepend) (path : Path)
    (text content : String) :
    ∃ wanted, mergedText? strategy path (some text) content = .ok wanted := by
  rcases adds with (rfl | rfl) | rfl
  · dsimp only [mergedText?]
    split <;> exact ⟨_, rfl⟩
  · exact ⟨_, rfl⟩
  · dsimp only [mergedText?]
    split <;> exact ⟨_, rfl⟩

/-- A structured file is written without carriage returns. -/
theorem notMem_of_mergedText?
    (ruled : mergedText? .structured path existing content = .ok (some later)) :
    '\r' ∉ later.toList := by
  obtain ⟨current, _, ruled⟩ := exists_of_bind_eq_ok ruled
  obtain ⟨incoming, _, ruled⟩ := exists_of_bind_eq_ok ruled
  obtain ⟨dumped, dumps, ruled⟩ := exists_of_bind_eq_ok ruled
  obtain rfl := Option.some.inj (Except.ok.inj ruled)
  obtain ⟨_, rfl⟩ := dumpMerged_eq_ok_iff.mp dumps
  exact notMem_printed _

/-- A text with a carriage return is settled on where its unified form is in the file only if it is the
content that overwrites the file. -/
theorem overwrites_of_mergedText? (returns : '\r' ∈ later.toList)
    (ruled : mergedText? strategy path (some (Text.unified later)) content = .ok (some later)) :
    strategy.Overwrites ∧ content = later := by
  have unified : (Text.unified later).toList = Text.unifyLineEnds later.toList := String.toList_ofList
  have extended (extends' : strategy.Extends) : False := by
    obtain ⟨tail, whole⟩ := prefix_of_mergedText? extends' ruled
    refine Text.not_prefix_unifyLineEnds returns tail ?_
    rw [← unified, whole]
  cases strategy with
  | structured => exact absurd returns (notMem_of_mergedText? ruled)
  | lineAppendDedup => exact (extended (.inr rfl)).elim
  | append => exact (extended (.inl rfl)).elim
  | createIfAbsent => simp [mergedText?] at ruled
  | prepend =>
      obtain ⟨head, whole, ended⟩ := exists_head_of_mergedText? ruled
      have complete : head.getLast? ≠ some '\r' := by simp [ended]
      refine (Text.not_suffix_unifyLineEnds returns complete ?_).elim
      rw [← unified, ← whole]
  | write => exact ⟨.inl rfl, by simpa [mergedText?] using ruled⟩
  | replace => exact ⟨.inr rfl, by simpa [mergedText?] using ruled⟩

namespace Tree

variable {tree after : Tree} {changed : Bool}

/-- What a merge that succeeds found in a file and settled on. -/
theorem settled_of_merge (wellFormed : tree.WellFormed)
    (done : tree.merge strategy path content = (.ok changed, after)) :
    ∃ (stored : Option String) (wanted : Option String), tree.bytes? path = stored.map String.toUTF8
      ∧ mergedText? strategy path (stored.map Text.unified) content = .ok wanted
      ∧ Settled tree path (stored.map Text.unified) wanted changed after := by
  obtain ⟨existing, wanted, found, ruled, settled⟩ := settled_of_revise wellFormed done
  obtain ⟨stored, bytes, rfl⟩ := exists_text_of_existingText found
  exact ⟨stored, wanted, bytes, ruled, settled⟩

/-- Content is added to every file that stores a text.  If it is added to the end, the bytes of the file
stay in front exactly if nothing was written or the text has no carriage return, and if it is added to the
start they stay behind under the same condition. -/
theorem merge_keeps_iff (wellFormed : tree.WellFormed) (file : tree.bytes? path = some text.toUTF8)
    (adds : strategy.Extends ∨ strategy = .prepend) (content : String) :
    ∃ (changed : Bool) (after : Tree) (new : ByteArray),
      tree.merge strategy path content = (.ok changed, after) ∧ after.bytes? path = some new
        ∧ (strategy.Extends →
          ((∃ more, new = text.toUTF8 ++ more) ↔ changed = false ∨ '\r' ∉ text.toList))
        ∧ (strategy = .prepend →
          ((∃ more, new = more ++ text.toUTF8) ↔ changed = false ∨ '\r' ∉ text.toList)) := by
  obtain ⟨wanted, ruled⟩ := exists_mergedText?_eq_ok adds path (Text.unified text) content
  obtain ⟨changed, after, done, settled⟩ : ∃ changed, ∃ after : Tree,
      tree.merge strategy path content = (.ok changed, after)
        ∧ tree.Settled path (some (Text.unified text)) wanted changed after :=
    exists_settled_of_revise wellFormed (wellFormed.isWritable_of_bytes file)
      (existingText_of_bytes file) ruled
  have unified : (Text.unified text).toList = Text.unifyLineEnds text.toList := String.toList_ofList
  cases settled with
  | kept same =>
      refine ⟨false, tree, text.toUTF8, done, file, fun _ => ?_, fun _ => ?_⟩
      · exact iff_of_true ⟨ByteArray.empty, ByteArray.append_empty.symm⟩ (.inl rfl)
      · exact iff_of_true ⟨ByteArray.empty, ByteArray.empty_append.symm⟩ (.inl rfl)
  | @written later after differs stillFormed holds =>
      refine ⟨true, after, later.toUTF8, done, holds, fun extends' => ?_, fun prepends => ?_⟩
      · rw [Text.toUTF8_prefix_iff]
        have starts := prefix_of_mergedText? extends' ruled
        constructor
        · intro prior
          refine .inr fun returns => ?_
          obtain ⟨tail, whole⟩ := starts
          refine Text.not_prefix_unifyLineEnds returns tail ?_
          rwa [← unified, whole]
        · rintro (impossible | plain)
          · cases impossible
          · rwa [Text.unified_of_notMem plain] at starts
      · subst prepends
        rw [Text.toUTF8_suffix_iff]
        obtain ⟨head, whole, ended⟩ := exists_head_of_mergedText? ruled
        have complete : head.getLast? ≠ some '\r' := by simp [ended]
        constructor
        · intro prior
          refine .inr fun returns => ?_
          refine Text.not_suffix_unifyLineEnds returns complete ?_
          rwa [← unified, ← whole]
        · rintro (impossible | plain)
          · cases impossible
          · rw [Text.unified_of_notMem plain] at whole
            exact ⟨head, whole.symm⟩

/-- A line that is appended to an incomplete line leaves it in front. -/
theorem merge_keeps_iff_page :
    (paged "a").WellFormed ∧ (paged "a").bytes? page = some "a".toUTF8
      ∧ (paged "a").merge .append page "b" = (.ok true, paged "a\nb")
      ∧ ∃ more, "a\nb".toUTF8 = "a".toUTF8 ++ more := by
  have appended : (paged "a").merge .append page "b" = (.ok true, paged "a\nb") :=
    merge_page "a" "a\nb" (by decide)
  obtain ⟨changed, after, new, done, holds, front, -⟩ :=
    merge_keeps_iff (wellFormed_paged "a") (bytes?_page "a") (.inl (.inl rfl)) "b"
  obtain ⟨rfl, rfl⟩ : changed = true ∧ after = paged "a\nb" := by
    simpa using done.symm.trans appended
  obtain rfl : "a\nb".toUTF8 = new := Option.some.inj ((bytes?_page "a\nb").symm.trans holds)
  exact ⟨wellFormed_paged "a", bytes?_page "a", appended, (front (.inl rfl)).mpr (.inr (by decide))⟩

/-- Lines that end in a carriage return and a line feed are changed by what is added before and behind
them. -/
theorem merge_unifies_page :
    (paged "a\x0d\nb").bytes? page = some "a\x0d\nb".toUTF8
      ∧ (paged "a\x0d\nb").merge .append page "c" = (.ok true, paged "a\nb\nc")
      ∧ (¬∃ more, (paged "a\nb\nc").bytes? page = some ("a\x0d\nb".toUTF8 ++ more))
      ∧ (paged "a\x0d\nb").merge .prepend page "c" = (.ok true, paged "c\na\nb")
      ∧ ¬∃ more, (paged "c\na\nb").bytes? page = some (more ++ "a\x0d\nb".toUTF8) := by
  refine ⟨bytes?_page _, merge_page _ "a\nb\nc" (by decide), ?_,
    merge_page _ "c\na\nb" (by decide), ?_⟩
  · simp only [bytes?_page, Option.some.injEq, Text.toUTF8_prefix_iff]
    decide
  · simp only [bytes?_page, Option.some.injEq, Text.toUTF8_suffix_iff]
    decide

/-- A merge that succeeds answers whether the bytes of the file changed, except that it answers yes for a
file that is overwritten with a text of carriage returns that it stores already.  What overwrites a file
leaves the content there, except where the file stores a text of carriage returns that is the content in
unified form. -/
theorem merge_answers_iff (wellFormed : tree.WellFormed)
    (done : tree.merge strategy path content = (.ok changed, after)) :
    (changed = true ↔ after.bytes? path ≠ tree.bytes? path
        ∨ strategy.Overwrites ∧ tree.bytes? path = some content.toUTF8 ∧ '\r' ∈ content.toList)
      ∧ (strategy.Overwrites → (after.bytes? path = some content.toUTF8 ↔
        ¬∃ text : String, tree.bytes? path = some text.toUTF8 ∧ '\r' ∈ text.toList
          ∧ Text.unified text = content)) := by
  obtain ⟨stored, wanted, bytes, ruled, settled⟩ := settled_of_merge wellFormed done
  have stores {text : String} : tree.bytes? path = some text.toUTF8 ↔ stored = some text := by
    rw [bytes, Option.map_eq_some_iff]
    exact ⟨fun ⟨other, isStored, same⟩ => isStored.trans (congrArg some (String.toByteArray_inj.mp same)),
      fun isStored => ⟨text, isStored, rfl⟩⟩
  simp only [stores]
  have settles (overwrites : strategy.Overwrites) : wanted = some content := by
    rw [mergedText?_of_overwrites overwrites] at ruled
    exact (Except.ok.inj ruled).symm
  cases settled with
  | kept same =>
      have isContent (overwrites : strategy.Overwrites) : stored.map Text.unified = some content :=
        same content (settles overwrites)
      refine ⟨?_, fun overwrites => ?_⟩
      · refine iff_of_false (by simp) ?_
        rintro (differs | ⟨overwrites, rfl, returns⟩)
        · exact differs rfl
        · exact Text.unified_eq_self_iff.mp (Option.some.inj (isContent overwrites)) returns
      · obtain ⟨text, rfl, rfl⟩ := Option.map_eq_some_iff.mp (isContent overwrites)
        have unchanged : tree.bytes? path = some (Text.unified text).toUTF8 ↔ '\r' ∉ text.toList := by
          rw [stores, Option.some.injEq, eq_comm, Text.unified_eq_self_iff]
        rw [unchanged]
        simp
  | @written later after differs stillFormed holds =>
      refine ⟨iff_of_true rfl ?_, fun overwrites => iff_of_true ?_ ?_⟩
      · by_cases same : stored = some later
        · subst same
          have returns : '\r' ∈ later.toList := by
            by_contra plain
            exact differs (congrArg some (Text.unified_of_notMem plain))
          obtain ⟨overwrites, rfl⟩ := overwrites_of_mergedText? returns ruled
          exact .inr ⟨overwrites, rfl, returns⟩
        · left
          rw [holds]
          exact fun kept => same (stores.mp kept.symm)
      · obtain rfl := Option.some.inj (settles overwrites)
        exact holds
      · rintro ⟨text, rfl, -, rfl⟩
        exact differs (settles overwrites).symm

/-- A page that is overwritten holds the content, and the answer tells. -/
theorem merge_answers_iff_page :
    (paged "a").WellFormed ∧ (paged "a").merge .write page "b" = (.ok true, paged "b")
      ∧ (paged "b").bytes? page = some "b".toUTF8 ∧ (paged "b").bytes? page ≠ (paged "a").bytes? page := by
  have done : (paged "a").merge .write page "b" = (.ok true, paged "b") :=
    merge_page "a" "b" (by decide)
  obtain ⟨answers, holds⟩ := merge_answers_iff (wellFormed_paged "a") done
  have none : ¬∃ text : String, (paged "a").bytes? page = some text.toUTF8 ∧ '\r' ∈ text.toList
      ∧ Text.unified text = "b" := by
    rintro ⟨text, file, returns, -⟩
    obtain rfl : "a" = text :=
      String.toByteArray_inj.mp (Option.some.inj ((bytes?_page "a").symm.trans file))
    exact absurd returns (by decide)
  refine ⟨wellFormed_paged "a", done, (holds (.inl rfl)).mpr none, ?_⟩
  rcases answers.mp rfl with differs | ⟨-, -, returns⟩
  · exact differs
  · exact absurd returns (by decide)

/-- Writing lines that end in a carriage return and a line feed over the same lines is answered with yes,
and writing them with line feeds alone is answered with no and changes nothing. -/
theorem merge_misjudges_page :
    (paged "a\x0d\nb").merge .write page "a\x0d\nb" = (.ok true, paged "a\x0d\nb")
      ∧ (paged "a\x0d\nb").merge .write page "a\nb" = (.ok false, paged "a\x0d\nb")
      ∧ (paged "a\x0d\nb").bytes? page ≠ some "a\nb".toUTF8 := by
  refine ⟨merge_page _ "a\x0d\nb" rfl, merge_page _ "a\nb" rfl, ?_⟩
  rw [bytes?_page, ne_eq, Option.some.injEq]
  exact fun same => absurd (String.toByteArray_inj.mp same) (by decide)

end Tree

end Scaffold
