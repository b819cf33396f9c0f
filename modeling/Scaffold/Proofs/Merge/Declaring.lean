import Scaffold.Proofs.Merge.Revision
import Scaffold.Proofs.Merge.Variables
import Scaffold.Proofs.Tree.Following
import Scaffold.Proofs.Tree.Retaining

/-!
# Declaring a variable in files

A block that is merged into a file of variables adds the new entry lines that `EnvLines.merge?` finds
(`Gains`).  The same block may be merged into two files in turn.  Each of them gains what it would have gained
alone, also if both paths lead to one file: the second merge finds nothing new then (`gains_in_turn`).
-/

namespace Scaffold.Tree

/-- Between two trees, the file at a path gains the new declarations of a block; if there are none, the path
leads to what it led to. -/
structure Gains (before after : Tree) (path : Path) (existing : Option String) (block : String) : Prop where
  read : before.existingText path = .ok existing
  kept : EnvLines.merge? (existing.getD "").toList block.toList = none →
    after.look path = before.look path
  grown : ∀ text, EnvLines.merge? (existing.getD "").toList block.toList = some text →
    after.existingText path = .ok (some (String.ofList text))

variable {tree before between after : Tree} {path other sample : Path} {location : Location}
  {existing : Option String} {block : String} {changed : Bool} {content : ByteArray}
  {rule : Option String → Except MergeFault (Option String)}

/-- What is read depends on what a path leads to, not on the path. -/
theorem existingText_of_look (same : after.look other = before.look path)
    (read : before.existingText path = .ok existing) : after.existingText other = .ok existing := by
  unfold existingText isFile test readText Tree.read at read ⊢
  rw [same]
  cases found : before.look path with
  | error cause => cases cause <;> simp_all [Except.mapError, bind, Except.bind]
  | ok node => cases node <;> simp_all [Except.mapError, bind, Except.bind]

/-- What a file gains depends on what the path leads to, not on the path. -/
theorem Gains.congr {first last : Tree} (gains : Gains before after path existing block)
    (starts : first.look other = before.look path) (ends : last.look other = after.look path) :
    Gains first last other existing block := by
  refine ⟨existingText_of_look starts gains.read, fun nothing => ?_, fun text grows => ?_⟩
  · rw [starts, ends, gains.kept nothing]
  · exact existingText_of_look ends (gains.grown text grows)

/-- Afterwards the file has the text that the merge of the block leads to. -/
theorem Gains.exists_later (gains : Gains before after path existing block) :
    ∃ later, after.existingText path = .ok later
      ∧ (later.getD "").toList = EnvLines.merged (existing.getD "").toList block.toList := by
  cases grows : EnvLines.merge? (existing.getD "").toList block.toList with
  | none =>
      refine ⟨existing, existingText_of_look (gains.kept grows) gains.read, ?_⟩
      rw [EnvLines.merged, grows]
      rfl
  | some text =>
      refine ⟨_, gains.grown text grows, ?_⟩
      rw [EnvLines.merged, grows, Option.getD_some, Option.getD_some, String.toList_ofList]

/-- A block that was merged into a text has nothing new for it. -/
theorem Gains.nothing_new (gains : Gains before after path existing block) :
    ∃ later, after.existingText path = .ok later
      ∧ EnvLines.merge? (later.getD "").toList block.toList = none := by
  obtain ⟨later, read, same⟩ := gains.exists_later
  refine ⟨later, read, EnvLines.merge?_eq_none_iff.mpr fun key given => ?_⟩
  rw [same, EnvLines.mem_keys_merged]
  exact .inr given

/-- A merge that succeeds leaves the tree or saves a text. -/
theorem kept_or_saved_of_revise (done : tree.revise path rule = (.ok changed, after)) :
    after = tree ∨ ∃ text, tree.writeBelow path text = (.ok (), after) := by
  obtain ⟨existing, wanted, _, _, settles⟩ := settle_of_revise done
  cases wanted with
  | none => exact .inl (Prod.mk.inj settles).2.symm
  | some text =>
      rcases settle_cases tree path existing text with ⟨_, kept⟩ | ⟨written, saved, rewritten⟩ | ⟨_, _, _, refused⟩
      · exact .inl (Prod.mk.inj (settles.symm.trans kept)).2
      · exact .inr ⟨text, (Prod.mk.inj (rewritten.symm.trans settles)).2 ▸ saved⟩
      · rw [refused] at settles
        cases settles

/-- A block is merged into a file of variables. -/
theorem WellFormed.exists_gains (wellFormed : tree.WellFormed)
    (done : tree.merge .lineAppendDedup path block = (.ok changed, after)) :
    ∃ existing, Gains tree after path existing block := by
  obtain ⟨existing, wanted, read, ruled, settled⟩ := settled_of_revise wellFormed done
  obtain rfl := Except.ok.inj ruled
  have plain : '\r' ∉ (existing.getD "").toList := by
    cases existing with
    | none => exact List.not_mem_nil
    | some text => exact notMem_of_existingText read
  refine ⟨existing, read, fun nothing => ?_, fun text grows => ?_⟩
  · rw [nothing] at settled
    cases settled
    rfl
  · rw [grows] at settled
    cases settled with
    | kept same =>
        rw [read, same _ rfl]
    | written _ _ holds =>
        have unified : '\r' ∉ (String.ofList text).toList := by
          rw [String.toList_ofList]
          exact EnvLines.notMem_of_merge? plain grows
        rw [existingText_of_bytes holds, Text.unified_of_notMem unified]

/-- A block that has nothing new for a file is not merged into it. -/
theorem merge_of_nothing (read : tree.existingText path = .ok existing)
    (nothing : EnvLines.merge? (existing.getD "").toList block.toList = none) :
    tree.merge .lineAppendDedup path block = (.ok false, tree) := by
  simp only [merge, revise, read, mergedText?, nothing, Option.map_none, settle]

/-! ## Two merges of one block -/

/-- Merging the block into a second file leaves the first one, also if they are the same: that a file is at the
second path's location is known from the start. -/
theorem WellFormed.look_of_second (wellFormed : between.WellFormed) (straight : ".." ∉ location)
    (stands : between.node? location = some (.file content))
    (first : ∃ found, between.existingText sample = .ok found
      ∧ EnvLines.merge? (found.getD "").toList block.toList = none)
    (done : between.merge .lineAppendDedup (pathOf location) block = (.ok changed, after)) :
    after.look sample = between.look sample := by
  obtain ⟨found, readFirst, known⟩ := first
  obtain ⟨existing, gains⟩ := wellFormed.exists_gains done
  by_cases nothing : EnvLines.merge? (existing.getD "").toList block.toList = none
  · rw [merge_of_nothing gains.read nothing] at done
    rw [(Prod.mk.inj done).2]
  have retains : Retains between after := by
    have kept := wellFormed.retains_revise (pathOf location)
      fun existing => mergedText? .lineAppendDedup (pathOf location) existing block
    rwa [← merge, done] at kept
  rcases kept_or_saved_of_revise done with rfl | ⟨text, saved⟩
  · rfl
  obtain ⟨grown, place, adds, rfl, located, _⟩ := wellFormed.place_of_writeBelow straight saved
  obtain ⟨later, still⟩ := retains.file location content stands
  have sound : pathDefect? location = none ∧ place = location := by
    rw [retains.wellFormed.locate_pathOf straight still] at located
    split at located
    next => cases located
    next sound => exact ⟨sound, (Except.ok.inj located).symm⟩
  obtain ⟨sound, rfl⟩ := sound
  have looked := wellFormed.look_pathOf straight stands
  rw [sound] at looked
  obtain ⟨stored, bytes, rfl⟩ := exists_text_of_existingText readFirst
  cases stored with
  | none =>
      -- A block with nothing new for no text has no entries, and nothing new for any text.
      refine absurd (EnvLines.merge?_eq_none_iff.mpr fun key given => ?_) nothing
      cases EnvLines.merge?_eq_none_iff.mp known key given
  | some text' =>
      have lookedFirst := bytes?_eq_some_iff.mp bytes
      obtain ⟨start, locatedFirst, standsFirst⟩ := look_eq_ok_iff.mp lookedFirst
      by_cases same : start = place
      · subst same
        obtain rfl := Node.file.inj (Option.some.inj (stands.symm.trans standsFirst))
        have readAgain := existingText_of_look (looked.trans lookedFirst.symm) readFirst
        obtain rfl := Except.ok.inj (gains.read.symm.trans readAgain)
        exact absurd known nothing
      · have stays : (grown.put place (.file text.toUTF8)).node? start = some (.file text'.toUTF8) := by
          rw [node?_put_of_ne same]
          exact adds.node?_of_some standsFirst
        rw [lookedFirst]
        exact look_of_kept locatedFirst standsFirst stays (fun _ => Node.noConfusion) retains.links
          retains.folder

/-- Merging the block into a first file leaves a second one, unless the two are the same. -/
theorem WellFormed.look_of_first (wellFormed : before.WellFormed) (straightSample : ".." ∉ sample.parts)
    (straight : ".." ∉ location) (stands : before.node? location = some (.file content))
    (done : before.merge .lineAppendDedup sample block = (.ok changed, between)) :
    between.look (pathOf location) = before.look (pathOf location)
      ∨ before.look (pathOf location) = before.look sample
        ∧ between.look (pathOf location) = between.look sample := by
  rcases kept_or_saved_of_revise done with rfl | ⟨text, saved⟩
  · exact .inl rfl
  have stillFormed : between.WellFormed := by
    have kept := wellFormed.retains_revise sample
      fun existing => mergedText? .lineAppendDedup sample existing block
    rw [← merge, done] at kept
    exact kept.wellFormed
  have looked := wellFormed.look_pathOf straight stands
  obtain ⟨grown, place, adds, rfl, located, replaced⟩ := wellFormed.place_of_writeBelow straightSample saved
  by_cases same : location = place
  · subst same
    have nonempty : location ≠ [] := by
      rintro rfl
      cases stands
    have written : (grown.put location (.file text.toUTF8)).node? location = some (.file text.toUTF8) :=
      node?_put_self nonempty
    have lookedAfter := stillFormed.look_pathOf straight written
    rw [stands] at replaced
    have locatedBefore := replaced.resolve_left (Option.some_ne_none _)
    cases defect : pathDefect? location with
    | some cause =>
        rw [defect] at looked lookedAfter
        exact .inl (lookedAfter.trans looked.symm)
    | none =>
        rw [defect] at looked lookedAfter
        exact .inr ⟨looked.trans (look_eq_ok_iff.mpr ⟨_, locatedBefore, stands⟩).symm,
          lookedAfter.trans (look_eq_ok_iff.mpr ⟨_, located, written⟩).symm⟩
  · have stays : (grown.put place (.file text.toUTF8)).node? location = some (.file content) := by
      rw [node?_put_of_ne same]
      exact adds.node?_of_some stands
    exact .inl ((stillFormed.look_pathOf straight stays).trans looked.symm)

/-- A block that is merged into two files in turn is gained by both, also if they are the same. -/
theorem WellFormed.gains_in_turn {first second : Bool} (wellFormed : before.WellFormed)
    (straightSample : ".." ∉ sample.parts) (straight : ".." ∉ location)
    (stands : before.node? location = some (.file content))
    (doneFirst : before.merge .lineAppendDedup sample block = (.ok first, between))
    (doneSecond : between.merge .lineAppendDedup (pathOf location) block = (.ok second, after)) :
    (∃ existing, Gains before after sample existing block)
      ∧ ∃ existing, Gains before after (pathOf location) existing block := by
  have retains : Retains before between := by
    have kept := wellFormed.retains_revise sample
      fun existing => mergedText? .lineAppendDedup sample existing block
    rwa [← merge, doneFirst] at kept
  obtain ⟨later, still⟩ := retains.file location content stands
  obtain ⟨ofSample, gainsFirst⟩ := wellFormed.exists_gains doneFirst
  obtain ⟨ofOther, gainsSecond⟩ := retains.wellFormed.exists_gains doneSecond
  have unchanged := retains.wellFormed.look_of_second straight still gainsFirst.nothing_new doneSecond
  refine ⟨⟨ofSample, gainsFirst.congr rfl unchanged⟩, ?_⟩
  rcases wellFormed.look_of_first straightSample straight stands doneFirst with apart | ⟨starts, ends⟩
  · exact ⟨ofOther, gainsSecond.congr apart.symm rfl⟩
  · have shared := gainsFirst.congr starts ends
    obtain ⟨found, read, nothing⟩ := shared.nothing_new
    obtain rfl := Except.ok.inj (gainsSecond.read.symm.trans read)
    exact ⟨ofSample, shared.congr rfl (gainsSecond.kept nothing)⟩

end Scaffold.Tree
