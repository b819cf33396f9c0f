import Scaffold.Proofs.Computation
import Scaffold.Proofs.Merge.Revision
import Scaffold.Proofs.Merge.Spelling

/-!
# A mapping that is merged into a file once more

The file stores the texts of the keys that are merged into it.  So merging the same mapping once more leaves
the file, with no name twice in an object, just if the keys of the mapping are written differently and the
deep merge meets texts only (`mergeData_repeats_iff`).
-/

namespace Scaffold

open Json

/-- The text of an object has no object with two members of one name just if the object is written apart. -/
theorem namesApart_printed {entries : Entries} (free : writeFaultEntries? true entries = none) :
    NamesApart (printed entries) ↔ (Value.mapping entries).SpeltApart := by
  have representable : writeFault? true (.mapping entries) = none := free
  have text : printed entries = String.ofList (print .tree 0 (.mapping entries) ++ ['\n']) := by
    simp [printed, String.ofList_append]
  rw [text, namesApart_print separates_tree representable (List.forall_mem_singleton.mpr rfl)]

namespace Tree

variable {tree after : Tree} {path : Path} {data entries current : Entries} {mode : MergeMode}
  {modeName text : String} {changed : Bool} {existing : Option String}

/-- A path leads to a file in whose text no object has two members of one name. -/
def NamesApart (tree : Tree) (path : Path) : Prop :=
  ∃ text, tree.existingText path = .ok (some text) ∧ Json.NamesApart text

/-- After a merge settled on a text with unified line ends, the file is read as that text. -/
theorem Settled.existingText (settled : Settled tree path existing (some text) changed after)
    (found : tree.existingText path = .ok existing) (plain : '\r' ∉ text.toList) :
    after.existingText path = .ok (some text) := by
  cases settled with
  | kept same => rw [found, same text rfl]
  | written _ _ holds => rw [existingText_of_bytes holds, Text.unified_of_notMem plain]

/-- A tree stays well-formed when a merge settles on a text. -/
theorem Settled.wellFormed {wanted : Option String} (settled : Settled tree path existing wanted changed after)
    (wellFormed : tree.WellFormed) : after.WellFormed := by
  cases settled with
  | kept _ => exact wellFormed
  | written _ stillFormed _ => exact stillFormed

/-- A mapping is combined with the object of a file and settled with the text of both, if that has a form. -/
theorem mergeData_of_object (found : tree.existingText path = .ok existing)
    (read : parseStructured (existing.getD "") = .ok current)
    (form : HasForm false (.mapping (mode.combine current data))) :
    tree.mergeData path data mode.name
      = tree.settle path existing (some (printed (mode.combine current data))) := by
  simp only [mergeData, revise, found, mergedData?_name read, dumpMerged_of_hasForm form]
  rfl

/-- A mapping that was merged into a file was combined with its object, and the file has the text of both. -/
theorem exists_of_mergeData (wellFormed : tree.WellFormed)
    (done : tree.mergeData path data modeName = (.ok changed, after)) :
    ∃ (mode : MergeMode) (current : Entries), modeName = mode.name ∧ tree.HasObject path current
      ∧ HasForm false (.mapping (mode.combine current data)) ∧ after.WellFormed
      ∧ after.existingText path = .ok (some (printed (mode.combine current data))) := by
  obtain ⟨existing, wanted, found, ruled, settled⟩ := settled_of_revise wellFormed done
  obtain ⟨mode, current, rfl, read, form, rfl⟩ := mergedData?_eq_ok_iff.mp ruled
  exact ⟨mode, current, rfl, ⟨existing, found, read⟩, form, settled.wellFormed wellFormed,
    settled.existingText found (notMem_printed _)⟩

/-- A file with the text of an object holds it as it settles. -/
theorem hasObject_of_printed (found : tree.existingText path = .ok (some (printed entries)))
    (free : writeFaultEntries? true entries = none) :
    tree.HasObject path (Entries.ofPairs (settledEntries entries)) :=
  ⟨_, found, parseStructured_printed_settled free⟩

/-- A mapping that was merged into a file is merged once more without any change, and leaves no object with
two members of one name, just if its keys are written differently at every depth and, in the deep mode, are
texts wherever the merge goes. -/
theorem mergeData_repeats_iff (wellFormed : tree.WellFormed) (named : data.Named)
    (keyed : (Value.mapping data).Keyed) (done : tree.mergeData path data modeName = (.ok changed, after)) :
    (after.NamesApart path ∧ after.mergeData path data modeName = (.ok false, after))
      ↔ (Value.mapping data).SpeltApart
        ∧ (modeName = MergeMode.deep.name → (Value.mapping data).TextKeyed) := by
  obtain ⟨mode, torn, rfl, has, form, stillFormed, text⟩ := exists_of_mergeData wellFormed done
  -- Lone halves that were in the file have been overwritten.
  obtain ⟨current, read, same⟩ := MergeMode.exists_mended has.isReading keyed form.whole
  rw [same] at form text
  have lax := writeFaultEntries?_of_strict _ form.writable
  have reread := hasObject_of_printed text lax
  have names : after.NamesApart path ↔ (Value.mapping (mode.combine current data)).SpeltApart := by
    rw [← namesApart_printed lax]
    refine ⟨fun ⟨other, found, apart⟩ => ?_, fun apart => ⟨_, text, apart⟩⟩
    rwa [Option.some.inj (Except.ok.inj (text.symm.trans found))]
  have goesByTexts : (mode.name = MergeMode.deep.name → (Value.mapping data).TextKeyed)
      ↔ mode.GoesByTexts data := by
    cases mode <;> simp [MergeMode.GoesByTexts, MergeMode.name]
  rw [names, goesByTexts]
  constructor
  · rintro ⟨apart, again⟩
    -- The second merge wrote the same text, in which no name stands twice.
    obtain ⟨other, below, sameName, hasBelow, formAgain, -, textAgain⟩ :=
      exists_of_mergeData stillFormed again
    obtain rfl : mode = other := by
      have same := MergeMode.ofName?_name mode
      rw [sameName, MergeMode.ofName?_name] at same
      exact (Option.some.inj same).symm
    obtain rfl := reread.unique hasBelow
    have sameText := Option.some.inj (Except.ok.inj (text.symm.trans textAgain))
    have apartAgain := (namesApart_printed lax).mpr apart
    rw [sameText, namesApart_printed (writeFaultEntries?_of_strict _ formAgain.writable)] at apartAgain
    have texts := MergeMode.goesByTexts_of_reread read keyed apartAgain
    exact ⟨(MergeMode.speltApart_combine read named texts).mp apart, texts⟩
  · rintro ⟨apart, texts⟩
    refine ⟨(MergeMode.speltApart_combine read named texts).mpr apart, ?_⟩
    have reread := MergeMode.combine_reread read named texts
    rw [mergeData_of_object text (parseStructured_printed_settled lax) (by rwa [reread]), reread, settle]
    simp

/-- A mapping that is merged into the page is written to it unless the page has the text of both already. -/
theorem mergeData_page (read : parseStructured (Text.unified text) = .ok current)
    (form : HasForm false (.mapping (mode.combine current data))) :
    (paged text).mergeData page data mode.name =
      if Text.unified text = printed (mode.combine current data) then (.ok false, paged text)
      else (.ok true, paged (printed (mode.combine current data))) := by
  have found := existingText_of_bytes (bytes?_page text)
  have saves : (paged text).writeBelow page (printed (mode.combine current data))
      = (.ok (), paged (printed (mode.combine current data))) :=
    (wellFormed_paged text).writeBelow_of_file (locate_page text) rfl _
  rw [mergeData_of_object found read form]
  simp [settle, saves]

/-- The servers of ports, under any keys. -/
def portsOf (keys : List Scalar) : Entries :=
  [(.text "ports", .mapping (keys.map fun key => (key, .text "web")))]

/-- Such an object has one name, and is a dictionary if its one port has any key. -/
theorem named_portsOf (keys : List Scalar) : (portsOf keys).Named := ⟨by simp [portsOf], by simp [portsOf]⟩

theorem keyed_portsOf (key : Scalar) : (Value.mapping (portsOf [key])).Keyed :=
  .mapping (List.pairwise_singleton _ _) (List.forall_mem_singleton.mpr
    (.mapping (List.pairwise_singleton _ _) (List.forall_mem_singleton.mpr .scalar)))

/-- A port is merged into a blank page. -/
theorem mergeData_portsOf (key : Scalar) (form : HasForm false (.mapping (portsOf [key])))
    (differs : "" ≠ printed (portsOf [key])) :
    (paged "").mergeData page (portsOf [key]) "deep-merge" = (.ok true, paged (printed (portsOf [key]))) := by
  have read : parseStructured (Text.unified "") = .ok [] := rfl
  have combined : MergeMode.deep.combine [] (portsOf [key]) = portsOf [key] := rfl
  have merged := mergeData_page read (combined ▸ form)
  exact merged.trans (if_neg differs)

/-- A port that is a text is merged into a blank page, and once more without any change. -/
theorem mergeData_repeats_text :
    (portsOf [.text "80"]).Named ∧ (Value.mapping (portsOf [.text "80"])).Keyed
      ∧ ∃ after : Tree, (paged "").mergeData page (portsOf [.text "80"]) "deep-merge" = (.ok true, after)
        ∧ after.NamesApart page
        ∧ after.mergeData page (portsOf [.text "80"]) "deep-merge" = (.ok false, after) := by
  have named := named_portsOf [.text "80"]
  have inner : Entries.Named [(.text "80", .text "web")] := ⟨by simp, by simp⟩
  have texts : (Value.mapping (portsOf [.text "80"])).TextKeyed :=
    .mapping named (List.forall_mem_singleton.mpr
      (.mapping inner (List.forall_mem_singleton.mpr (.leaf nofun))))
  have apart : (Value.mapping (portsOf [.text "80"])).SpeltApart :=
    .mapping named.nodup_keyText (List.forall_mem_singleton.mpr
      (.mapping inner.nodup_keyText (List.forall_mem_singleton.mpr .scalar)))
  have done := mergeData_portsOf (.text "80") ⟨by decide, rfl⟩ (by decide)
  obtain ⟨names, again⟩ := (mergeData_repeats_iff (wellFormed_paged "") named (keyed_portsOf _) done).mpr
    ⟨apart, fun _ => texts⟩
  exact ⟨named, keyed_portsOf _, _, done, names, again⟩

/-- A port that is a number is merged into a blank page, and once more beside its own text. -/
theorem mergeData_repeats_number :
    (portsOf [.int 80]).Named ∧ (Value.mapping (portsOf [.int 80])).Keyed
      ∧ ∃ once twice : Tree, (paged "").mergeData page (portsOf [.int 80]) "deep-merge" = (.ok true, once)
        ∧ once.mergeData page (portsOf [.int 80]) "deep-merge" = (.ok true, twice)
        ∧ ¬twice.NamesApart page := by
  have first := mergeData_portsOf (.int 80) ⟨by decide +kernel, rfl⟩ (by decide)
  have read : parseStructured (Text.unified (printed (portsOf [.int 80])))
      = .ok (portsOf [.text "80"]) := by
    rw [Text.unified_of_notMem (notMem_printed _), parseStructured_printed_settled (by decide +kernel)]
    rfl
  have form : HasForm false (.mapping (MergeMode.deep.combine (portsOf [.text "80"]) (portsOf [.int 80]))) :=
    ⟨by decide +kernel, rfl⟩
  have second : (paged (printed (portsOf [.int 80]))).mergeData page (portsOf [.int 80]) "deep-merge"
      = (.ok true, paged (printed (portsOf [.text "80", .int 80]))) :=
    (mergeData_page read form).trans (if_neg (by decide))
  refine ⟨named_portsOf _, keyed_portsOf _, _, _, first, second, fun ⟨text, found, apart⟩ => ?_⟩
  have stored := existingText_of_bytes (bytes?_page (printed (portsOf [.text "80", .int 80])))
  rw [Text.unified_of_notMem (notMem_printed _)] at stored
  obtain rfl := Option.some.inj (Except.ok.inj (stored.symm.trans found))
  rw [namesApart_printed (by decide +kernel), speltApart_mapping] at apart
  have inside := (speltApart_mapping.mp (apart.2 _ List.mem_cons_self)).1
  exact absurd inside (by decide)

end Tree

end Scaffold
