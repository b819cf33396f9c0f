import Scaffold.Proofs.Merge.Payloads

/-!
# Objects merged into a file in turn

A sequence of objects is merged into one file (`Tree.mergePayloads`).  After the first object the file holds the
text of the merged object, and from then on the sequence acts on the object alone, as the deep merge of all
objects behind each other.  So merging the whole sequence once more leaves every file as it is, whatever the
objects overwrite in each other, unless the file held a lone half of a character that the first object left in it:
that merge fails with the file open, and empty (`mergePayloads_twice`).
-/

namespace Scaffold

open Json

namespace Tree

/-- Merges payloads into a file in turn, up to the first that fails. -/
def mergePayloads (tree : Tree) (path : Path) : List Payload → Except MergeFault Unit × Tree
  | [] => (.ok (), tree)
  | payload :: rest =>
    match tree.mergePayload path payload with
    | (.ok _, merged) => merged.mergePayloads path rest
    | (.error fault, left) => (.error fault, left)

/-- The file at a path has a lone half that is still there when the first payload, which has none, is merged into
it. -/
def LeavesHalf (tree : Tree) (path : Path) (payloads : List Payload) : Prop :=
  ∃ current, tree.HasObject path current ∧ ∃ payload ∈ payloads.head?, payload.IsObject path
    ∧ ∃ lone, (Value.mapping (deepMerge current (payload.entries path))).half? = some lone

variable {tree merged left : Tree} {path : Path} {location : Location} {payload : Payload}
  {entries current : Entries} {payloads : List Payload} {text : String}

/-- Objects that are merged into a file that holds one leave the text of all of them. -/
theorem Holds.mergePayloads (holds : tree.Holds path location text entries)
    (objects : ∀ other ∈ payload :: payloads, other.IsObject path) :
    ∃ merged : Tree, tree.mergePayloads path (payload :: payloads) = (.ok (), merged)
      ∧ merged.Holds path location
        (printed (deepMerge entries ((payload :: payloads).flatMap (Payload.entries path))))
        (deepMerge entries ((payload :: payloads).flatMap (Payload.entries path)))
      ∧ (merged = tree ∨ merged = tree.put location (.file
        (printed (deepMerge entries ((payload :: payloads).flatMap (Payload.entries path)))).toUTF8)) := by
  obtain ⟨here, others⟩ := List.forall_mem_cons.mp objects
  obtain ⟨changed, first, done, firstHolds, firstTree⟩ := holds.mergePayload here
  rw [List.flatMap_cons, deepMerge_append, Tree.mergePayloads, done]
  dsimp only
  induction payloads generalizing payload tree text entries changed first with
  | nil => exact ⟨first, rfl, firstHolds, firstTree⟩
  | cons next rest inductionHypothesis =>
      obtain ⟨hereNext, othersNext⟩ := List.forall_mem_cons.mp others
      obtain ⟨changedNext, second, doneNext, secondHolds, secondTree⟩ := firstHolds.mergePayload hereNext
      obtain ⟨merged, ran, mergedHolds, mergedTree⟩ := inductionHypothesis firstHolds others hereNext othersNext
        changedNext second doneNext secondHolds secondTree
      rw [List.flatMap_cons, deepMerge_append, Tree.mergePayloads, doneNext]
      refine ⟨merged, ran, mergedHolds, ?_⟩
      rcases mergedTree with rfl | rfl
      · rcases firstTree with rfl | same
        · exact .inl rfl
        · exact .inr (firstHolds.text_eq mergedHolds ▸ same)
      · rcases firstTree with rfl | rfl
        · exact .inr rfl
        · exact .inr (put_put _ _)

/-- Payloads behind others that were merged go on with what these left. -/
theorem mergePayloads_append {first second : List Payload}
    (done : tree.mergePayloads path first = (.ok (), merged)) :
    tree.mergePayloads path (first ++ second) = merged.mergePayloads path second := by
  induction first generalizing tree with
  | nil =>
      obtain rfl : tree = merged := (Prod.mk.inj done).2
      rfl
  | cons payload rest inductionHypothesis =>
      rw [List.cons_append, Tree.mergePayloads]
      rw [Tree.mergePayloads] at done
      split at done
      next next' ran => exact inductionHypothesis done
      next => cases done

/-- A payload that fails is the last one. -/
theorem mergePayloads_of_error {fault : MergeFault}
    (failed : tree.mergePayload path payload = (.error fault, left)) :
    tree.mergePayloads path (payload :: payloads) = (.error fault, left) := by
  rw [mergePayloads, failed]

/-- Payloads are objects up to the first that is none. -/
theorem exists_objects (path : Path) (payloads : List Payload) :
    ∃ objects others, payloads = objects ++ others ∧ (∀ payload ∈ objects, payload.IsObject path)
      ∧ ∀ payload ∈ others.head?, ¬payload.IsObject path := by
  induction payloads with
  | nil => exact ⟨[], [], rfl, nofun, nofun⟩
  | cons payload rest inductionHypothesis =>
      by_cases isObject : payload.IsObject path
      · obtain ⟨objects, others, rfl, all, ends⟩ := inductionHypothesis
        exact ⟨payload :: objects, others, rfl, List.forall_mem_cons.mpr ⟨isObject, all⟩, ends⟩
      · exact ⟨[], payload :: rest, rfl, nofun, by simpa using isObject⟩

/-- Objects whose first was merged into a tree are all merged, and merging them once more leaves the
tree. -/
theorem mergePayloads_objects {changed : Bool} (wellFormed : tree.WellFormed) (named : payload.Named)
    (has : tree.HasObject path current) (done : tree.mergePayload path payload = (.ok changed, merged))
    (objects : ∀ other ∈ payload :: payloads, other.IsObject path) :
    ∃ once location, tree.mergePayloads path (payload :: payloads) = (.ok (), once)
      ∧ once.mergePayloads path (payload :: payloads) = (.ok (), once)
      ∧ once.Holds path location
        (printed (deepMerge current ((payload :: payloads).flatMap (Payload.entries path))))
        (deepMerge current ((payload :: payloads).flatMap (Payload.entries path))) := by
  obtain ⟨here, others⟩ := List.forall_mem_cons.mp objects
  obtain ⟨location, mended, holdsMended, same, holds, written⟩ :=
    holds_of_mergePayload wellFormed named has here done
  rw [List.flatMap_cons, deepMerge_append, same, ← deepMerge_append, ← List.flatMap_cons]
  obtain ⟨once, first, onceHolds, onceTree⟩ : ∃ once : Tree,
      tree.mergePayloads path (payload :: payloads) = (.ok (), once)
        ∧ once.Holds path location
          (printed (deepMerge mended ((payload :: payloads).flatMap (Payload.entries path))))
          (deepMerge mended ((payload :: payloads).flatMap (Payload.entries path)))
        ∧ (once = tree ∨ ∃ base : Tree, once = base.put location (.file
          (printed (deepMerge mended ((payload :: payloads).flatMap (Payload.entries path)))).toUTF8)) := by
    rw [List.flatMap_cons, deepMerge_append, Tree.mergePayloads, done]
    cases payloads with
    | nil => exact ⟨merged, rfl, holds, written⟩
    | cons next rest =>
        obtain ⟨once, ran, onceHolds, onceTree⟩ := holds.mergePayloads others
        refine ⟨once, ran, onceHolds, ?_⟩
        rcases onceTree with rfl | isPut
        · exact written.imp_right (Exists.imp fun _ isPut => holds.text_eq onceHolds ▸ isPut)
        · exact .inr ⟨merged, isPut⟩
  -- The second pass starts from all objects merged, so it leaves them as they are.
  have lays : Entries.Lays IsPlain ((payload :: payloads).flatMap (Payload.entries path)) := by
    intro entry member
    obtain ⟨other, inside, member⟩ := List.mem_flatMap.mp member
    exact (objects other inside).entries.2.lays entry member
  obtain ⟨twice, again, _, twiceTree⟩ := onceHolds.mergePayloads objects
  rw [deepMerge_idempotent holdsMended lays] at twiceTree
  refine ⟨once, location, first, ?_, onceHolds⟩
  obtain rfl | rfl := twiceTree
  · exact again
  rcases onceTree with isTree | ⟨base, isPut⟩
  · rw [isTree] at first ⊢
    exact first
  · rw [again, isPut, put_put]

/-- Behind objects that are merged, torn payloads and such that are refused leave the same tree in every pass. -/
theorem mergePayloads_behind_objects {once : Tree} {other : Payload} {others : List Payload}
    (named : other.Named) (objects : ∀ object ∈ payload :: payloads, object.IsObject path)
    (noObject : ¬other.IsObject path) (holds : once.Holds path location text entries)
    (again : once.mergePayloads path (payload :: payloads) = (.ok (), once)) :
    ((once.mergePayloads path (other :: others)).2.mergePayloads path (payload :: payloads ++ other :: others)).2
      = (once.mergePayloads path (other :: others)).2 := by
  rcases named.cases.resolve_left noObject with torn | refused
  · obtain ⟨fault, spoiled⟩ := holds.exists_mergePayload holds.hasObject named torn
    rw [mergePayloads_of_error spoiled]
    dsimp only
    obtain ⟨third, ran, thirdHolds, thirdTree⟩ := holds.holds_empty.mergePayloads objects
    obtain ⟨_, spoiledAgain⟩ := thirdHolds.exists_mergePayload thirdHolds.hasObject named torn
    rw [mergePayloads_append ran, mergePayloads_of_error spoiledAgain]
    rcases thirdTree with rfl | rfl
    · exact put_put _ _
    · rw [put_put, put_put]
  · obtain ⟨fault, unchanged⟩ := exists_mergePayload_of_isRefused once named refused
    rw [mergePayloads_of_error unchanged, mergePayloads_append again, mergePayloads_of_error unchanged]

/-- A torn payload leaves a tree that it leaves again. -/
theorem mergePayloads_of_isTorn (wellFormed : tree.WellFormed) (has : tree.HasObject path current)
    (named : payload.Named) (torn : payload.IsTorn path) :
    ((tree.mergePayloads path (payload :: payloads)).2.mergePayloads path (payload :: payloads)).2
      = (tree.mergePayloads path (payload :: payloads)).2 := by
  obtain ⟨fault, spoiled⟩ := exists_mergePayload_of_isTorn has named torn
  cases opened : tree.writeBelow path "" with
  | mk answer left =>
      cases answer with
      | error error =>
          obtain ⟨again, failed⟩ := stuck_of_writeBelow wellFormed opened payload
          have first : tree.mergePayload path payload = (.error (.file error), left) := by
            rw [spoiled, spoil, opened]
          rw [mergePayloads_of_error first, mergePayloads_of_error failed]
      | ok done =>
          obtain ⟨base, location, isPut, located, file, stillFormed⟩ := wellFormed.writeBelow opened
          have first : tree.mergePayload path payload = (.error fault, left) := by
            rw [spoiled, spoil, opened]
          have stands : left.StandsAt path location := ⟨stillFormed, located, _, file⟩
          have hasLeft : left.HasObject path [] :=
            ⟨some "", existingText_of_file located file (by decide), rfl⟩
          obtain ⟨again, failed⟩ := stands.exists_mergePayload hasLeft named torn
          rw [mergePayloads_of_error first, mergePayloads_of_error failed]
          rw [isPut]
          exact put_put _ _

/-- An object that could not be merged, though no lone half is left, cannot be merged into what is left either: the
file could not be saved. -/
theorem exists_mergePayload_again {fault : MergeFault} (wellFormed : tree.WellFormed) (named : payload.Named)
    (has : tree.HasObject path current) (isObject : payload.IsObject path)
    (whole : (Value.mapping (deepMerge current (payload.entries path))).half? = none)
    (failed : tree.mergePayload path payload = (.error fault, left)) :
    ∃ again, left.mergePayload path payload = (.error again, left) := by
  obtain ⟨isEntries, document⟩ := isObject.entries
  have writable := (Partwise.writeFault false).deepMerge has.isReading.writeFault? (named.keyed isEntries)
    (writeFault?_of_isDocument document)
  obtain ⟨existing, found, read⟩ := has
  have settled := (mergePayload_of_hasForm found read isEntries ⟨writable, whole⟩).symm.trans failed
  rcases settle_cases tree path existing (printed (deepMerge current (payload.entries path))) with
    ⟨_, kept⟩ | ⟨_, _, rewritten⟩ | ⟨error, grown, refused, same⟩
  · cases kept.symm.trans settled
  · cases rewritten.symm.trans settled
  · obtain rfl : grown = left := (Prod.mk.inj (same.symm.trans settled)).2
    exact stuck_of_writeBelow wellFormed refused payload

/-- Unless the first object leaves a lone half of the file, a second pass leaves the tree. -/
theorem mergePayloads_mergePayloads (wellFormed : tree.WellFormed) (named : ∀ payload ∈ payloads, payload.Named)
    (whole : ¬tree.LeavesHalf path payloads) :
    ((tree.mergePayloads path payloads).2.mergePayloads path payloads).2
      = (tree.mergePayloads path payloads).2 := by
  cases payloads with
  | nil => rfl
  | cons payload rest =>
      have headNamed := named payload List.mem_cons_self
      by_cases has : ∃ current, tree.HasObject path current
      · obtain ⟨current, has⟩ := has
        rcases headNamed.cases with isObject | torn | refused
        · cases done : tree.mergePayload path payload with
          | mk answer merged =>
              cases answer with
              | ok changed =>
                  obtain ⟨objects, others, rfl, all, ends⟩ := exists_objects path rest
                  have objectsToo := List.forall_mem_cons.mpr ⟨isObject, all⟩
                  obtain ⟨once, location, first, again, holds⟩ :=
                    mergePayloads_objects wellFormed headNamed has done objectsToo
                  rw [← List.cons_append, mergePayloads_append first]
                  cases others with
                  | nil => rw [List.append_nil]; exact congrArg Prod.snd again
                  | cons other others =>
                      exact mergePayloads_behind_objects (named other (by simp)) objectsToo (ends other rfl)
                        holds again
              | error fault =>
                  have plain : (Value.mapping (deepMerge current (payload.entries path))).half? = none :=
                    Option.eq_none_iff_forall_ne_some.mpr fun lone half =>
                      whole ⟨current, has, payload, rfl, isObject, lone, half⟩
                  obtain ⟨again, failed⟩ := exists_mergePayload_again wellFormed headNamed has isObject plain done
                  rw [mergePayloads_of_error done, mergePayloads_of_error failed]
        · exact mergePayloads_of_isTorn wellFormed has headNamed torn
        · obtain ⟨fault, unchanged⟩ := exists_mergePayload_of_isRefused tree headNamed refused
          rw [mergePayloads_of_error unchanged, mergePayloads_of_error unchanged]
      · obtain ⟨fault, unchanged⟩ := exists_mergePayload_of_not_hasObject (not_exists.mp has) payload
        rw [mergePayloads_of_error unchanged, mergePayloads_of_error unchanged]

/-- An object is merged where a file can be saved and no lone half is left. -/
theorem mergePayload_of_hasObject (has : tree.HasObject path current) (writable : tree.IsWritable path)
    (named : payload.Named) (isObject : payload.IsObject path)
    (whole : (Value.mapping (deepMerge current (payload.entries path))).half? = none) :
    ∃ changed merged, tree.mergePayload path payload = (.ok changed, merged) := by
  obtain ⟨isEntries, document⟩ := isObject.entries
  have form : HasForm false (.mapping (deepMerge current (payload.entries path))) :=
    ⟨(Partwise.writeFault false).deepMerge has.isReading.writeFault? (named.keyed isEntries)
      (writeFault?_of_isDocument document), whole⟩
  obtain ⟨existing, found, read⟩ := has
  obtain ⟨changed, merged, done⟩ :=
    exists_settle_eq_ok writable existing (some (printed (deepMerge current (payload.entries path))))
  exact ⟨changed, merged, (mergePayload_of_hasForm found read isEntries form).trans done⟩

/-- Where the first object leaves a lone half of the file, it leaves the file empty, and the second pass merges
all objects into the empty file. -/
theorem mergePayloads_of_leavesHalf (wellFormed : tree.WellFormed) (named : ∀ payload ∈ payloads, payload.Named)
    (objects : ∀ payload ∈ payloads, payload.IsObject path) (leaves : tree.LeavesHalf path payloads) :
    (∃ fault, (tree.mergePayloads path payloads).1 = .error fault ∧ fault.isLate)
      ∧ (tree.mergePayloads path payloads).2.existingText path = .ok (some "")
      ∧ ((tree.mergePayloads path payloads).2.mergePayloads path payloads).2.existingText path
        = .ok (some (printed (deepMerge [] (payloads.flatMap (Payload.entries path))))) := by
  obtain ⟨current, has, payload, head, isObject, lone, half⟩ := leaves
  obtain ⟨rest, rfl⟩ : ∃ rest, payloads = payload :: rest := by
    cases payloads with
    | nil => cases head
    | cons first rest =>
        obtain rfl := Option.some.inj head
        exact ⟨rest, rfl⟩
  obtain ⟨isEntries, document⟩ := isObject.entries
  obtain ⟨fault, isLate, spoiled⟩ := exists_mergePayload_eq_spoil has (named payload List.mem_cons_self) isEntries
    (writeFault?_of_isDocument document) half
  obtain ⟨existing, found, read⟩ := has
  cases existing with
  | none =>
      -- Nothing is left of a file that is not there.
      obtain rfl : [] = current := Except.ok.inj read
      rw [half?_of_isDocument (document.lays.deepMerge (Value.consists_empty _))] at half
      cases half
  | some text =>
      obtain ⟨location, stands⟩ := exists_standsAt wellFormed found
      have failed : tree.mergePayload path payload = (.error fault, tree.put location (.file "".toUTF8)) := by
        rw [spoiled, spoil, stands.writeBelow]
      obtain ⟨twice, ran, holds, _⟩ := stands.holds_empty.mergePayloads objects
      rw [mergePayloads_of_error failed, ran]
      exact ⟨⟨fault, rfl, isLate⟩, stands.holds_empty.found, holds.found⟩

/-- Merging a sequence of payloads into a file once more leaves the whole tree as it is, whatever the file
holds and wherever the first pass ended, unless the file has a lone half that the first object leaves in it.  In
that case a sequence of objects fails with the file open, and empty, and the second pass writes all objects into
it.  Else, where the file is absent, blank or holds an object, and can be saved, objects are merged to the last
one in both passes, and the file holds the deep merge of all of them. -/
theorem mergePayloads_twice (path : Path) (wellFormed : tree.WellFormed)
    (named : ∀ payload ∈ payloads, payload.Named) :
    (¬tree.LeavesHalf path payloads →
        ((tree.mergePayloads path payloads).2.mergePayloads path payloads).2
          = (tree.mergePayloads path payloads).2)
      ∧ ((∀ payload ∈ payloads, payload.IsObject path) →
        (tree.LeavesHalf path payloads →
          (∃ fault, (tree.mergePayloads path payloads).1 = .error fault ∧ fault.isLate)
            ∧ (tree.mergePayloads path payloads).2.existingText path = .ok (some "")
            ∧ ((tree.mergePayloads path payloads).2.mergePayloads path payloads).2.existingText path
              = .ok (some (printed (deepMerge [] (payloads.flatMap (Payload.entries path))))))
        ∧ ∀ current, tree.HasObject path current → tree.IsWritable path → ¬tree.LeavesHalf path payloads →
          (tree.mergePayloads path payloads).1 = .ok ()
            ∧ ((tree.mergePayloads path payloads).2.mergePayloads path payloads).1 = .ok ()
            ∧ (payloads ≠ [] → (tree.mergePayloads path payloads).2.existingText path
              = .ok (some (printed (deepMerge current (payloads.flatMap (Payload.entries path))))))) := by
  refine ⟨mergePayloads_mergePayloads wellFormed named, fun objects =>
    ⟨mergePayloads_of_leavesHalf wellFormed named objects, fun current has writable whole => ?_⟩⟩
  cases payloads with
  | nil => exact ⟨rfl, rfl, fun nonempty => absurd rfl nonempty⟩
  | cons payload rest =>
      have headNamed := named payload List.mem_cons_self
      have isObject := objects payload List.mem_cons_self
      have left : (Value.mapping (deepMerge current (payload.entries path))).half? = none :=
        Option.eq_none_iff_forall_ne_some.mpr fun lone half =>
          whole ⟨current, has, payload, rfl, isObject, lone, half⟩
      obtain ⟨changed, merged, done⟩ := mergePayload_of_hasObject has writable headNamed isObject left
      obtain ⟨once, location, first, again, holds⟩ :=
        mergePayloads_objects wellFormed headNamed has done objects
      rw [first]
      exact ⟨rfl, by rw [again], fun _ => holds.found⟩

/-- A tree without any file. -/
def blank : Tree := ⟨[], []⟩

/-- The file of a package. -/
def manifest : Path := ⟨.relative, ["package.json"]⟩

/-- Objects that overwrite an object with a text, and that with an object again. -/
def flips : List Payload :=
  [.data [(.text "a", .mapping [(.text "b", .null)])], .data [(.text "a", .text "b")],
   .data [(.text "a", .mapping [(.text "c", .bool true)])]]

/-- Nothing stands in the tree without any file. -/
theorem node?_blank {location : Location} (nonempty : location ≠ []) : blank.node? location = none :=
  node?_of_ne nonempty

/-- A manifest can be made in the tree without any file. -/
theorem locate_manifest : blank.locate true manifest = .ok ["package.json"] := by
  rw [locate_eq_ok_iff]
  exact ⟨by decide, by decide, .missing rfl (by decide) (by decide) rfl⟩

/-- Objects that contradict each other are merged into a new file, and once more into that file. -/
theorem mergePayloads_twice_flips :
    blank.WellFormed ∧ (∀ payload ∈ flips, payload.Named) ∧ blank.HasObject manifest []
      ∧ blank.IsWritable manifest ∧ (∀ payload ∈ flips, payload.IsObject manifest)
      ∧ ¬blank.LeavesHalf manifest flips ∧ ∃ once : Tree, blank.mergePayloads manifest flips = (.ok (), once)
        ∧ once.mergePayloads manifest flips = (.ok (), once)
        ∧ once.existingText manifest
          = .ok (some (printed [(.text "a", .mapping [(.text "c", .bool true)])])) := by
  have wellFormed : blank.WellFormed :=
    ⟨rfl, fun present => by rw [node?_blank (by simp)] at present; cases present⟩
  have single : ∀ {value : Value} (name : String), IsDocument value →
      IsDocument (.mapping [(.text name, value)]) :=
    fun _ document => (Value.consists_empty IsPlain).insert document
  have objects : ∀ payload ∈ flips, payload.IsObject manifest := by
    simp only [flips, List.forall_mem_cons]
    exact ⟨⟨_, rfl, single "a" (single "b" (.scalar trivial))⟩, ⟨_, rfl, single "a" (.scalar trivial)⟩,
      ⟨_, rfl, single "a" (single "c" (.scalar trivial))⟩, nofun⟩
  have named : ∀ payload ∈ flips, payload.Named := by
    intro payload member
    obtain ⟨object, same, document⟩ := objects payload member
    cases payload with
    | content text => trivial
    | data entries => exact (Except.ok.inj same ▸ document).mono fun _ _ => trivial
  have has : blank.HasObject manifest [] := by
    refine ⟨none, ?_, rfl⟩
    have missing : blank.look manifest = .error .notFound := by
      rw [look, locate_manifest]
      rfl
    rw [existingText, isFile, test, missing]
    rfl
  have writable : blank.IsWritable manifest := by
    have parent : blank.look manifest.parent = .ok .folder :=
      look_eq_ok_iff.mpr ⟨[], locate_eq_ok_iff.mpr ⟨by decide, by decide, .arrive⟩, rfl⟩
    refine ⟨blank, makeFolders_of_look parent, fun content =>
      ⟨blank.put ["package.json"] (.file content), ?_⟩⟩
    rw [write, locate_manifest]
    rfl
  have whole : ¬blank.LeavesHalf manifest flips := by
    rintro ⟨current, hasCurrent, payload, head, _, lone, half⟩
    obtain rfl := has.unique hasCurrent
    obtain rfl := Option.some.inj head
    cases half
  obtain ⟨stable, succeeds⟩ := mergePayloads_twice manifest wellFormed named
  obtain ⟨first, again, text⟩ := (succeeds objects).2 [] has writable whole
  have stable := stable whole
  have merged : deepMerge [] (flips.flatMap (Payload.entries manifest))
      = [(.text "a", .mapping [(.text "c", .bool true)])] := by rfl
  exact ⟨wellFormed, named, has, writable, objects, whole, _, Prod.ext first rfl, Prod.ext again stable,
    merged ▸ text (List.cons_ne_nil _ _)⟩

/-- A tree with one file, a manifest. -/
def manifested (text : String) : Tree := ⟨[(["package.json"], .file text.toUTF8)], []⟩

/-- A manifest stands in its tree. -/
theorem standsAt_manifested (text : String) : (manifested text).StandsAt manifest ["package.json"] :=
  ⟨wellFormed_of_nodes rfl (by simp [manifested, node?]),
    locate_eq_ok_iff.mpr ⟨by decide, by decide,
      .down rfl (by decide) (by decide) rfl (fun _ => Node.noConfusion) .arrive⟩, _, rfl⟩

/-- An object is merged into a file with a lone half twice: the first pass leaves the file empty, and the second
one writes the object. -/
theorem mergePayloads_twice_torn :
    (manifested tornText).WellFormed ∧ (manifested tornText).HasObject manifest tornObject
      ∧ Payload.IsObject manifest (.data [(.text "b", .int 1)])
      ∧ ((manifested tornText).mergePayloads manifest [.data [(.text "b", .int 1)]]).2.existingText manifest
        = .ok (some "")
      ∧ (((manifested tornText).mergePayloads manifest [.data [(.text "b", .int 1)]]).2.mergePayloads manifest
          [.data [(.text "b", .int 1)]]).2.existingText manifest
        = .ok (some (printed [(.text "b", .int 1)])) := by
  have stands := standsAt_manifested tornText
  have document : IsDocument (.mapping [(.text "b", .int 1)]) :=
    (Value.consists_empty IsPlain).insert (.scalar (isLong_eq_false_iff.mpr (by decide +kernel)))
  have isObject : Payload.IsObject manifest (.data [(.text "b", .int 1)]) := ⟨_, rfl, document⟩
  have has : (manifested tornText).HasObject manifest tornObject :=
    ⟨some tornText, existingText_of_file stands.located rfl (by decide), parseStructured_tornText⟩
  have leaves : (manifested tornText).LeavesHalf manifest [.data [(.text "b", .int 1)]] :=
    ⟨tornObject, has, _, rfl, isObject, loneHalf, rfl⟩
  have named : Payload.Named (.data [(.text "b", .int 1)]) := document.mono fun _ _ => trivial
  obtain ⟨_, once, twice⟩ := mergePayloads_of_leavesHalf stands.wellFormed
    (List.forall_mem_singleton.mpr named) (List.forall_mem_singleton.mpr isObject) leaves
  exact ⟨stands.wellFormed, has, isObject, once, twice⟩

end Tree

end Scaffold
