import Scaffold.Merge.Apply
import Scaffold.Proofs.Tree.Writing

/-!
# What happens to files

A merge makes the folders above its target first and writes at most one file after that.  So it changes no
file but the one that its path leads to (`revises_revise`).  One that fails (`revise_eq_error_iff`) adds folders
and nothing else, unless its fault shows only when the file is open (`addsFolders_or_empties_of_revise`).
-/

namespace Scaffold.Tree

/-- The content of the file at a location; none if no file stands there. -/
def file? (tree : Tree) (location : Location) : Option ByteArray :=
  match tree.node? location with
  | some (.file content) => some content
  | _ => none

/-- Two trees have the same files, each with the same content. -/
def SameFiles (before after : Tree) : Prop := ∀ location, after.file? location = before.file? location

/-- Paths take the same way in two trees: they start at the same location and meet the same links. -/
structure SameLinks (before after : Tree) : Prop where
  home : after.home = before.home
  link : ∀ location target,
    after.node? location = some (.link target) ↔ before.node? location = some (.link target)

/-- Folders were added to a tree where nothing stood, and nothing else happened to it. -/
structure AddsFolders (before after : Tree) : Prop where
  home : after.home = before.home
  node : ∀ location, after.node? location = before.node? location
    ∨ before.node? location = none ∧ after.node? location = some .folder

/-- A change of the file at a path: folders are added, and then the file is written or not. -/
inductive Revises (tree : Tree) (path : Path) : Tree → Prop where
  | kept {after} (adds : AddsFolders tree after) : Revises tree path after
  | written {grown location content} (adds : AddsFolders tree grown)
      (located : grown.locate true path = .ok location) (noFolder : grown.node? location ≠ some .folder) :
      Revises tree path (grown.put location (.file content))

/-- A fault that shows only when the file is open left a tree: the file is empty. -/
structure Empties (tree : Tree) (path : Path) (fault : MergeFault) (left : Tree) : Prop where
  isLate : fault.isLate
  opened : tree.writeBelow path "" = (.ok (), left)

/-- How a rule for the text of a file fails: nothing was written, and folders were made only if the new text
was about to be saved; or the file was opened for a text that cannot be encoded. -/
inductive Fails (tree : Tree) (path : Path) (rule : Option String → Except MergeFault (Option String)) :
    MergeFault → Tree → Prop where
  | unread {fault : MergeFault} (unread : tree.existingText path = .error fault) :
      Fails tree path rule fault tree
  | refused {existing : Option String} {fault : MergeFault} (found : tree.existingText path = .ok existing)
      (refused : rule existing = .error fault) (early : ¬fault.isLate) : Fails tree path rule fault tree
  | unsaved {existing : Option String} {text : String} {error : FileError} {left : Tree}
      (found : tree.existingText path = .ok existing) (ruled : rule existing = .ok (some text))
      (differs : existing ≠ some text) (unsaved : tree.writeBelow path text = (.error error, left)) :
      Fails tree path rule (.file error) left
  | unopened {existing : Option String} {fault : MergeFault} {error : FileError} {left : Tree}
      (found : tree.existingText path = .ok existing) (refused : rule existing = .error fault)
      (late : fault.isLate) (unopened : tree.writeBelow path "" = (.error error, left)) :
      Fails tree path rule (.file error) left
  | emptied {existing : Option String} {fault : MergeFault} {left : Tree}
      (found : tree.existingText path = .ok existing) (refused : rule existing = .error fault)
      (empties : Empties tree path fault left) : Fails tree path rule fault left

variable {tree before between after grown written left : Tree} {path : Path} {location other : Location}
  {content : ByteArray} {text : String}

theorem SameLinks.refl (tree : Tree) : SameLinks tree tree := ⟨rfl, fun _ _ => Iff.rfl⟩

theorem SameLinks.trans (first : SameLinks before between) (second : SameLinks between after) :
    SameLinks before after :=
  ⟨second.home.trans first.home, fun location target =>
    (second.link location target).trans (first.link location target)⟩

theorem AddsFolders.refl (tree : Tree) : AddsFolders tree tree := ⟨rfl, fun _ => .inl rfl⟩

theorem AddsFolders.trans (first : AddsFolders before between) (second : AddsFolders between after) :
    AddsFolders before after := by
  refine ⟨second.home.trans first.home, fun location => ?_⟩
  rcases second.node location with same | ⟨none, folder⟩
  · rw [same]
    exact first.node location
  · rcases first.node location with same | ⟨_, stands⟩
    · exact .inr ⟨same ▸ none, folder⟩
    · rw [none] at stands
      cases stands

/-- Where folders are added every node stays. -/
theorem AddsFolders.node?_of_some {node : Node} (adds : AddsFolders before after)
    (present : before.node? location = some node) : after.node? location = some node := by
  rcases adds.node location with same | ⟨none, _⟩
  · rw [same, present]
  · rw [none] at present
    cases present

/-- Where folders are added no file changes. -/
theorem AddsFolders.sameFiles (adds : AddsFolders before after) : SameFiles before after := by
  intro location
  rcases adds.node location with same | ⟨none, folder⟩
  · rw [file?, file?, same]
  · rw [file?, file?, none, folder]

/-- Where folders are added no link changes. -/
theorem AddsFolders.sameLinks (adds : AddsFolders before after) : SameLinks before after := by
  refine ⟨adds.home, fun location target => ?_⟩
  rcases adds.node location with same | ⟨none, folder⟩
  · rw [same]
  · simp [none, folder]

/-- What stands at a location is one of the nodes of the tree. -/
theorem mem_nodes {node : Node} (nonempty : location ≠ []) (present : tree.node? location = some node) :
    (location, node) ∈ tree.nodes := by
  rw [node?_of_ne nonempty] at present
  obtain ⟨entry, found, rfl⟩ := Option.map_eq_some_iff.mp present
  obtain rfl : entry.1 = location := by simpa using List.find?_some found
  exact List.mem_of_find?_eq_some found

/-- Every node of a tree stands in a folder if those that are listed do. -/
theorem wellFormed_of_nodes (home : tree.node? tree.home = some .folder)
    (above : ∀ entry ∈ tree.nodes, tree.node? entry.1.dropLast = some .folder) : tree.WellFormed := by
  refine ⟨home, fun {folder name node} present => ?_⟩
  have inside := above _ (mem_nodes (by simp) present)
  rwa [List.dropLast_concat] at inside

/-- Putting a node at a location leaves the files elsewhere. -/
theorem file?_put_of_ne {node : Node} (differ : other ≠ location) :
    (tree.put location node).file? other = tree.file? other := by
  rw [file?, file?, node?_put_of_ne differ]

/-- A file that was put at a location is found there. -/
theorem file?_put_self (nonempty : location ≠ []) :
    (tree.put location (.file content)).file? location = some content := by
  rw [file?, node?_put_self nonempty]

/-- Writing a file in a place that is no link leaves all links. -/
theorem sameLinks_put (unlinked : ∀ target, tree.node? location ≠ some (.link target)) :
    SameLinks tree (tree.put location (.file content)) := by
  refine ⟨home_put, fun other target => ?_⟩
  by_cases here : other = location
  · subst here
    by_cases root : other = []
    · subst root
      exact ⟨nofun, nofun⟩
    · rw [node?_put_self root]
      exact ⟨nofun, fun linked => absurd linked (unlinked target)⟩
  · rw [node?_put_of_ne here]

/-! ## Making folders -/

/-- Making a folder adds it. -/
theorem addsFolders_of_makeFolder (made : tree.makeFolder path = .ok grown) : AddsFolders tree grown := by
  unfold makeFolder at made
  split at made
  next => cases made
  next location located =>
    split at made
    next => cases made
    next free =>
      obtain rfl := Except.ok.inj made
      have nonempty : location ≠ [] := by
        rintro rfl
        cases free
      refine ⟨home_put, fun other => ?_⟩
      by_cases here : other = location
      · subst here
        exact .inr ⟨free, node?_put_self nonempty⟩
      · exact .inl (node?_put_of_ne here)

/-- Making folders adds folders, whether all of them can be made or not. -/
theorem addsFolders_makeFolders (tree : Tree) (path : Path) :
    AddsFolders tree (tree.makeFolders path).2 := by
  fun_induction Tree.makeFolders tree path with
  | case1 path grown made => exact addsFolders_of_makeFolder made
  | case2 => exact .refl tree
  | case3 => exact .refl tree
  | case4 path error failed missing nonempty inner grown ended inductionHypothesis =>
      rw [ended] at inductionHypothesis
      exact inductionHypothesis
  | case5 path error failed missing nonempty grown ended complete made inductionHypothesis =>
      rw [ended] at inductionHypothesis
      exact inductionHypothesis.trans (addsFolders_of_makeFolder made)
  | case6 path error failed missing nonempty grown ended last refused unknown inductionHypothesis =>
      rw [ended] at inductionHypothesis
      exact inductionHypothesis
  | case7 path error failed missing nonempty grown ended last refused known inductionHypothesis =>
      rw [ended] at inductionHypothesis
      exact inductionHypothesis

/-! ## Writing a file -/

/-- What is written is put where its path leads, in the place of no folder. -/
theorem put_of_write (saved : tree.write path content = .ok written) :
    ∃ location, tree.locate true path = .ok location ∧ tree.node? location ≠ some .folder
      ∧ written = tree.put location (.file content) := by
  unfold write at saved
  split at saved
  next => cases saved
  next location located =>
    split at saved
    next => cases saved
    next noFolder => exact ⟨location, located, noFolder, (Except.ok.inj saved).symm⟩

/-- A text that cannot be written leaves folders. -/
theorem addsFolders_of_writeBelow {error : FileError}
    (refused : tree.writeBelow path text = (.error error, left)) : AddsFolders tree left := by
  have adds := addsFolders_makeFolders tree path.parent
  unfold writeBelow at refused
  split at refused
  next inner grown ended =>
    rw [ended] at adds
    exact (Prod.mk.inj refused).2 ▸ adds
  next grown ended =>
    rw [ended] at adds
    split at refused
    next => exact (Prod.mk.inj refused).2 ▸ adds
    next => cases refused

/-- Whether a text can be saved at a path does not depend on the text. -/
theorem exists_writeBelow_error_iff (text : String) :
    (∃ error left, tree.writeBelow path text = (.error error, left)) ↔ ¬tree.IsWritable path := by
  constructor
  · rintro ⟨error, left, refused⟩ ⟨grown, made, saves⟩
    obtain ⟨written, saved⟩ := saves text.toUTF8
    simp only [writeBelow, made, saved] at refused
    cases refused
  · intro unwritable
    rcases made : tree.makeFolders path.parent with ⟨error | _, grown⟩
    · exact ⟨error, grown, by simp only [writeBelow, made]⟩
    · cases saved : grown.write path text.toUTF8 with
      | error error => exact ⟨error, grown, by simp only [writeBelow, made, saved]⟩
      | ok written =>
          obtain ⟨location, located, noFolder, -⟩ := put_of_write saved
          refine absurd ⟨grown, made, fun content => ⟨grown.put location (.file content), ?_⟩⟩ unwritable
          simp [write, located]

/-- A text that is written is put into a tree to which folders were added. -/
theorem exists_put_of_writeBelow (saved : tree.writeBelow path text = (.ok (), written)) :
    ∃ grown location, AddsFolders tree grown ∧ grown.locate true path = .ok location
      ∧ grown.node? location ≠ some .folder ∧ written = grown.put location (.file text.toUTF8) := by
  have adds := addsFolders_makeFolders tree path.parent
  unfold writeBelow at saved
  split at saved
  next => cases saved
  next grown ended =>
    rw [ended] at adds
    split at saved
    next => cases saved
    next complete wrote =>
      obtain rfl : complete = written := (Prod.mk.inj saved).2
      obtain ⟨location, located, noFolder, same⟩ := put_of_write wrote
      exact ⟨grown, location, adds, located, noFolder, same⟩

/-- Writing a text changes the file at its path, if any. -/
theorem revises_writeBelow (tree : Tree) (path : Path) (text : String) :
    Revises tree path (tree.writeBelow path text).2 := by
  cases wrote : tree.writeBelow path text with
  | mk answer left =>
      cases answer with
      | error error => exact .kept (addsFolders_of_writeBelow wrote)
      | ok done =>
          obtain ⟨grown, location, adds, located, noFolder, rfl⟩ := exists_put_of_writeBelow wrote
          exact .written adds located noFolder

/-- Saving a value changes the file at its path, if any. -/
theorem revises_saveJson (tree : Tree) (path : Path) (value : Value) :
    Revises tree path (tree.saveJson path value).2 := by
  have adds := addsFolders_makeFolders tree path.parent
  rcases saveJson_snd tree path value with same | ⟨content, written, saved, same⟩
  · rw [same]
    exact .kept adds
  · obtain ⟨location, located, noFolder, rfl⟩ := put_of_write saved
    rw [same]
    exact .written adds located noFolder

/-! ## Merging into a file -/

/-- The text of a file depends on what its path leads to and on nothing else. -/
theorem existingText_congr (same : after.look path = before.look path) :
    after.existingText path = before.existingText path := by
  simp only [existingText, isFile, test, readText, read, same]

variable {rule : Option String → Except MergeFault (Option String)} {fault : MergeFault}

/-- A text is merged into a new file where the folder above it is there. -/
theorem revise_of_absent (parent : tree.look path.parent = .ok .folder)
    (located : tree.locate true path = .ok location) (free : tree.node? location = none)
    (ruled : rule none = .ok (some text)) :
    tree.revise path rule = (.ok true, tree.put location (.file text.toUTF8)) := by
  have absent : tree.existingText path = .ok none := by
    rw [existingText, isFile, test, look, located]
    simp only [bind, Except.bind, free]
    rfl
  have saved : tree.writeBelow path text = (.ok (), tree.put location (.file text.toUTF8)) := by
    rw [writeBelow, makeFolders_of_look parent]
    dsimp only
    rw [write, located]
    simp only [free]
  rw [revise, absent]
  dsimp only
  rw [ruled]
  dsimp only [settle]
  rw [if_neg (by simp), saved]

/-- Opening a file for a text that cannot be encoded does what writing an empty text does. -/
theorem spoil_snd (tree : Tree) (path : Path) (fault : MergeFault) :
    (tree.spoil path fault).2 = (tree.writeBelow path "").2 := by
  unfold spoil
  split <;> simp [*]

/-- A merge leaves the tree, or writes one text. -/
theorem revise_snd (tree : Tree) (path : Path) (rule : Option String → Except MergeFault (Option String)) :
    (tree.revise path rule).2 = tree ∨ ∃ text, (tree.revise path rule).2 = (tree.writeBelow path text).2 := by
  unfold revise
  split
  next => exact .inl rfl
  next existing found =>
    split
    next fault refused =>
      split
      next => exact .inr ⟨"", spoil_snd tree path fault⟩
      next => exact .inl rfl
    next wanted ruled =>
      unfold settle
      split
      next => exact .inl rfl
      next text =>
        split
        next => exact .inl rfl
        next => exact .inr ⟨text, by split <;> simp [*]⟩

/-- A merge that succeeds settled on a text. -/
theorem settle_of_revise {changed : Bool} (done : tree.revise path rule = (.ok changed, after)) :
    ∃ existing wanted, tree.existingText path = .ok existing ∧ rule existing = .ok wanted
      ∧ tree.settle path existing wanted = (.ok changed, after) := by
  unfold revise at done
  split at done
  next => cases done
  next existing found =>
    split at done
    next =>
      rw [spoil] at done
      split at done
      next => split at done <;> cases done
      next => cases done
    next wanted ruled => exact ⟨existing, wanted, found, ruled, done⟩

/-- A merge fails in one of these ways. -/
theorem revise_eq_error_iff :
    tree.revise path rule = (.error fault, left) ↔ tree.Fails path rule fault left := by
  constructor
  · intro failed
    unfold revise at failed
    split at failed
    next unread =>
      obtain ⟨⟨⟩, rfl⟩ := Prod.mk.inj failed
      exact .unread unread
    next existing found =>
      split at failed
      next cause refused =>
        split at failed
        next late =>
          unfold spoil at failed
          split at failed
          next emptied opened =>
            obtain ⟨⟨⟩, rfl⟩ := Prod.mk.inj failed
            exact .emptied found refused ⟨late, opened⟩
          next error grown unopened =>
            obtain ⟨⟨⟩, rfl⟩ := Prod.mk.inj failed
            exact .unopened found refused late unopened
        next early =>
          obtain ⟨⟨⟩, rfl⟩ := Prod.mk.inj failed
          exact .refused found refused early
      next wanted ruled =>
        unfold settle at failed
        split at failed
        next => cases failed
        next text =>
          split at failed
          next => cases failed
          next differs =>
            split at failed
            next => cases failed
            next error grown unsaved =>
              obtain ⟨⟨⟩, rfl⟩ := Prod.mk.inj failed
              exact .unsaved found ruled (by simpa using differs) unsaved
  · intro fails
    cases fails with
    | unread unread => rw [revise, unread]
    | refused found refused early => simp only [revise, found, refused, if_neg early]
    | unsaved found ruled differs unsaved => simp [revise, found, ruled, settle, differs, unsaved]
    | unopened found refused late unopened => simp only [revise, found, refused, if_pos late, spoil, unopened]
    | emptied found refused empties =>
        simp only [revise, found, refused, if_pos empties.isLate, spoil, empties.opened]

/-- A merge that fails leaves folders, unless its fault shows only when the file is open. -/
theorem addsFolders_or_empties_of_revise (failed : tree.revise path rule = (.error fault, left)) :
    AddsFolders tree left ∨ Empties tree path fault left := by
  cases revise_eq_error_iff.mp failed with
  | unread => exact .inl (.refl tree)
  | refused => exact .inl (.refl tree)
  | unsaved _ _ _ unsaved => exact .inl (addsFolders_of_writeBelow unsaved)
  | unopened _ _ _ unopened => exact .inl (addsFolders_of_writeBelow unopened)
  | emptied _ _ empties => exact .inr empties

/-- A merge that fails before the file is opened leaves the tree. -/
theorem eq_of_revise_error (failed : tree.revise path rule = (.error fault, left))
    (early : ∀ error, fault ≠ .file error) : left = tree ∨ Empties tree path fault left := by
  cases revise_eq_error_iff.mp failed with
  | unread => exact .inl rfl
  | refused => exact .inl rfl
  | unsaved => exact absurd rfl (early _)
  | unopened => exact absurd rfl (early _)
  | emptied _ _ empties => exact .inr empties

/-- A merge changes the file at its path, if any. -/
theorem revises_revise (tree : Tree) (path : Path)
    (rule : Option String → Except MergeFault (Option String)) :
    Revises tree path (tree.revise path rule).2 := by
  rcases revise_snd tree path rule with same | ⟨text, same⟩
  · rw [same]
    exact .kept (.refl tree)
  · rw [same]
    exact revises_writeBelow tree path text

end Scaffold.Tree
