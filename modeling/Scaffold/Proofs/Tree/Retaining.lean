import Scaffold.Proofs.Tree.Resolved

/-!
# What a change retains

Making folders and writing files takes no folder and no link away, and a file stays a file, whatever it holds
afterwards (`Retains`).  So a path that leads to a file leads to one after any number of changes
(`Retains.look_file`).

Where nothing but the content of files was changed, every path is located, or fails to be, as before
(`SameShape.locate_eq`), and is resolved to the same location or for the same reason to none
(`SameShape.resolve_eq`).
-/

namespace Scaffold.Tree

/-- A well formed tree with the folders and links of another one, and with files where it has files. -/
structure Retains (before after : Tree) : Prop where
  wellFormed : after.WellFormed
  links : SameLinks before after
  folder : ∀ location, before.node? location = some .folder → after.node? location = some .folder
  file : ∀ location content, before.node? location = some (.file content) →
    ∃ later, after.node? location = some (.file later)

variable {tree before between after written : Tree} {path : Path} {location : Location} {content : ByteArray}
  {text : String}

theorem Retains.refl (wellFormed : tree.WellFormed) : Retains tree tree :=
  ⟨wellFormed, .refl tree, fun _ stands => stands, fun _ content stands => ⟨content, stands⟩⟩

theorem Retains.trans (first : Retains before between) (second : Retains between after) :
    Retains before after := by
  refine ⟨second.wellFormed, first.links.trans second.links,
    fun location stands => second.folder location (first.folder location stands),
    fun location content stands => ?_⟩
  obtain ⟨_, still⟩ := first.file location content stands
  exact second.file location _ still

/-- Adding folders retains what is there. -/
theorem AddsFolders.retains (adds : AddsFolders before after) (wellFormed : after.WellFormed) :
    Retains before after :=
  ⟨wellFormed, adds.sameLinks, fun _ => adds.node?_of_some, fun _ content stands =>
    ⟨content, adds.node?_of_some stands⟩⟩

/-- So does making folders. -/
theorem WellFormed.retains_makeFolders (wellFormed : tree.WellFormed) (path : Path) :
    Retains tree (tree.makeFolders path).2 :=
  (addsFolders_makeFolders tree path).retains (wellFormed.makeFolders path).wellFormed

/-- So does writing a file. -/
theorem WellFormed.retains_write (wellFormed : tree.WellFormed)
    (saved : tree.write path content = .ok written) : Retains tree written := by
  obtain ⟨_, _, _, _, stillFormed⟩ := wellFormed.write saved
  obtain ⟨location, _, rfl, replaced⟩ := wellFormed.place_of_write saved
  have unlinked : ∀ target, tree.node? location ≠ some (.link target) := by
    intro target linked
    rcases replaced with none | ⟨_, file⟩ <;> simp_all
  refine ⟨stillFormed, sameLinks_put unlinked, fun other stands => ?_, fun other kept stands => ?_⟩
  · rw [node?_put_of_ne, stands]
    rintro rfl
    rcases replaced with none | ⟨_, file⟩ <;> simp_all
  · by_cases here : other = location
    · subst here
      have nonempty : other ≠ [] := by
        rintro rfl
        cases stands
      exact ⟨_, node?_put_self nonempty⟩
    · exact ⟨kept, (node?_put_of_ne here).trans stands⟩

/-- So does writing a text below folders that are made. -/
theorem WellFormed.retains_writeBelow (wellFormed : tree.WellFormed) (path : Path) (text : String) :
    Retains tree (tree.writeBelow path text).2 := by
  have made := wellFormed.retains_makeFolders path.parent
  unfold Tree.writeBelow
  split
  next inner grown ended =>
    rw [ended] at made
    exact made
  next grown ended =>
    rw [ended] at made
    split
    next => exact made
    next written saved => exact made.trans (made.wellFormed.retains_write saved)

/-- So does saving a value. -/
theorem WellFormed.retains_saveJson (wellFormed : tree.WellFormed) (path : Path) (value : Value) :
    Retains tree (tree.saveJson path value).2 := by
  have made := wellFormed.retains_makeFolders path.parent
  rcases saveJson_snd tree path value with same | ⟨content, written, saved, same⟩
  · rwa [same]
  · rw [same]
    exact made.trans (made.wellFormed.retains_write saved)

/-- So does merging into a file. -/
theorem WellFormed.retains_revise (wellFormed : tree.WellFormed) (path : Path)
    (rule : Option String → Except MergeFault (Option String)) :
    Retains tree (tree.revise path rule).2 := by
  rcases revise_snd tree path rule with same | ⟨text, same⟩
  · rw [same]
    exact .refl wellFormed
  · rw [same]
    exact wellFormed.retains_writeBelow path text

/-! ## Rewriting files -/

/-- Two trees have the same nodes, but for the content of files. -/
structure SameShape (before after : Tree) : Prop where
  home : after.home = before.home
  node : ∀ location, after.node? location = before.node? location
    ∨ ∃ old new, before.node? location = some (.file old) ∧ after.node? location = some (.file new)

/-- Rewriting a file keeps all nodes, but for its content. -/
theorem sameShape_put {old : ByteArray} (stands : tree.node? location = some (.file old)) (new : ByteArray) :
    SameShape tree (tree.put location (.file new)) := by
  refine ⟨home_put, fun other => ?_⟩
  by_cases here : other = location
  · subst here
    have nonempty : other ≠ [] := by
      rintro rfl
      cases stands
    exact .inr ⟨old, new, stands, node?_put_self nonempty⟩
  · exact .inl (node?_put_of_ne here)

namespace SameShape

variable (same : SameShape before after)

include same

/-- Where nothing stands still nothing stands. -/
theorem free (nothing : before.node? location = none) : after.node? location = none := by
  rcases same.node location with equal | ⟨_, _, file, _⟩
  · rw [equal, nothing]
  · rw [nothing] at file
    cases file

/-- Where a folder stands the folder still stands. -/
theorem folder (stands : before.node? location = some .folder) : after.node? location = some .folder := by
  rcases same.node location with equal | ⟨_, _, file, _⟩
  · rw [equal, stands]
  · rw [stands] at file
    cases file

/-- Where a link stands the link still stands. -/
theorem link {target : String} (stands : before.node? location = some (.link target)) :
    after.node? location = some (.link target) := by
  rcases same.node location with equal | ⟨_, _, file, _⟩
  · rw [equal, stands]
  · rw [stands] at file
    cases file

/-- Where a file stands a file still stands. -/
theorem exists_file {old : ByteArray} (stands : before.node? location = some (.file old)) :
    ∃ new, after.node? location = some (.file new) := by
  rcases same.node location with equal | ⟨_, new, _, file⟩
  · exact ⟨old, equal.trans stands⟩
  · exact ⟨new, file⟩

/-- Paths take the same way. -/
theorem sameLinks : SameLinks before after := by
  refine ⟨same.home, fun location target => ?_⟩
  rcases same.node location with equal | ⟨old, new, wasFile, isFile⟩
  · rw [equal]
  · rw [wasFile, isFile]
    exact iff_of_false nofun nofun

/-- A walk arrives at the same location, or fails for the same reason. -/
theorem walk_eq (followLast : Bool) (links : Nat) (here : Location) (names : List String) :
    after.walk followLast links here names = before.walk followLast links here names := by
  fun_induction Tree.walk before followLast links here names with
  | case1 => rw [Tree.walk]
  | case2 links here name rest nothing =>
      rw [Tree.walk, same.free nothing]
  | case3 links here name rest content file =>
      obtain ⟨new, still⟩ := same.exists_file file
      rw [Tree.walk, still]
  | case4 links here name rest target linked =>
      rw [Tree.walk, same.link linked]
  | case5 links here name rest stands isUp inductionHypothesis =>
      rw [Tree.walk, same.folder stands]
      simp only [isUp, if_true]
      exact inductionHypothesis
  | case6 links here name rest stands proper long =>
      rw [Tree.walk, same.folder stands]
      simp only [if_neg proper, if_pos long]
  | case7 links here name rest stands proper short next nothing last =>
      have still : after.node? (here ++ [name]) = none := same.free nothing
      rw [Tree.walk, same.folder stands]
      simp only [if_neg proper, if_neg short, still, if_pos last, next]
  | case8 links here name rest stands proper short next nothing further =>
      have still : after.node? (here ++ [name]) = none := same.free nothing
      rw [Tree.walk, same.folder stands]
      simp only [if_neg proper, if_neg short, still, if_neg further]
  | case9 links here name rest stands proper short next target linked ends =>
      have still : after.node? (here ++ [name]) = some (.link target) := same.link linked
      rw [Tree.walk, same.folder stands]
      simp only [if_neg proper, if_neg short, still, if_pos ends, next]
  | case10 here name rest stands proper short next target linked goes =>
      have still : after.node? (here ++ [name]) = some (.link target) := same.link linked
      rw [Tree.walk, same.folder stands]
      simp only [if_neg proper, if_neg short, still, if_neg goes]
  | case11 here name rest stands proper short next target linked goes left path inductionHypothesis =>
      have still : after.node? (here ++ [name]) = some (.link target) := same.link linked
      rw [Tree.walk, same.folder stands]
      simp only [if_neg proper, if_neg short, still, if_neg goes]
      exact inductionHypothesis
  | case12 links here name rest stands proper short next node unlinked present inductionHypothesis =>
      obtain ⟨other, still, plain⟩ : ∃ other, after.node? (here ++ [name]) = some other
          ∧ ∀ target, other ≠ .link target := by
        cases node with
        | link target => exact absurd rfl (unlinked target)
        | folder =>
            refine ⟨.folder, same.folder present, fun target => ?_⟩
            rintro ⟨⟩
        | file content =>
            obtain ⟨new, still⟩ := same.exists_file present
            refine ⟨.file new, still, fun target => ?_⟩
            rintro ⟨⟩
      rw [Tree.walk, same.folder stands]
      cases other with
      | link target => exact absurd rfl (plain target)
      | file | folder =>
          simp only [if_neg proper, if_neg short, still]
          exact inductionHypothesis

/-- Paths start where they did. -/
theorem startOf_eq (path : Path) : after.startOf path = before.startOf path := by
  rw [startOf, startOf, same.home]

/-- A path has the same location. -/
theorem locate_eq (followLast : Bool) (path : Path) :
    after.locate followLast path = before.locate followLast path := by
  rw [locate, locate, same.startOf_eq, same.walk_eq]

/-- A path leads nowhere for the same reason. -/
theorem look_eq_error_iff {cause : FileCause} :
    after.look path = .error cause ↔ before.look path = .error cause := by
  rw [look, look, same.locate_eq]
  cases before.locate true path with
  | error cause => rfl
  | ok location =>
      dsimp only [bind, Except.bind]
      rcases same.node location with equal | ⟨old, new, wasFile, isFile⟩
      · rw [equal]
      · rw [wasFile, isFile]
        refine iff_of_false ?_ ?_
        · rintro ⟨⟩
        · rintro ⟨⟩

/-- A path is resolved to the same location, or to none for the same reason. -/
theorem resolve_eq (path : Path) : after.resolve path = before.resolve path := by
  rw [resolve, resolve, same.startOf_eq, resolveFrom_congr same.sameLinks]
  split
  · rfl
  · split
    · rfl
    · next stuck _ =>
      by_cases loops : before.look ⟨.root, collapse stuck⟩ = .error .tooManyLinks
      · have still := same.look_eq_error_iff.mpr loops
        simp only [loops, still]
      · have still := same.look_eq_error_iff.not.mpr loops
        dsimp only
        split
        · next found => exact absurd found still
        · rfl

end SameShape

end Scaffold.Tree
