import Scaffold.Tree.Json
import Scaffold.Proofs.Json.Document
import Mathlib.Tactic.Common

/-!
# Where paths lead

`Tree.Leads` is a walk that succeeds, as a relation with one rule for each kind of name: what holds of all
walks is proved by induction on it.  A path that leads to something leads through the folder of its
parent (`look_parent`).

Saving makes the folders above a path and then writes the file.  Whether it can be done depends on the
tree alone and not on the content, and it can be done at every path that leads to a file already.
-/

namespace Scaffold.Tree

/-- A walk from a folder along names arrives at a location; `links` is the number of links that it may
follow. -/
inductive Leads (tree : Tree) (followLast : Bool) : Nat → Location → List String → Location → Prop where
  | arrive {links here} : Leads tree followLast links here [] here
  | up {links here rest location} (stands : tree.node? here = some .folder)
      (onward : Leads tree followLast links here.dropLast rest location) :
      Leads tree followLast links here (".." :: rest) location
  /-- The last name need not exist. -/
  | missing {links here name} (stands : tree.node? here = some .folder) (proper : name ≠ "..")
      (short : name.utf8ByteSize ≤ maxName) (free : tree.node? (here ++ [name]) = none) :
      Leads tree followLast links here [name] (here ++ [name])
  | stay {links here name target} (stands : tree.node? here = some .folder) (proper : name ≠ "..")
      (short : name.utf8ByteSize ≤ maxName) (linked : tree.node? (here ++ [name]) = some (.link target))
      (ends : followLast = false) : Leads tree followLast links here [name] (here ++ [name])
  | follow {left here name rest target location} (stands : tree.node? here = some .folder)
      (proper : name ≠ "..") (short : name.utf8ByteSize ≤ maxName)
      (linked : tree.node? (here ++ [name]) = some (.link target))
      (goes : rest ≠ [] ∨ followLast = true)
      (onward : Leads tree followLast left
        (if (Path.ofText target).isAbsolute then [] else here) ((Path.ofText target).parts ++ rest)
        location) :
      Leads tree followLast (left + 1) here (name :: rest) location
  | down {links here name rest node location} (stands : tree.node? here = some .folder)
      (proper : name ≠ "..") (short : name.utf8ByteSize ≤ maxName)
      (present : tree.node? (here ++ [name]) = some node) (unlinked : ∀ target, node ≠ .link target)
      (onward : Leads tree followLast links (here ++ [name]) rest location) :
      Leads tree followLast links here (name :: rest) location

variable {tree : Tree} {followLast : Bool} {links : Nat} {here location : Location}
  {names : List String}

/-- A walk that succeeds arrives. -/
theorem leads_of_walk (found : tree.walk followLast links here names = .ok location) :
    tree.Leads followLast links here names location := by
  fun_induction Tree.walk tree followLast links here names with
  | case1 =>
      cases found
      exact .arrive
  | case5 links here name rest stands isUp inductionHypothesis =>
      rw [beq_iff_eq.mp isUp]
      exact .up stands (inductionHypothesis found)
  | case7 links here name rest stands proper short next free last =>
      obtain rfl := Except.ok.inj found
      rw [List.isEmpty_iff.mp last]
      exact .missing stands (by simpa using proper) (by omega) free
  | case9 links here name rest stands proper short next target linked ends =>
      obtain rfl := Except.ok.inj found
      obtain ⟨last, stays⟩ : rest = [] ∧ followLast = false := by simpa using ends
      rw [last]
      exact .stay stands (by simpa using proper) (by omega) linked stays
  | case11 here name rest stands proper short next target linked goes left path inductionHypothesis =>
      refine .follow stands (by simpa using proper) (by omega) linked ?_ (inductionHypothesis found)
      by_cases last : rest = []
      · exact .inr (by simpa [last] using goes)
      · exact .inl last
  | case12 links here name rest stands proper short next node unlinked present inductionHypothesis =>
      exact .down stands (by simpa using proper) (by omega) present
        (fun target same => unlinked target same) (inductionHypothesis found)
  | _ => cases found

/-- A walk that arrives succeeds. -/
theorem Leads.walk (leads : tree.Leads followLast links here names location) :
    tree.walk followLast links here names = .ok location := by
  induction leads with
  | arrive => rw [Tree.walk]
  | up stands onward inductionHypothesis =>
      rw [Tree.walk]
      simpa [stands] using inductionHypothesis
  | missing stands proper short free =>
      rw [Tree.walk]
      simp [stands, proper, Nat.not_lt.mpr short, free]
  | stay stands proper short linked ends =>
      rw [Tree.walk]
      simp [stands, proper, Nat.not_lt.mpr short, linked, ends]
  | follow stands proper short linked goes onward inductionHypothesis =>
      rw [Tree.walk]
      simp only [stands, beq_iff_eq, proper, if_false, Nat.not_lt.mpr short, linked]
      rw [if_neg (by rcases goes with goes | goes <;> simp [goes])]
      exact inductionHypothesis
  | @down links here name rest node location stands proper short present unlinked onward
      inductionHypothesis =>
      rw [Tree.walk]
      cases node with
      | link target => exact absurd rfl (unlinked target)
      | file => simpa [stands, proper, Nat.not_lt.mpr short, present] using inductionHypothesis
      | folder => simpa [stands, proper, Nat.not_lt.mpr short, present] using inductionHypothesis

/-- Arriving is what a walk that succeeds does. -/
theorem walk_eq_ok_iff :
    tree.walk followLast links here names = .ok location
      ↔ tree.Leads followLast links here names location :=
  ⟨leads_of_walk, Leads.walk⟩

/-- The names before the last one lead to a folder. -/
theorem Leads.folder {last : String}
    (leads : tree.Leads followLast links here (names ++ [last]) location) :
    ∃ folder, tree.Leads true links here names folder ∧ tree.node? folder = some .folder := by
  generalize whole : names ++ [last] = all at leads
  induction leads generalizing names with
  | arrive => simp at whole
  | up stands onward inductionHypothesis =>
      cases names with
      | nil => exact ⟨_, .arrive, stands⟩
      | cons name rest =>
          obtain ⟨rfl, split⟩ := List.cons.inj whole
          obtain ⟨folder, leads, isFolder⟩ := inductionHypothesis split
          exact ⟨folder, .up stands leads, isFolder⟩
  | missing stands | stay stands =>
      obtain rfl : names = [] := by cases names <;> simp_all
      exact ⟨_, .arrive, stands⟩
  | follow stands proper short linked goes onward inductionHypothesis =>
      cases names with
      | nil => exact ⟨_, .arrive, stands⟩
      | cons name rest =>
          obtain ⟨rfl, split⟩ := List.cons.inj whole
          obtain ⟨folder, leads, isFolder⟩ :=
            inductionHypothesis ((List.append_assoc ..).trans (congrArg _ split))
          exact ⟨folder, .follow stands proper short linked (.inr rfl) leads, isFolder⟩
  | down stands proper short present unlinked onward inductionHypothesis =>
      cases names with
      | nil => exact ⟨_, .arrive, stands⟩
      | cons name rest =>
          obtain ⟨rfl, split⟩ := List.cons.inj whole
          obtain ⟨folder, leads, isFolder⟩ := inductionHypothesis split
          exact ⟨folder, .down stands proper short present unlinked leads, isFolder⟩

/-- Names that lead somewhere when a link at the end is followed also do when it is not. -/
theorem Leads.unfollowed {node : Node} (leads : tree.Leads true links here names location)
    (stands : tree.node? location = some node) :
    ∃ end' standing, tree.Leads false links here names end' ∧ tree.node? end' = some standing := by
  induction leads with
  | arrive => exact ⟨_, _, .arrive, stands⟩
  | up here onward inductionHypothesis =>
      obtain ⟨end', standing, leads, present⟩ := inductionHypothesis stands
      exact ⟨end', standing, .up here leads, present⟩
  | missing here proper short free => rw [free] at stands; cases stands
  | stay here proper short linked ends => cases ends
  | @follow left start name rest target location here proper short linked goes onward
      inductionHypothesis =>
      cases rest with
      | nil => exact ⟨_, _, .stay here proper short linked rfl, linked⟩
      | cons next rest =>
          obtain ⟨end', standing, leads, present⟩ := inductionHypothesis stands
          exact ⟨end', standing, .follow here proper short linked (.inl nofun) leads, present⟩
  | down here proper short present unlinked onward inductionHypothesis =>
      obtain ⟨end', standing, leads, found⟩ := inductionHypothesis stands
      exact ⟨end', standing, .down here proper short present unlinked leads, found⟩

/-- What leads to a node still leads there in a tree that has all folders and links, and no link in the place
of that node. -/
theorem Leads.kept {after : Tree} {node later : Node}
    (leads : tree.Leads followLast links here names location)
    (stands : tree.node? location = some node) (still : after.node? location = some later)
    (unlinked : ∀ target, later = .link target → ∃ target, node = .link target)
    (folders : ∀ other, tree.node? other = some .folder → after.node? other = some .folder)
    (followed : ∀ other target, tree.node? other = some (.link target) →
      after.node? other = some (.link target)) :
    after.Leads followLast links here names location := by
  induction leads with
  | arrive => exact .arrive
  | up folder onward inductionHypothesis =>
      exact .up (folders _ folder) (inductionHypothesis stands still)
  | missing folder proper short free =>
      rw [free] at stands
      cases stands
  | stay folder proper short linked ends =>
      exact .stay (folders _ folder) proper short (followed _ _ linked) ends
  | follow folder proper short linked goes onward inductionHypothesis =>
      exact .follow (folders _ folder) proper short (followed _ _ linked) goes
        (inductionHypothesis stands still)
  | @down links here name rest passed location folder proper short present plain onward
      inductionHypothesis =>
      -- Only the last name may lead to a file: the others lead to folders.
      have further := inductionHypothesis stands still
      cases passed with
      | folder => exact .down (folders _ folder) proper short (folders _ present) plain further
      | link target => exact absurd rfl (plain target)
      | file content =>
          cases onward with
          | arrive =>
              obtain rfl := Option.some.inj (stands.symm.trans present)
              refine .down (folders _ folder) proper short still (fun target linked => ?_) further
              obtain ⟨_, same⟩ := unlinked target linked
              cases same
          | up inside | missing inside | stay inside | follow inside | down inside =>
              rw [present] at inside
              cases inside

end Scaffold.Tree

/-! ## Where files can be saved -/

namespace Scaffold

/-- The parent of a path is written no longer than a path may be. -/
theorem Path.size_parent_le {path : Path} (short : path.text.utf8ByteSize ≤ Tree.maxPath) :
    path.parent.text.utf8ByteSize ≤ Tree.maxPath := by
  obtain ⟨start, parts⟩ := path
  rcases List.eq_nil_or_concat parts with rfl | ⟨names, last, rfl⟩
  · exact short
  simp only [Path.parent, Path.text, List.concat_eq_append, List.dropLast_concat] at short ⊢
  rw [if_neg (by simp), String.utf8ByteSize_append] at short
  split
  · decide
  rw [String.utf8ByteSize_append]
  by_cases none : names = []
  · subst none
    simp only [String.intercalate_nil, String.utf8ByteSize_empty]
    omega
  · rw [String.intercalate_append_of_ne_nil none (by simp), String.utf8ByteSize_append,
      String.utf8ByteSize_append] at short
    omega

namespace Tree

variable {tree : Tree} {followLast : Bool} {path : Path} {location : Location} {node : Node}

/-- A path that is no longer than allowed and holds no null character is walked. -/
theorem locate_eq_walk (proper : (path.parts.any fun part => part.toList.contains '\x00') = false)
    (short : path.text.utf8ByteSize ≤ maxPath) :
    tree.locate followLast path = tree.walk followLast maxLinks (tree.startOf path) path.parts := by
  rw [locate, if_neg (by simp only [proper, Bool.false_eq_true, not_false_iff]),
    if_neg (Nat.not_lt.mpr short)]

/-- A path has a location if it is no longer than allowed, holds no null character, and its parts lead
there. -/
theorem locate_eq_ok_iff :
    tree.locate followLast path = .ok location
      ↔ (path.parts.any fun part => part.toList.contains '\x00') = false
        ∧ path.text.utf8ByteSize ≤ maxPath
        ∧ tree.Leads followLast maxLinks (tree.startOf path) path.parts location := by
  by_cases null : (path.parts.any fun part => part.toList.contains '\x00') = true
  · simp only [locate, null, if_true, Bool.true_eq_false, false_and, reduceCtorEq]
  by_cases short : path.text.utf8ByteSize ≤ maxPath
  · have proper := Bool.not_eq_true _ ▸ null
    rw [locate_eq_walk proper short, walk_eq_ok_iff]
    exact ⟨fun leads => ⟨proper, short, leads⟩, fun parts => parts.2.2⟩
  · simp only [locate, null, if_false, Nat.lt_of_not_le short, if_true, short, false_and, and_false,
      reduceCtorEq]

/-- A path leads to the node at its location. -/
theorem look_eq_ok_iff :
    tree.look path = .ok node
      ↔ ∃ location, tree.locate true path = .ok location ∧ tree.node? location = some node := by
  rw [look]
  cases tree.locate true path with
  | error cause => simp [bind, Except.bind]
  | ok location =>
      simp only [bind, Except.bind, Except.ok.injEq, exists_eq_left']
      split <;> simp_all

/-- A path with a last part that has a location has a folder as its parent. -/
theorem look_parent (found : tree.locate followLast path = .ok location) (nonempty : path.parts ≠ []) :
    tree.look path.parent = .ok .folder := by
  obtain ⟨proper, short, leads⟩ := locate_eq_ok_iff.mp found
  obtain ⟨names, last, split⟩ := (List.eq_nil_or_concat path.parts).resolve_left nonempty
  rw [List.concat_eq_append] at split
  have parent : path.parent.parts = names := by simp [Path.parent, split]
  have start : tree.startOf path.parent = tree.startOf path := rfl
  rw [split] at leads
  obtain ⟨folder, onto, isFolder⟩ := leads.folder
  refine look_eq_ok_iff.mpr ⟨folder, locate_eq_ok_iff.mpr ⟨?_, Path.size_parent_le short, ?_⟩, isFolder⟩
  · rw [split, List.any_append, Bool.or_eq_false_iff] at proper
    rw [parent, proper.1]
  · rw [parent, start]
    exact onto

/-- Nothing is made where a folder is. -/
theorem makeFolders_of_look (found : tree.look path = .ok .folder) :
    tree.makeFolders path = (.ok (), tree) := by
  obtain ⟨location, located, present⟩ := look_eq_ok_iff.mp found
  obtain ⟨proper, short, leads⟩ := locate_eq_ok_iff.mp located
  obtain ⟨end', standing, unfollowed, stands⟩ := leads.unfollowed present
  have unmade : tree.makeFolder path = .error (failure path .alreadyExists) := by
    rw [makeFolder, locate_eq_ok_iff.mpr ⟨proper, short, unfollowed⟩]
    simp [stands]
  have accepted : tree.acceptFolder path (failure path .alreadyExists) = .ok () := by
    simp [acceptFolder, isFolder, test, found, bind, Except.bind]
  rw [makeFolders, unmade]
  dsimp only
  rw [if_pos (by rfl), accepted]

/-- A file can be saved at a path, whatever its content. -/
def IsWritable (tree : Tree) (path : Path) : Prop :=
  ∃ grown, tree.makeFolders path.parent = (.ok (), grown)
    ∧ ∀ content, ∃ written, grown.write path content = .ok written

/-- A file can be saved where one is already. -/
theorem isWritable_of_look {content : ByteArray} (found : tree.look path = .ok (.file content))
    (nonempty : path.parts ≠ []) : tree.IsWritable path := by
  obtain ⟨location, located, present⟩ := look_eq_ok_iff.mp found
  refine ⟨tree, makeFolders_of_look (look_parent located nonempty), fun other => ?_⟩
  exact ⟨tree.put location (.file other), by simp [write, located, present]⟩

/-- What has a JSON form is saved where a file can be. -/
theorem saveJson_of_isWritable {value : Value} (writable : tree.IsWritable path)
    (form : Json.HasForm true value) : (tree.saveJson path value).1 = .ok () := by
  obtain ⟨grown, made, saves⟩ := writable
  obtain ⟨written, saved⟩ :=
    saves (String.ofList (Json.print .tree 0 value) ++ "\n").toUTF8
  simp only [saveJson, made, form.write_eq, saved]

/-- The text of a file is what its bytes stand for, with unified line ends. -/
theorem readText_eq_ok {text : String} (readable : tree.readText path = .ok text) :
    ∃ content decoded, tree.look path = .ok (.file content) ∧ Text.decode content = .ok decoded
      ∧ text = String.ofList (Text.unifyLineEnds decoded.toList) := by
  unfold readText read at readable
  cases found : tree.look path with
  | error cause => simp [found, Except.mapError, bind, Except.bind] at readable
  | ok node =>
      cases node with
      | folder => simp [found, Except.mapError, bind, Except.bind] at readable
      | link target => simp [found, Except.mapError, bind, Except.bind] at readable
      | file content =>
          cases decodes : Text.decode content with
          | error fault => simp [found, decodes, Except.mapError, bind, Except.bind] at readable
          | ok decoded =>
              simp only [found, decodes, Except.mapError, bind, Except.bind] at readable
              exact ⟨content, decoded, rfl, decodes, (Except.ok.inj readable).symm⟩

/-- An object is read from a file whose text is that object, or whose text is another value. -/
theorem loadJson_eq_ok {entries : Entries} (loaded : tree.loadJson path = .ok entries) :
    ∃ text, tree.readText path = .ok text
      ∧ (Json.parse text.toList = .ok (.mapping entries)
        ∨ ∃ value, entries = [(rootKey, value)] ∧ Json.parse text.toList = .ok value) := by
  unfold loadJson at loaded
  cases read : tree.readText path with
  | error failure => simp [read, Except.mapError, bind, Except.bind] at loaded
  | ok text =>
      simp only [read, Except.mapError, bind, Except.bind] at loaded
      refine ⟨text, rfl, ?_⟩
      split at loaded
      next found parsed => exact .inl (Except.ok.inj loaded ▸ parsed)
      next value _ parsed => exact .inr ⟨value, (Except.ok.inj loaded).symm, parsed⟩
      next => cases loaded

/-- A file that is read is there. -/
theorem look_of_loadJson {entries : Entries} (loaded : tree.loadJson path = .ok entries) :
    ∃ content, tree.look path = .ok (.file content) := by
  obtain ⟨text, readable, _⟩ := loadJson_eq_ok loaded
  obtain ⟨content, _, found, _⟩ := readText_eq_ok readable
  exact ⟨content, found⟩

end Tree

end Scaffold
