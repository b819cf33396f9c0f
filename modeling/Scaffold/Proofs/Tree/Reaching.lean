import Scaffold.Proofs.Merge.Revision
import Scaffold.Proofs.Tree.Following
import Scaffold.Proofs.Tree.Retaining

/-!
# Paths that reach a location

A path reaches a location if it leads to the file there whenever a file stands there, now and in every tree that
retains the present one.  The path of a location does unless it is too long (`reaches_pathOf`), and so does the
path of a name in a folder (`reaches_child`).
-/

namespace Scaffold.Tree

/-- A path leads to whatever file stands at a location, in every tree that retains a tree. -/
structure Reaches (tree : Tree) (path : Path) (location : Location) : Prop where
  resolves : tree.Resolves (tree.startOf path) path.parts location
  told : ∀ {after}, tree.Retains after → ∃ present, after.isFile path = .ok present
  leads : ∀ {after}, tree.Retains after → after.bytes? path = after.file? location

variable {tree before after : Tree} {path root : Path} {here location home folder : Location}
  {names : List String} {name : String} {content : ByteArray} {links : Nat}

/-- What is reached is reached from then on. -/
theorem Reaches.later (reaches : Reaches before path location) (retains : before.Retains after) :
    Reaches after path location := by
  refine ⟨?_, fun further => reaches.told (retains.trans further), fun further =>
    reaches.leads (retains.trans further)⟩
  rw [startOf, retains.links.home]
  exact reaches.resolves.congr retains.links

theorem file?_eq_some_iff : tree.file? location = some content
    ↔ tree.node? location = some (.file content) := by
  unfold file?
  split
  next stored present => rw [present, Option.some.injEq, Option.some.injEq, Node.file.injEq]
  next other => exact ⟨nofun, fun present => absurd present (other content)⟩

/-- A file that a path leads to stands at the location that the path resolves to. -/
theorem Resolves.file?_of_bytes (resolves : tree.Resolves (tree.startOf path) path.parts location)
    (found : tree.bytes? path = some content) : tree.file? location = some content := by
  obtain ⟨place, located, stands⟩ := look_eq_ok_iff.mp (bytes?_eq_some_iff.mp found)
  obtain rfl := resolves.eq_of_locate located
  exact file?_eq_some_iff.mpr stands

/-- A path reaches the location that it resolves to if it leads to every file that may stand there, and is never
too long. -/
theorem reaches_of_look (resolves : tree.Resolves (tree.startOf path) path.parts location)
    (found : ∀ {after content}, tree.Retains after → after.node? location = some (.file content) →
      after.look path = .ok (.file content))
    (short : ∀ {after}, tree.Retains after → after.look path ≠ .error .nameTooLong) :
    tree.Reaches path location := by
  refine ⟨resolves, fun {after} retains => ?_, fun {after} retains => ?_⟩
  · unfold isFile test
    split
    next => exact ⟨_, rfl⟩
    next long => exact absurd long (short retains)
    next => exact ⟨_, rfl⟩
  · have still : after.Resolves (after.startOf path) path.parts location := by
      rw [startOf, retains.links.home]
      exact resolves.congr retains.links
    refine Option.ext fun content => ⟨still.file?_of_bytes, fun stands => ?_⟩
    exact bytes?_eq_some_iff.mpr (found retains (file?_eq_some_iff.mp stands))

/-! ## The path of a location -/

/-- Names that are short, and lead down past no link, are never too long. -/
theorem walk_ne_nameTooLong (short : ∀ name ∈ names, name.utf8ByteSize ≤ maxName)
    (resolved : tree.IsResolved (here ++ names)) :
    tree.walk true links here names ≠ .error .nameTooLong := by
  induction names generalizing here with
  | nil =>
      rw [walk]
      rintro ⟨⟩
  | cons name rest inductionHypothesis =>
      obtain ⟨shortName, shortRest⟩ := List.forall_mem_cons.mp short
      have split : here ++ name :: rest = here ++ [name] ++ rest := by simp
      rw [split] at resolved
      have proper : ¬(name == "..") = true := by
        rw [beq_iff_eq]
        rintro rfl
        exact resolved.straight (by simp)
      rw [walk]
      split
      next => rintro ⟨⟩
      next => rintro ⟨⟩
      next => rintro ⟨⟩
      next =>
        rw [if_neg proper, if_neg (Nat.not_lt.mpr shortName)]
        dsimp only
        cases found : tree.node? (here ++ [name]) with
        | none =>
            dsimp only
            split <;> rintro ⟨⟩
        | some node =>
            cases node with
            | link target => exact absurd found (resolved.unlinked _ (List.prefix_append ..) target)
            | file _ | folder => exact inductionHypothesis shortRest resolved

/-- The path of a location reaches it unless it is too long. -/
theorem reaches_pathOf (resolved : tree.IsResolved location) (short : pathDefect? location = none) :
    tree.Reaches (pathOf location) location := by
  have whole : tree.IsResolved ([] ++ location) := resolved
  refine reaches_of_look whole.resolves (fun {after content} retains stands => ?_) fun {after} retains => ?_
  · rw [retains.wellFormed.look_pathOf resolved.straight stands, short]
  · unfold pathDefect? at short
    split at short
    next => cases short
    next proper =>
      split at short
      next => cases short
      next shortPath =>
        split at short
        next => cases short
        next shortNames =>
          have walked : after.walk true maxLinks [] location ≠ .error .nameTooLong :=
            walk_ne_nameTooLong (fun name member => Nat.not_lt.mp fun long =>
              shortNames (List.any_eq_true.mpr ⟨name, member, decide_eq_true long⟩)) (whole.congr retains.links)
          have located : after.locate true (pathOf location) = after.walk true maxLinks [] location := by
            rw [locate, if_neg proper, if_neg shortPath]
            rfl
          intro long
          unfold look at long
          rw [located] at long
          cases found : after.walk true maxLinks [] location with
          | error cause =>
              rw [found] at long
              exact walked (found.trans (congrArg Except.error (Except.error.inj long)))
          | ok place =>
              rw [found] at long
              dsimp only [bind, Except.bind] at long
              split at long <;> cases long

/-! ## Names in a folder -/

/-- Names that lead to a folder lead on to what is in it. -/
theorem Leads.child (leads : tree.Leads true links here names folder) (stands : tree.node? folder = some .folder)
    (proper : name ≠ "..") (short : name.utf8ByteSize ≤ maxName)
    (unlinked : ∀ target, tree.node? (folder ++ [name]) ≠ some (.link target)) :
    tree.Leads true links here (names ++ [name]) (folder ++ [name]) := by
  induction leads with
  | arrive =>
      rw [List.nil_append]
      cases present : tree.node? (_ ++ [name]) with
      | none => exact .missing stands proper short present
      | some node =>
          refine .down stands proper short present (fun target same => ?_) .arrive
          exact unlinked target (same ▸ present)
  | up above _ inductionHypothesis => exact .up above (inductionHypothesis stands unlinked)
  | missing _ _ _ free =>
      rw [free] at stands
      cases stands
  | stay _ _ _ _ ends => cases ends
  | follow above properLink shortLink linked _ _ inductionHypothesis =>
      refine .follow above properLink shortLink linked (.inr rfl) ?_
      have further := inductionHypothesis stands unlinked
      rwa [List.append_assoc] at further
  | down above properHere shortHere present plain _ inductionHypothesis =>
      exact .down above properHere shortHere present plain (inductionHypothesis stands unlinked)

/-- A path that leads to a folder, and a name in it that is no link. -/
structure IsChild (tree : Tree) (root : Path) (home : Location) (name : String) : Prop where
  located : tree.locate true root = .ok home
  folder : tree.node? home = some .folder
  single : root.child name = ⟨root.root, root.parts ++ [name]⟩
  proper : name ≠ ".."
  noNull : '\x00' ∉ name.toList
  short : name.utf8ByteSize ≤ maxName
  shortPath : (root.child name).text.utf8ByteSize ≤ maxPath
  unlinked : ∀ target, tree.node? (home ++ [name]) ≠ some (.link target)

/-- The name is still one in the folder where all folders and links stay. -/
theorem IsChild.later (child : tree.IsChild root home name) (retains : tree.Retains after) :
    after.IsChild root home name := by
  have stays := retains.folder home child.folder
  have found := look_of_kept child.located child.folder stays (fun _ => Node.noConfusion) retains.links
    retains.folder
  obtain ⟨place, located, _⟩ := look_eq_ok_iff.mp found
  have resolves : after.Resolves (after.startOf root) root.parts home := by
    rw [startOf, retains.links.home]
    exact (locate_eq_ok_iff.mp child.located).2.2.resolves.congr retains.links
  obtain rfl := resolves.eq_of_locate located
  exact { child with
    located
    folder := stays
    unlinked := fun target linked => child.unlinked target ((retains.links.link _ target).mp linked) }

/-- It is located in the folder. -/
theorem IsChild.locate (child : tree.IsChild root home name) :
    tree.locate true (root.child name) = .ok (home ++ [name]) := by
  obtain ⟨proper, _, leads⟩ := locate_eq_ok_iff.mp child.located
  refine locate_eq_ok_iff.mpr ⟨?_, child.shortPath, ?_⟩
  · rw [child.single, List.any_append, proper, Bool.false_or]
    simpa using child.noNull
  · have below := leads.child child.folder child.proper child.short child.unlinked
    rw [child.single]
    exact below

/-- The path of a name in a folder reaches it. -/
theorem reaches_child (child : tree.IsChild root home name) :
    tree.Reaches (root.child name) (home ++ [name]) := by
  refine reaches_of_look (locate_eq_ok_iff.mp child.locate).2.2.resolves (fun retains stands => ?_) fun retains => ?_
  · exact look_eq_ok_iff.mpr ⟨_, (child.later retains).locate, stands⟩
  · unfold look
    rw [(child.later retains).locate]
    dsimp only [bind, Except.bind]
    split <;> rintro ⟨⟩

end Scaffold.Tree
