import Scaffold.Tree.Resolve
import Scaffold.Proofs.Tree.Files

/-!
# Where resolved paths lead

`Tree.Resolves` is a resolution that is followed to its end, as a relation.  A walk that succeeds arrives at
the resolved location of its path (`Leads.resolves`), and no link stands on the way to a resolved location
(`Resolves.isResolved`).  So a change of the file at a path touches its resolved location and nothing else
(`Revises.file?_of_ne`).
-/

namespace Scaffold.Tree

/-- Names followed from a location end at another, every link on the way replaced by what it points to.
Names that lead to nothing are kept. -/
inductive Resolves (tree : Tree) : Location → List String → Location → Prop where
  | arrive {here} : Resolves tree here [] here
  | up {here rest location} (onward : Resolves tree here.dropLast rest location) :
      Resolves tree here (".." :: rest) location
  | follow {here name rest target reached location} (proper : name ≠ "..")
      (linked : tree.node? (here ++ [name]) = some (.link target))
      (replaced : Resolves tree (if (Path.ofText target).isAbsolute then [] else here)
        (Path.ofText target).parts reached)
      (onward : Resolves tree reached rest location) :
      Resolves tree here (name :: rest) location
  | down {here name rest location} (proper : name ≠ "..")
      (unlinked : ∀ target, tree.node? (here ++ [name]) ≠ some (.link target))
      (onward : Resolves tree (here ++ [name]) rest location) :
      Resolves tree here (name :: rest) location

/-- A location that names no folder above and has no link on the way to it. -/
structure IsResolved (tree : Tree) (location : Location) : Prop where
  straight : ".." ∉ location
  unlinked : ∀ above, above <+: location → ∀ target, tree.node? above ≠ some (.link target)

/-- Every path can be followed to its end: no link leads back to itself. -/
structure IsFollowable (tree : Tree) : Prop where
  home : tree.IsResolved tree.home
  ends : ∀ here names, (tree.resolveFrom [] here names).2 = true

variable {tree before after : Tree} {here location other reached : Location} {names rest : List String}
  {path : Path}

/-- The root is resolved. -/
theorem isResolved_root (tree : Tree) : tree.IsResolved [] := by
  refine ⟨List.not_mem_nil, fun above front target => ?_⟩
  rw [List.prefix_nil.mp front]
  exact nofun

/-- A resolution that is not given up is one. -/
theorem resolves_resolveFrom (tree : Tree) (opened : List Location) (here : Location)
    (names : List String) : (tree.resolveFrom opened here names).2 = true →
      tree.Resolves here names (tree.resolveFrom opened here names).1 := by
  fun_induction Tree.resolveFrom tree opened here names with
  | case1 => exact fun _ => .arrive
  | case2 opened here name rest isUp inductionHypothesis =>
      rw [beq_iff_eq.mp isUp]
      exact fun ends => .up (inductionHypothesis ends)
  | case3 => nofun
  | case4 opened here name rest proper target linked free path reached ended inner outer =>
      rw [dite_eq_ite] at ended inner
      rw [ended] at inner
      exact fun ends => .follow (by simpa using proper) linked (inner rfl) (outer ends)
  | case5 => nofun
  | case6 opened here name rest proper unlinked inductionHypothesis =>
      exact fun ends => .down (by simpa using proper) unlinked (inductionHypothesis ends)

/-- A path has one resolved location. -/
theorem Resolves.unique (first : tree.Resolves here names location)
    (second : tree.Resolves here names other) : location = other := by
  induction first generalizing other with
  | arrive =>
      cases second
      rfl
  | up onward inductionHypothesis =>
      cases second with
      | up again => exact inductionHypothesis again
      | follow proper => exact absurd rfl proper
      | down proper => exact absurd rfl proper
  | follow proper linked replaced onward inner outer =>
      cases second with
      | up => exact absurd rfl proper
      | follow _ linkedToo replacedToo again =>
          obtain rfl := Node.link.inj (Option.some.inj (linked.symm.trans linkedToo))
          obtain rfl := inner replacedToo
          exact outer again
      | down _ unlinked => exact absurd linked (unlinked _)
  | down proper unlinked onward inductionHypothesis =>
      cases second with
      | up => exact absurd rfl proper
      | follow _ linked => exact absurd linked (unlinked _)
      | down _ _ again => exact inductionHypothesis again

/-- Names that are followed in one go are followed one part after the other. -/
theorem Resolves.split (resolves : tree.Resolves here (names ++ rest) location) :
    ∃ reached, tree.Resolves here names reached ∧ tree.Resolves reached rest location := by
  generalize whole : names ++ rest = all at resolves
  induction resolves generalizing names with
  | arrive =>
      obtain ⟨rfl, rfl⟩ := List.append_eq_nil_iff.mp whole
      exact ⟨_, .arrive, .arrive⟩
  | up onward inductionHypothesis =>
      cases names with
      | nil =>
          obtain rfl : rest = _ := whole
          exact ⟨_, .arrive, .up onward⟩
      | cons name names =>
          obtain ⟨rfl, split⟩ := List.cons.inj whole
          obtain ⟨reached, first, second⟩ := inductionHypothesis split
          exact ⟨reached, .up first, second⟩
  | follow proper linked replaced onward _ inductionHypothesis =>
      cases names with
      | nil =>
          obtain rfl : rest = _ := whole
          exact ⟨_, .arrive, .follow proper linked replaced onward⟩
      | cons name names =>
          obtain ⟨rfl, split⟩ := List.cons.inj whole
          obtain ⟨reached, first, second⟩ := inductionHypothesis split
          exact ⟨reached, .follow proper linked replaced first, second⟩
  | down proper unlinked onward inductionHypothesis =>
      cases names with
      | nil =>
          obtain rfl : rest = _ := whole
          exact ⟨_, .arrive, .down proper unlinked onward⟩
      | cons name names =>
          obtain ⟨rfl, split⟩ := List.cons.inj whole
          obtain ⟨reached, first, second⟩ := inductionHypothesis split
          exact ⟨reached, .down proper unlinked first, second⟩

/-- A walk that follows every link arrives at the resolved location. -/
theorem Leads.resolves {links : Nat} (leads : tree.Leads true links here names location) :
    tree.Resolves here names location := by
  induction leads with
  | arrive => exact .arrive
  | up stands onward inductionHypothesis => exact .up inductionHypothesis
  | missing stands proper short free => exact .down proper (by simp [free]) .arrive
  | stay stands proper short linked ends => cases ends
  | follow stands proper short linked goes onward inductionHypothesis =>
      obtain ⟨reached, replaced, further⟩ := inductionHypothesis.split
      exact .follow proper linked replaced further
  | down stands proper short present unlinked onward inductionHypothesis =>
      refine .down proper (fun target linked => ?_) inductionHypothesis
      exact unlinked target (Option.some.inj (present.symm.trans linked))

/-- A path that is located is located where it resolves to. -/
theorem Resolves.eq_of_locate (resolves : tree.Resolves (tree.startOf path) path.parts location)
    (located : tree.locate true path = .ok other) : other = location :=
  (locate_eq_ok_iff.mp located).2.2.resolves.unique resolves

/-- From a resolved location every path resolves to one. -/
theorem Resolves.isResolved (resolves : tree.Resolves here names location)
    (start : tree.IsResolved here) : tree.IsResolved location := by
  induction resolves with
  | arrive => exact start
  | up onward inductionHypothesis =>
      exact inductionHypothesis ⟨fun inside => start.straight (List.dropLast_subset _ inside),
        fun front part => start.unlinked front (part.trans (List.dropLast_prefix _))⟩
  | follow proper linked replaced onward inner outer =>
      refine outer (inner ?_)
      split
      · exact isResolved_root tree
      · exact start
  | down proper unlinked onward inductionHypothesis =>
      refine inductionHypothesis ⟨?_, fun above front target => ?_⟩
      · rw [List.mem_append, List.mem_singleton]
        exact fun either => either.elim start.straight (Ne.symm proper)
      · rcases List.prefix_concat_iff.mp front with rfl | before
        · exact unlinked target
        · exact start.unlinked above before target

/-- A resolved location resolves to itself. -/
theorem IsResolved.resolves (resolved : tree.IsResolved (here ++ names)) :
    tree.Resolves here names (here ++ names) := by
  induction names generalizing here with
  | nil =>
      rw [List.append_nil]
      exact .arrive
  | cons name rest inductionHypothesis =>
      have split : here ++ name :: rest = here ++ [name] ++ rest := by simp
      rw [split] at resolved ⊢
      refine .down ?_ (resolved.unlinked _ (List.prefix_append ..)) (inductionHypothesis resolved)
      rintro rfl
      exact resolved.straight (by simp)

/-! ## Trees with the same links -/

/-- Paths that take the same way resolve to the same location. -/
theorem Resolves.congr (same : SameLinks before after) (resolves : before.Resolves here names location) :
    after.Resolves here names location := by
  induction resolves with
  | arrive => exact .arrive
  | up onward inductionHypothesis => exact .up inductionHypothesis
  | follow proper linked replaced onward inner outer =>
      exact .follow proper ((same.link _ _).mpr linked) inner outer
  | down proper unlinked onward inductionHypothesis =>
      exact .down proper (fun target linked => unlinked target ((same.link _ _).mp linked))
        inductionHypothesis

/-- What is resolved remains so. -/
theorem IsResolved.congr (same : SameLinks before after) (resolved : before.IsResolved location) :
    after.IsResolved location :=
  ⟨resolved.straight, fun above front target linked =>
    resolved.unlinked above front target ((same.link _ _).mp linked)⟩

/-- A link is replaced by what it points to, once. -/
theorem resolveFrom_link {opened : List Location} {name target : String} (proper : ¬(name == "..") = true)
    (linked : tree.node? (here ++ [name]) = some (.link target)) :
    tree.resolveFrom opened here (name :: rest)
      = if opened.contains (here ++ [name]) then (here ++ [name] ++ rest, false)
        else
          match tree.resolveFrom ((here ++ [name]) :: opened)
              (if (Path.ofText target).isAbsolute then [] else here) (Path.ofText target).parts with
          | (reached, true) => tree.resolveFrom opened reached rest
          | (reached, false) => (reached ++ rest, false) := by
  rw [resolveFrom, if_neg proper]
  split
  next other found =>
    obtain rfl := Node.link.inj (Option.some.inj (linked.symm.trans found))
    rfl
  next unlinked => exact absurd linked (unlinked target)

/-- A name that is no link leads one folder down. -/
theorem resolveFrom_unlinked {opened : List Location} {name : String} (proper : ¬(name == "..") = true)
    (unlinked : ∀ target, tree.node? (here ++ [name]) ≠ some (.link target)) :
    tree.resolveFrom opened here (name :: rest) = tree.resolveFrom opened (here ++ [name]) rest := by
  rw [resolveFrom, if_neg proper]
  split
  next target linked => exact absurd linked (unlinked target)
  next => rfl

/-- Paths that take the same way are resolved alike. -/
theorem resolveFrom_congr (same : SameLinks before after) (opened : List Location) (here : Location)
    (names : List String) : after.resolveFrom opened here names = before.resolveFrom opened here names := by
  fun_induction Tree.resolveFrom before opened here names with
  | case1 => rw [Tree.resolveFrom]
  | case2 opened here name rest isUp inductionHypothesis =>
      rw [Tree.resolveFrom, if_pos isUp]
      exact inductionHypothesis
  | case3 opened here name rest proper target linked known =>
      rw [resolveFrom_link proper ((same.link _ _).mpr linked), if_pos known]
  | case4 opened here name rest proper target linked free path reached ended inner outer =>
      rw [dite_eq_ite] at ended inner
      rw [resolveFrom_link proper ((same.link _ _).mpr linked), if_neg free, inner, ended]
      exact outer
  | case5 opened here name rest proper target linked free path reached ended inner =>
      rw [dite_eq_ite] at ended inner
      rw [resolveFrom_link proper ((same.link _ _).mpr linked), if_neg free, inner, ended]
  | case6 opened here name rest proper unlinked inductionHypothesis =>
      rw [resolveFrom_unlinked proper fun target linked => unlinked target ((same.link _ _).mp linked)]
      exact inductionHypothesis

/-- A tree can be followed if every link points to a name beside it, which is no link. -/
theorem isFollowable_of_beside (home : tree.IsResolved tree.home)
    (beside : ∀ here name target, tree.node? (here ++ [name]) = some (.link target) →
      ∃ other, Path.ofText target = ⟨.relative, [other]⟩ ∧ other ≠ ".."
        ∧ ∀ further, tree.node? (here ++ [other]) ≠ some (.link further)) : tree.IsFollowable := by
  refine ⟨home, fun here names => ?_⟩
  induction names generalizing here with
  | nil => rw [resolveFrom]
  | cons name rest inductionHypothesis =>
      by_cases proper : (name == "..") = true
      · rw [resolveFrom, if_pos proper]
        exact inductionHypothesis here.dropLast
      by_cases linked : ∃ target, tree.node? (here ++ [name]) = some (.link target)
      · obtain ⟨target, linked⟩ := linked
        obtain ⟨other, points, otherProper, unlinked⟩ := beside here name target linked
        have relative : ¬(Path.mk .relative [other]).isAbsolute = true := Bool.false_ne_true
        rw [resolveFrom_link proper linked, if_neg (by simp), points, if_neg relative,
          resolveFrom_unlinked (by simpa using otherProper) unlinked, resolveFrom]
        exact inductionHypothesis (here ++ [other])
      · rw [resolveFrom_unlinked proper fun target found => linked ⟨target, found⟩]
        exact inductionHypothesis (here ++ [name])

/-- A tree without links can be followed. -/
theorem isFollowable_of_unlinked (home : tree.IsResolved tree.home)
    (unlinked : ∀ location target, tree.node? location ≠ some (.link target)) : tree.IsFollowable :=
  isFollowable_of_beside home fun _ _ target linked => absurd linked (unlinked _ target)

/-- What can be followed remains so. -/
theorem IsFollowable.congr (same : SameLinks before after) (followable : before.IsFollowable) :
    after.IsFollowable := by
  refine ⟨same.home ▸ followable.home.congr same, fun here names => ?_⟩
  rw [resolveFrom_congr same]
  exact followable.ends here names

/-- Where paths can be followed, a path is resolved unless it holds a null character. -/
theorem IsFollowable.resolve_eq (followable : tree.IsFollowable) (path : Path) :
    tree.resolve path
      = if (path.parts.any fun part => part.toList.contains '\x00') = true then .error .nullCharacter
        else .ok (tree.resolveFrom [] (tree.startOf path) path.parts).1 := by
  unfold resolve
  split
  · rfl
  · have ends := followable.ends (tree.startOf path) path.parts
    split
    next found => rw [found]
    next found =>
      rw [found] at ends
      cases ends

/-- Where paths can be followed, they resolve to what they are resolved to. -/
theorem IsFollowable.resolves (followable : tree.IsFollowable) (found : tree.resolve path = .ok location) :
    tree.Resolves (tree.startOf path) path.parts location := by
  rw [followable.resolve_eq] at found
  split at found
  · cases found
  · rw [← Except.ok.inj found]
    exact resolves_resolveFrom tree [] _ _ (followable.ends _ _)

/-- Where paths can be followed, a path without null characters is resolved to what it resolves to. -/
theorem IsFollowable.resolve_of_resolves (followable : tree.IsFollowable)
    (proper : (path.parts.any fun part => part.toList.contains '\x00') = false)
    (resolves : tree.Resolves (tree.startOf path) path.parts location) : tree.resolve path = .ok location := by
  rw [followable.resolve_eq, if_neg (by simp only [proper, Bool.false_eq_true, not_false_iff])]
  exact congrArg Except.ok
    ((resolves_resolveFrom tree [] _ _ (followable.ends _ _)).unique resolves)

/-- Where paths can be followed, the path of a resolved location is resolved to it. -/
theorem IsFollowable.resolve_pathOf (followable : tree.IsFollowable) (resolved : tree.IsResolved location)
    (proper : (location.any fun part => part.toList.contains '\x00') = false) :
    tree.resolve (pathOf location) = .ok location := by
  have resolves : tree.Resolves [] location ([] ++ location) := IsResolved.resolves resolved
  exact followable.resolve_of_resolves proper resolves

/-- Where paths can be followed, a path that is located is resolved to its location. -/
theorem IsFollowable.resolve_of_locate (followable : tree.IsFollowable)
    (located : tree.locate true path = .ok location) : tree.resolve path = .ok location := by
  obtain ⟨proper, _, leads⟩ := locate_eq_ok_iff.mp located
  exact followable.resolve_of_resolves proper leads.resolves

/-- Paths that take the same way have the same resolved location. -/
theorem IsFollowable.resolve_congr (followable : before.IsFollowable) (same : SameLinks before after)
    (path : Path) : after.resolve path = before.resolve path := by
  have start : after.startOf path = before.startOf path := by rw [startOf, startOf, same.home]
  rw [(followable.congr same).resolve_eq, followable.resolve_eq, resolveFrom_congr same, start]

/-- A path starts at a resolved location. -/
theorem IsFollowable.start (followable : tree.IsFollowable) (path : Path) :
    tree.IsResolved (tree.startOf path) := by
  unfold startOf
  split
  · exact isResolved_root tree
  · exact followable.home

/-! ## Changes of files -/

/-- A change of the file at a path leaves every file that is not at the resolved location. -/
theorem Revises.file?_of_ne (revises : Revises tree path after)
    (resolves : tree.Resolves (tree.startOf path) path.parts location) (differ : other ≠ location) :
    after.file? other = tree.file? other := by
  cases revises with
  | kept adds => exact adds.sameFiles other
  | @written grown place content adds located noFolder =>
      have start : grown.startOf path = tree.startOf path := by rw [startOf, startOf, adds.home]
      obtain rfl := Resolves.eq_of_locate (start ▸ resolves.congr adds.sameLinks) located
      rw [file?_put_of_ne differ]
      exact adds.sameFiles other

/-- A change of the file at a path that starts at a resolved location leaves every link. -/
theorem Revises.sameLinks (revises : Revises tree path after)
    (start : tree.IsResolved (tree.startOf path)) : SameLinks tree after := by
  cases revises with
  | kept adds => exact adds.sameLinks
  | @written grown place content adds located noFolder =>
      have begins : grown.startOf path = tree.startOf path := by rw [startOf, startOf, adds.home]
      have leads := (locate_eq_ok_iff.mp located).2.2
      rw [begins] at leads
      have resolved := leads.resolves.isResolved (start.congr adds.sameLinks)
      exact adds.sameLinks.trans (sameLinks_put (resolved.unlinked _ (List.prefix_refl _)))

/-- A path still leads where it did in a tree that keeps all folders and all links, and no link is there now
unless one was. -/
theorem look_of_kept {node later : Node} (located : before.locate true path = .ok location)
    (stands : before.node? location = some node) (still : after.node? location = some later)
    (unlinked : ∀ target, later = .link target → ∃ target, node = .link target)
    (same : SameLinks before after)
    (folders : ∀ other, before.node? other = some .folder → after.node? other = some .folder) :
    after.look path = .ok later := by
  obtain ⟨proper, short, leads⟩ := locate_eq_ok_iff.mp located
  have start : after.startOf path = before.startOf path := by rw [startOf, startOf, same.home]
  refine look_eq_ok_iff.mpr ⟨location, locate_eq_ok_iff.mpr ⟨proper, short, ?_⟩, still⟩
  rw [start]
  exact leads.kept stands still unlinked folders fun other target => (same.link other target).mpr

/-- A change of the file at a path leaves what another path leads to. -/
theorem Revises.look_of_apart {aside : Path} {node : Node} (revises : Revises tree path after)
    (followable : tree.IsFollowable) (apart : tree.resolve aside ≠ tree.resolve path)
    (found : tree.look aside = .ok node) : after.look aside = .ok node := by
  have same := revises.sameLinks (followable.start path)
  obtain ⟨place, located, stands⟩ := look_eq_ok_iff.mp found
  cases revises with
  | kept adds =>
      exact look_of_kept located stands (adds.node?_of_some stands) (fun target linked => ⟨target, linked⟩) same
        fun _ => adds.node?_of_some
  | @written grown location content adds reached noFolder =>
      have resolved := (followable.congr adds.sameLinks).resolve_of_locate reached
      rw [followable.resolve_congr adds.sameLinks] at resolved
      have differ : place ≠ location := by
        rintro rfl
        exact apart ((followable.resolve_of_locate located).trans resolved.symm)
      refine look_of_kept located stands ?_ (fun target linked => ⟨target, linked⟩) same
        fun other folder => ?_
      · rw [node?_put_of_ne differ]
        exact adds.node?_of_some stands
      · have stillFolder := adds.node?_of_some folder
        rw [node?_put_of_ne, stillFolder]
        rintro rfl
        exact noFolder stillFolder

end Scaffold.Tree
