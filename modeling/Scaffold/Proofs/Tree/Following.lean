import Scaffold.Proofs.Tree.Resolved

/-!
# Resolutions that end

A resolution gives up at a link that it meets again while it replaces that link.  Counting the steps shows
that a resolution that comes to an end never does: replacing a link takes the same number of steps wherever it
is met, and inside of itself it would take fewer (`Resolves.resolveFrom_eq`).  So a path is resolved to what it
resolves to in every tree (`Resolves.resolve_eq`), and the path of a location leads to it wherever a node
stands there (`look_pathOf`).
-/

namespace Scaffold.Tree

/-- A resolution with the number of its steps. -/
inductive ResolvesIn (tree : Tree) : Nat → Location → List String → Location → Prop where
  | arrive {here} : ResolvesIn tree 0 here [] here
  | up {steps here rest location} (onward : ResolvesIn tree steps here.dropLast rest location) :
      ResolvesIn tree (steps + 1) here (".." :: rest) location
  | follow {inner outer here name rest target reached location} (proper : name ≠ "..")
      (linked : tree.node? (here ++ [name]) = some (.link target))
      (replaced : ResolvesIn tree inner (if (Path.ofText target).isAbsolute then [] else here)
        (Path.ofText target).parts reached)
      (onward : ResolvesIn tree outer reached rest location) :
      ResolvesIn tree (inner + outer + 1) here (name :: rest) location
  | down {steps here name rest location} (proper : name ≠ "..")
      (unlinked : ∀ target, tree.node? (here ++ [name]) ≠ some (.link target))
      (onward : ResolvesIn tree steps (here ++ [name]) rest location) :
      ResolvesIn tree (steps + 1) here (name :: rest) location

variable {tree : Tree} {steps others : Nat} {here location other reached : Location} {names : List String}
  {path : Path}

/-- Every resolution has a number of steps. -/
theorem Resolves.exists_steps (resolves : tree.Resolves here names location) :
    ∃ steps, tree.ResolvesIn steps here names location := by
  induction resolves with
  | arrive => exact ⟨0, .arrive⟩
  | up onward inductionHypothesis =>
      obtain ⟨steps, further⟩ := inductionHypothesis
      exact ⟨steps + 1, .up further⟩
  | follow proper linked replaced onward first second =>
      obtain ⟨inner, replaces⟩ := first
      obtain ⟨outer, further⟩ := second
      exact ⟨inner + outer + 1, .follow proper linked replaces further⟩
  | down proper unlinked onward inductionHypothesis =>
      obtain ⟨steps, further⟩ := inductionHypothesis
      exact ⟨steps + 1, .down proper unlinked further⟩

/-- The number of the steps and the end are determined. -/
theorem ResolvesIn.unique (first : tree.ResolvesIn steps here names location)
    (second : tree.ResolvesIn others here names other) : steps = others ∧ location = other := by
  induction first generalizing others other with
  | arrive =>
      cases second
      exact ⟨rfl, rfl⟩
  | up onward inductionHypothesis =>
      cases second with
      | up again =>
          obtain ⟨rfl, same⟩ := inductionHypothesis again
          exact ⟨rfl, same⟩
      | follow proper => exact absurd rfl proper
      | down proper => exact absurd rfl proper
  | follow proper linked replaced onward inner outer =>
      cases second with
      | up => exact absurd rfl proper
      | follow _ linkedToo replacedToo again =>
          obtain rfl := Node.link.inj (Option.some.inj (linked.symm.trans linkedToo))
          obtain ⟨rfl, rfl⟩ := inner replacedToo
          obtain ⟨rfl, same⟩ := outer again
          exact ⟨rfl, same⟩
      | down _ unlinked => exact absurd linked (unlinked _)
  | down proper unlinked onward inductionHypothesis =>
      cases second with
      | up => exact absurd rfl proper
      | follow _ linked => exact absurd linked (unlinked _)
      | down _ _ again =>
          obtain ⟨rfl, same⟩ := inductionHypothesis again
          exact ⟨rfl, same⟩

/-- Replacing any of some links takes at least a number of steps. -/
def TakesAtLeast (tree : Tree) (steps : Nat) (opened : List Location) : Prop :=
  ∀ folder name target inner reached, folder ++ [name] ∈ opened →
    tree.node? (folder ++ [name]) = some (.link target) →
    tree.ResolvesIn inner (if (Path.ofText target).isAbsolute then [] else folder)
      (Path.ofText target).parts reached → steps ≤ inner

/-- Fewer steps are taken too. -/
theorem TakesAtLeast.mono {opened : List Location} (takes : tree.TakesAtLeast steps opened)
    (fewer : others ≤ steps) : tree.TakesAtLeast others opened :=
  fun folder name target inner reached member linked replaced =>
    Nat.le_trans fewer (takes folder name target inner reached member linked replaced)

/-- A resolution that is no longer than the replacement of any link that is open does not meet one of
them. -/
theorem ResolvesIn.resolveFrom_eq {opened : List Location} (resolves : tree.ResolvesIn steps here names location)
    (takes : tree.TakesAtLeast steps opened) : tree.resolveFrom opened here names = (location, true) := by
  induction resolves generalizing opened with
  | arrive => rw [resolveFrom]
  | up onward inductionHypothesis =>
      rw [resolveFrom, if_pos (by rfl)]
      exact inductionHypothesis (takes.mono (Nat.le_succ _))
  | @follow inner outer here name rest target reached location proper linked replaced onward first second =>
      have closed : ¬opened.contains (here ++ [name]) = true := by
        intro isOpen
        have longer := takes here name target inner reached (by simpa using isOpen) linked replaced
        omega
      have insideTakes : tree.TakesAtLeast inner ((here ++ [name]) :: opened) := by
        intro folder other target' inner' reached' member linked' replaced'
        rcases List.mem_cons.mp member with same | isOpen
        · obtain ⟨rfl, lastSame⟩ := List.append_inj' same rfl
          obtain rfl := (List.cons.inj lastSame).1
          obtain rfl := Node.link.inj (Option.some.inj (linked.symm.trans linked'))
          exact Nat.le_of_eq (replaced.unique replaced').1
        · have longer := takes folder other target' inner' reached' isOpen linked' replaced'
          omega
      rw [resolveFrom_link (by simpa using proper) linked, if_neg closed, first insideTakes]
      exact second (takes.mono (by omega))
  | down proper unlinked onward inductionHypothesis =>
      rw [resolveFrom_unlinked (by simpa using proper) unlinked]
      exact inductionHypothesis (takes.mono (Nat.le_succ _))

/-- A resolution that ends is not given up. -/
theorem Resolves.resolveFrom_eq (resolves : tree.Resolves here names location) :
    tree.resolveFrom [] here names = (location, true) := by
  obtain ⟨steps, counted⟩ := resolves.exists_steps
  exact counted.resolveFrom_eq fun _ _ _ _ _ member => absurd member List.not_mem_nil

/-- A path without null characters is resolved to what it resolves to. -/
theorem Resolves.resolve_eq (resolves : tree.Resolves (tree.startOf path) path.parts location)
    (proper : (path.parts.any fun part => part.toList.contains '\x00') = false) :
    tree.resolve path = .ok location := by
  rw [resolve, if_neg (by simp only [proper, Bool.false_eq_true, not_false_iff]), resolves.resolveFrom_eq]

/-- What a path is resolved to is what it resolves to. -/
theorem Resolves.eq_of_resolve (resolves : tree.Resolves (tree.startOf path) path.parts location)
    (found : tree.resolve path = .ok other) : other = location := by
  unfold resolve at found
  split at found
  next => cases found
  next =>
    rw [resolves.resolveFrom_eq] at found
    exact (Except.ok.inj found).symm

/-- Names that are followed one part after the other are followed in one go. -/
theorem Resolves.append {rest : List String} (first : tree.Resolves here names reached)
    (second : tree.Resolves reached rest location) : tree.Resolves here (names ++ rest) location := by
  induction first with
  | arrive => exact second
  | up _ inductionHypothesis => exact .up (inductionHypothesis second)
  | follow proper linked replaced _ _ inductionHypothesis =>
      exact .follow proper linked replaced (inductionHypothesis second)
  | down proper unlinked _ inductionHypothesis => exact .down proper unlinked (inductionHypothesis second)

/-! ## The path of a location -/

/-- Above a node there are folders. -/
theorem WellFormed.folder_above {node : Node} (wellFormed : tree.WellFormed) (nonempty : names ≠ [])
    (stands : tree.node? (here ++ names) = some node) : tree.node? here = some .folder := by
  induction names generalizing here with
  | nil => exact absurd rfl nonempty
  | cons name rest inductionHypothesis =>
      rw [List.append_cons] at stands
      by_cases last : rest = []
      · rw [last, List.append_nil] at stands
        exact wellFormed.above stands
      · exact wellFormed.above (inductionHypothesis last stands)

/-- What relative paths start from is resolved if it holds no double dots. -/
theorem WellFormed.isResolved_home (wellFormed : tree.WellFormed) (straight : ".." ∉ tree.home) :
    tree.IsResolved tree.home := by
  refine ⟨straight, fun above front target linked => ?_⟩
  obtain ⟨rest, whole⟩ := front
  have folder : tree.node? above = some .folder := by
    by_cases last : rest = []
    · rw [last, List.append_nil] at whole
      rw [whole, wellFormed.home]
    · have stands : tree.node? (above ++ rest) = some .folder := by rw [whole, wellFormed.home]
      exact wellFormed.folder_above last stands
  rw [folder] at linked
  cases linked

/-- Names that lead down to a file are walked unless one of them is too long. -/
theorem WellFormed.walk_file {content : ByteArray} (wellFormed : tree.WellFormed) (straight : ".." ∉ names)
    (stands : tree.node? (here ++ names) = some (.file content)) (links : Nat) :
    tree.walk true links here names
      = if names.any fun name => maxName < name.utf8ByteSize then .error .nameTooLong
        else .ok (here ++ names) := by
  induction names generalizing here with
  | nil => simp [walk]
  | cons name rest inductionHypothesis =>
      have folder := wellFormed.folder_above (List.cons_ne_nil name rest) stands
      have split : here ++ name :: rest = here ++ [name] ++ rest := by simp
      rw [split] at stands ⊢
      have proper : (name == "..") = false := by
        rw [beq_eq_false_iff_ne]
        rintro rfl
        exact straight (by simp)
      have further := inductionHypothesis (fun member => straight (List.mem_cons_of_mem _ member)) stands
      have next : ∃ node, tree.node? (here ++ [name]) = some node ∧ ∀ target, node ≠ .link target := by
        by_cases last : rest = []
        · rw [last, List.append_nil] at stands
          exact ⟨_, stands, fun _ => Node.noConfusion⟩
        · exact ⟨_, wellFormed.folder_above last stands, fun _ => Node.noConfusion⟩
      obtain ⟨node, present, unlinked⟩ := next
      rw [walk, folder]
      by_cases long : maxName < name.utf8ByteSize
      · simp [proper, long]
      · cases node with
        | link target => exact absurd rfl (unlinked target)
        | file _ | folder => simp [proper, long, present, further]

/-- Why the path of a location cannot be walked, whatever stands there. -/
def pathDefect? (location : Location) : Option FileCause :=
  if (pathOf location).parts.any fun part => part.toList.contains '\x00' then some .nullCharacter
  else if maxPath < (pathOf location).text.utf8ByteSize then some .nameTooLong
  else if location.any fun name => maxName < name.utf8ByteSize then some .nameTooLong
  else none

/-- Whether the path of a location leads to the file that stands there does not depend on the tree. -/
theorem WellFormed.locate_pathOf {content : ByteArray} (wellFormed : tree.WellFormed)
    (straight : ".." ∉ location) (stands : tree.node? location = some (.file content)) :
    tree.locate true (pathOf location)
      = match pathDefect? location with
        | some cause => .error cause
        | none => .ok location := by
  have fromRoot : tree.node? ([] ++ location) = some (.file content) := stands
  have walked := wellFormed.walk_file straight fromRoot maxLinks
  unfold locate pathDefect?
  split
  next => rfl
  next =>
    split
    next => rfl
    next =>
      refine walked.trans ?_
      split <;> rfl

/-- So what is found at the path is the same in every tree with the same file. -/
theorem WellFormed.look_pathOf {content : ByteArray} (wellFormed : tree.WellFormed)
    (straight : ".." ∉ location) (stands : tree.node? location = some (.file content)) :
    tree.look (pathOf location)
      = match pathDefect? location with
        | some cause => .error cause
        | none => .ok (.file content) := by
  have located := wellFormed.locate_pathOf straight stands
  cases defect : pathDefect? location with
  | some cause =>
      rw [defect] at located
      rw [look, located]
      rfl
  | none =>
      rw [defect] at located
      exact look_eq_ok_iff.mpr ⟨location, located, stands⟩

/-! ## Straight paths -/

variable {grown written : Tree} {text : String}

/-- Removing double dots leaves none. -/
theorem notMem_collapse (names : List String) : ".." ∉ collapse names := by
  have step : ∀ done : Location, ".." ∉ done →
      ".." ∉ names.foldl (fun done name => if name == ".." then done.dropLast else done ++ [name]) done := by
    induction names with
    | nil => exact fun done straight => straight
    | cons name rest inductionHypothesis =>
        intro done straight
        refine inductionHypothesis _ ?_
        dsimp only
        split
        next => exact fun member => straight (List.dropLast_subset _ member)
        next proper =>
          rw [List.mem_append, List.mem_singleton, not_or]
          exact ⟨straight, fun same => proper (by simp [← same])⟩
  exact step [] List.not_mem_nil

/-- A path under a location is absolute. -/
theorem isAbsolute_join (home : Location) (path : Path) : ((pathOf home).join path).isAbsolute = true := by
  unfold Path.join
  split
  next absolute => exact absolute
  next => rfl

/-- The location of an absolute path holds no double dots. -/
theorem straight_of_resolve (absolute : path.isAbsolute = true) (found : tree.resolve path = .ok location) :
    ".." ∉ location := by
  unfold resolve at found
  split at found
  next => cases found
  next =>
    split at found
    next reached ended =>
      obtain rfl := Except.ok.inj found
      have resolves := resolves_resolveFrom tree [] (tree.startOf path) path.parts (by rw [ended])
      rw [ended] at resolves
      refine (resolves.isResolved ?_).straight
      rw [startOf, if_pos absolute]
      exact isResolved_root tree
    next stuck _ =>
      dsimp only at found
      split at found
      next => cases found
      next =>
        obtain rfl := Except.ok.inj found
        exact notMem_collapse stuck

/-- A name in a folder that is no link leads down. -/
theorem Leads.eq_child {links : Nat} {folder : Location} {name : String}
    (above : tree.Leads true links here names folder)
    (below : tree.Leads true links here (names ++ [name]) location) (proper : name ≠ "..")
    (unlinked : ∀ target, tree.node? (folder ++ [name]) ≠ some (.link target)) :
    location = folder ++ [name] := by
  obtain ⟨reached, first, second⟩ := below.resolves.split
  obtain rfl := first.unique above.resolves
  exact second.unique (.down proper unlinked .arrive)

/-- Nothing was below a folder that was made. -/
theorem AddsFolders.free_of_parent {folder : Location} (adds : AddsFolders tree grown)
    (wellFormed : tree.WellFormed) (straight : ".." ∉ path.parts) (nonempty : path.parts ≠ [])
    (free : tree.node? folder = none) (above : grown.locate true path.parent = .ok folder)
    (below : grown.locate true path = .ok location) : tree.node? location = none := by
  obtain ⟨names, name, last⟩ := (List.eq_nil_or_concat path.parts).resolve_left nonempty
  rw [List.concat_eq_append] at last
  have proper : name ≠ ".." := by
    rintro rfl
    exact straight (by simp [last])
  have noChild : ∀ node, tree.node? (folder ++ [name]) ≠ some node := by
    intro node stands
    rw [wellFormed.above stands] at free
    cases free
  have onto := (locate_eq_ok_iff.mp above).2.2
  have further := (locate_eq_ok_iff.mp below).2.2
  have parent : path.parent.parts = names := by simp [Path.parent, last]
  rw [parent] at onto
  rw [last] at further
  obtain rfl := onto.eq_child further proper fun target linked =>
    noChild _ ((adds.sameLinks.link _ target).mp linked)
  exact Option.eq_none_iff_forall_ne_some.mpr noChild

/-- A folder is made where nothing stands. -/
theorem WellFormed.free_of_makeFolder (wellFormed : tree.WellFormed)
    (made : tree.makeFolder path = .ok grown) :
    ∃ folder, grown.locate true path = .ok folder ∧ tree.node? folder = none := by
  unfold Tree.makeFolder at made
  split at made
  next => cases made
  next folder located =>
    split at made
    next => cases made
    next free =>
      obtain rfl := Except.ok.inj made
      exact ⟨folder, (wellFormed.put_located .folder located (.inl free) fun _ => Node.noConfusion).1, free⟩

/-- Making the folders of a straight path makes the last one of them, unless all of them are there. -/
theorem WellFormed.new_of_makeFolders (wellFormed : tree.WellFormed) (straight : ".." ∉ path.parts)
    (made : tree.makeFolders path = (.ok (), grown)) :
    (tree.look path = .ok .folder ∧ grown = tree)
      ∨ ∃ folder, grown.locate true path = .ok folder ∧ tree.node? folder = none := by
  fun_induction Tree.makeFolders tree path generalizing grown with
  | case1 path complete makes =>
      obtain rfl := (Prod.mk.inj made).2
      exact .inr (wellFormed.free_of_makeFolder makes)
  | case2 path error failed known =>
      obtain ⟨accepted, rfl⟩ := Prod.mk.inj made
      exact .inl ⟨acceptFolder_eq_ok_iff.mp accepted, rfl⟩
  | case3 => cases made
  | case4 => cases made
  | case5 path error failed missing nonempty between ended complete makes =>
      obtain rfl := (Prod.mk.inj made).2
      have before := wellFormed.makeFolders path.parent
      have adds := addsFolders_makeFolders tree path.parent
      rw [ended] at before adds
      obtain ⟨folder, located, free⟩ := before.wellFormed.free_of_makeFolder makes
      refine .inr ⟨folder, located, Option.eq_none_iff_forall_ne_some.mpr fun node stands => ?_⟩
      rw [adds.node?_of_some stands] at free
      cases free
  | case6 => cases made
  | case7 path error failed missing nonempty between ended last refused known inductionHypothesis =>
      obtain ⟨accepted, rfl⟩ := Prod.mk.inj made
      have straightParent : ".." ∉ path.parent.parts := fun member =>
        straight (List.dropLast_subset _ member)
      rcases inductionHypothesis straightParent ended with ⟨_, rfl⟩ | ⟨folder, above, free⟩
      · obtain rfl := Except.error.inj (failed.symm.trans refused)
        simp_all
      · have adds := addsFolders_makeFolders tree path.parent
        rw [ended] at adds
        obtain ⟨location, below, _⟩ := look_eq_ok_iff.mp (acceptFolder_eq_ok_iff.mp accepted)
        exact .inr ⟨location, below,
          adds.free_of_parent wellFormed straight (by simpa using nonempty) free above below⟩

/-- A text that is written at a straight path is put in the place of the file that the path led to, or where
nothing stood. -/
theorem WellFormed.place_of_writeBelow (wellFormed : tree.WellFormed) (straight : ".." ∉ path.parts)
    (saved : tree.writeBelow path text = (.ok (), written)) :
    ∃ grown location, AddsFolders tree grown ∧ written = grown.put location (.file text.toUTF8)
      ∧ written.locate true path = .ok location
      ∧ (tree.node? location = none ∨ tree.locate true path = .ok location) := by
  unfold Tree.writeBelow at saved
  split at saved
  next => cases saved
  next grown made =>
    split at saved
    next => cases saved
    next complete wrote =>
      obtain rfl := (Prod.mk.inj saved).2
      have adds := addsFolders_makeFolders tree path.parent
      have stillFormed := (wellFormed.makeFolders path.parent).wellFormed
      rw [made] at adds stillFormed
      obtain ⟨location, located, rfl, replaced⟩ := stillFormed.place_of_write wrote
      have found := (stillFormed.put_located (.file text.toUTF8) located replaced
        fun _ => Node.noConfusion).1
      refine ⟨grown, location, adds, rfl, found, ?_⟩
      have straightParent : ".." ∉ path.parent.parts := fun member =>
        straight (List.dropLast_subset _ member)
      rcases wellFormed.new_of_makeFolders straightParent made with ⟨_, rfl⟩ | ⟨folder, above, free⟩
      · exact .inr located
      · refine .inl (adds.free_of_parent wellFormed straight (fun empty => ?_) free above located)
        have leads := (locate_eq_ok_iff.mp located).2.2
        rw [empty] at leads
        cases leads
        rcases replaced with none | ⟨_, file⟩ <;> simp_all [stillFormed.start path]

end Scaffold.Tree
