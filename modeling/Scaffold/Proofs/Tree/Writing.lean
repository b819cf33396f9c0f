import Scaffold.Proofs.Text.Lines
import Scaffold.Proofs.Tree.Walk

/-!
# What writing leaves

A node that is put at a location is found there, and the paths that led there still do (`Leads.put`).
So a folder that was made is a folder, a file that was written is read back, and making folders that
cannot be made leaves nothing to be made by another attempt.
-/

namespace Scaffold.Tree

variable {tree : Tree} {location other : Location} {node : Node}

/-- The node at a location that is not the root is the first one in the table. -/
theorem node?_of_ne (nonempty : location ≠ []) :
    tree.node? location = (tree.nodes.find? fun entry => entry.1 == location).map (·.2) := by
  rw [node?, if_neg (by simpa using nonempty)]

/-- The node that was put at a location is found there. -/
theorem node?_put_self (nonempty : location ≠ []) :
    (tree.put location node).node? location = some node := by
  rw [node?_of_ne nonempty, put]
  split
  next present =>
    dsimp only
    generalize tree.nodes = nodes at present
    induction nodes with
    | nil => simp at present
    | cons entry rest inductionHypothesis =>
        by_cases here : entry.1 = location
        · simp [here]
        · simp only [List.any_cons, beq_eq_false_iff_ne.mpr here, Bool.false_or] at present
          simpa [here] using inductionHypothesis present
  next absent =>
    have none : (tree.nodes.find? fun entry => entry.1 == location) = none := by
      rw [List.find?_eq_none]
      intro entry member same
      exact absent (List.any_eq_true.mpr ⟨entry, member, same⟩)
    simp [List.find?_append, none]

/-- Putting a node at a location leaves the others. -/
theorem node?_put_of_ne (differ : other ≠ location) :
    (tree.put location node).node? other = tree.node? other := by
  by_cases root : other = []
  · simp [node?, root]
  rw [node?_of_ne root, node?_of_ne root, put]
  split
  next =>
    dsimp only
    induction tree.nodes with
    | nil => rfl
    | cons entry rest inductionHypothesis =>
        by_cases here : entry.1 = location
        · simpa [here, Ne.symm differ] using inductionHypothesis
        · by_cases found : entry.1 = other
          · simp [found, differ]
          · simpa [here, found] using inductionHypothesis
  next => simp [List.find?_append, Ne.symm differ]

/-- Relative paths start where they did. -/
@[simp] theorem home_put : (tree.put location node).home = tree.home := by
  unfold put
  split <;> rfl

/-- Of two nodes put at a location the second stays. -/
theorem put_put (first second : Node) :
    (tree.put location first).put location second = tree.put location second := by
  have key : ∀ entry : Location × Node,
      ((if entry.1 == location then (location, first) else entry).1 == location)
        = (entry.1 == location) := by
    intro entry
    by_cases here : entry.1 = location <;> simp [here]
  unfold put
  by_cases present : (tree.nodes.any fun entry => entry.1 == location) = true
  · have again : ((tree.nodes.map fun entry => if entry.1 == location then (location, first) else entry).any
        fun entry => entry.1 == location) = true := by
      rw [List.any_map]
      simpa only [Function.comp_def, key] using present
    simp only [present, again, if_true, List.map_map, Function.comp_def, key]
    congr 1
    refine List.map_congr_left fun entry _ => ?_
    by_cases here : entry.1 = location <;> simp [here]
  · have last : ((tree.nodes ++ [(location, first)]).any fun entry => entry.1 == location) = true := by
      simp
    have others : (tree.nodes.map fun entry => if entry.1 == location then (location, second) else entry)
        = tree.nodes := by
      refine (List.map_congr_left fun entry member => ?_).trans (List.map_id _)
      have differ : ¬entry.1 == location := fun same =>
        present (List.any_eq_true.mpr ⟨entry, member, same⟩)
      rw [if_neg differ]
      rfl
    rw [if_neg present]
    dsimp only
    rw [if_pos last, if_neg present, List.map_append, others]
    simp

/-- Every node stands in a folder, and so does what relative paths start from. -/
structure WellFormed (tree : Tree) : Prop where
  home : tree.node? tree.home = some .folder
  above : ∀ {folder name node},
    tree.node? (folder ++ [name]) = some node → tree.node? folder = some .folder

/-- A walk that does not start at a link ends at none that it would follow. -/
theorem Leads.unlinked {links : Nat} {here : Location} {names : List String}
    (leads : tree.Leads true links here names location) (wellFormed : tree.WellFormed)
    (start : ∀ target, tree.node? here ≠ some (.link target)) :
    ∀ target, tree.node? location ≠ some (.link target) := by
  induction leads with
  | arrive => exact start
  | @up links here rest location stands onward inductionHypothesis =>
      refine inductionHypothesis fun target => ?_
      rcases List.eq_nil_or_concat here with rfl | ⟨folder, name, rfl⟩
      · exact start target
      · rw [List.concat_eq_append] at stands ⊢
        rw [List.dropLast_concat, wellFormed.above stands]
        exact nofun
  | missing _ _ _ free => simp [free]
  | stay _ _ _ _ ends => cases ends
  | follow stands _ _ _ _ _ inductionHypothesis =>
      refine inductionHypothesis fun target => ?_
      split
      · exact nofun
      · rw [stands]
        exact nofun
  | down stands _ _ present plain _ inductionHypothesis =>
      refine inductionHypothesis fun target => ?_
      rw [present]
      exact fun same => plain target (Option.some.inj same)

/-- What led to a location with no folder and no link still leads there when a node that is no link is put
there. -/
theorem Leads.put {followLast : Bool} {links : Nat} {here : Location} {names : List String}
    (leads : tree.Leads followLast links here names location) (nonempty : location ≠ [])
    (replaced : tree.node? location = none ∨ ∃ content, tree.node? location = some (.file content))
    (unlinked : ∀ target, node ≠ .link target) :
    (tree.put location node).Leads true links here names location := by
  have kept : ∀ {other standing}, tree.node? other = some standing →
      (∀ content, standing ≠ .file content) → (tree.put location node).node? other = some standing := by
    intro other standing stands noFile
    rw [node?_put_of_ne, stands]
    rintro rfl
    rcases replaced with none | ⟨content, file⟩
    · rw [none] at stands
      cases stands
    · exact noFile content (Option.some.inj (stands.symm.trans file))
  have folder : ∀ {other}, tree.node? other = some .folder →
      (tree.put location node).node? other = some .folder :=
    fun stands => kept stands fun _ => Node.noConfusion
  have found : (tree.put location node).node? location = some node := node?_put_self nonempty
  induction leads with
  | arrive => exact .arrive
  | up stands onward inductionHypothesis =>
      exact .up (folder stands) (inductionHypothesis nonempty replaced kept folder found)
  | missing stands proper short free =>
      exact .down (folder stands) proper short found unlinked .arrive
  | stay stands proper short linked ends =>
      rcases replaced with none | ⟨content, file⟩
      · rw [none] at linked
        cases linked
      · rw [file] at linked
        cases linked
  | follow stands proper short linked goes onward inductionHypothesis =>
      have stillLinked := kept linked fun _ => Node.noConfusion
      exact .follow (folder stands) proper short stillLinked (.inr rfl)
        (inductionHypothesis nonempty replaced kept folder found)
  | @down links here name rest old location stands proper short present plain onward inductionHypothesis =>
      have later := inductionHypothesis nonempty replaced kept folder found
      by_cases same : here ++ [name] = location
      · exact .down (folder stands) proper short (same ▸ found) unlinked later
      · exact .down (folder stands) proper short ((node?_put_of_ne same).trans present) plain later

/-- A walk that starts at a node ends at the root or in a folder. -/
theorem Leads.parent {followLast : Bool} {links : Nat} {here : Location} {names : List String}
    (leads : tree.Leads followLast links here names location) (wellFormed : tree.WellFormed)
    (start : ∃ standing, tree.node? here = some standing) (nonempty : location ≠ []) :
    ∃ folder name, location = folder ++ [name] ∧ tree.node? folder = some .folder := by
  induction leads with
  | @arrive links here =>
      obtain ⟨folder, name, rfl⟩ := (List.eq_nil_or_concat here).resolve_left nonempty
      rw [List.concat_eq_append] at start ⊢
      obtain ⟨standing, present⟩ := start
      exact ⟨folder, name, rfl, wellFormed.above present⟩
  | @up links here rest location stands onward inductionHypothesis =>
      refine inductionHypothesis ?_ nonempty
      rcases List.eq_nil_or_concat here with rfl | ⟨folder, name, rfl⟩
      · exact start
      · rw [List.concat_eq_append] at stands ⊢
        rw [List.dropLast_concat]
        exact ⟨_, wellFormed.above stands⟩
  | missing stands => exact ⟨_, _, rfl, stands⟩
  | stay stands => exact ⟨_, _, rfl, stands⟩
  | follow stands _ _ _ _ _ inductionHypothesis =>
      refine inductionHypothesis ?_ nonempty
      split
      · exact ⟨_, rfl⟩
      · exact ⟨_, stands⟩
  | down _ _ _ present _ _ inductionHypothesis => exact inductionHypothesis ⟨_, present⟩ nonempty

/-- Putting a node in a folder, where no folder stands, keeps every node in a folder. -/
theorem WellFormed.put {folder : Location} {name : String} (wellFormed : tree.WellFormed)
    (stands : tree.node? folder = some .folder) (replaced : tree.node? (folder ++ [name]) ≠ some .folder) :
    (tree.put (folder ++ [name]) node).WellFormed := by
  have kept : ∀ {other}, tree.node? other = some .folder →
      (tree.put (folder ++ [name]) node).node? other = some .folder := by
    intro other present
    rw [node?_put_of_ne, present]
    rintro rfl
    exact replaced present
  refine ⟨by rw [home_put]; exact kept wellFormed.home, fun {inside last found} present => ?_⟩
  by_cases here : inside ++ [last] = folder ++ [name]
  · obtain ⟨rfl, _⟩ := List.append_inj' here rfl
    exact kept stands
  · rw [node?_put_of_ne here] at present
    exact kept (wellFormed.above present)

variable {path : Path}

/-- Paths start at a folder. -/
theorem WellFormed.start (wellFormed : tree.WellFormed) (path : Path) :
    tree.node? (tree.startOf path) = some .folder := by
  unfold startOf
  split
  · rfl
  · exact wellFormed.home

/-- A node that is put where a path leads is what the path leads to. -/
theorem WellFormed.put_located {followLast : Bool} (wellFormed : tree.WellFormed) (node : Node)
    (located : tree.locate followLast path = .ok location)
    (replaced : tree.node? location = none ∨ ∃ content, tree.node? location = some (.file content))
    (unlinked : ∀ target, node ≠ .link target) :
    (tree.put location node).locate true path = .ok location
      ∧ (tree.put location node).node? location = some node
      ∧ (tree.put location node).WellFormed := by
  obtain ⟨proper, short, leads⟩ := locate_eq_ok_iff.mp located
  have noFolder : tree.node? location ≠ some .folder := by
    rcases replaced with none | ⟨content, file⟩
    · simp [none]
    · simp [file]
  have nonempty : location ≠ [] := by
    rintro rfl
    exact noFolder rfl
  obtain ⟨folder, name, rfl, stands⟩ := leads.parent wellFormed ⟨_, wellFormed.start path⟩ nonempty
  refine ⟨locate_eq_ok_iff.mpr ⟨proper, short, ?_⟩, node?_put_self nonempty,
    wellFormed.put stands noFolder⟩
  have start : (tree.put (folder ++ [name]) node).startOf path = tree.startOf path := by
    simp [startOf]
  rw [start]
  exact leads.put nonempty replaced unlinked

/-- A folder that was made is what its path leads to. -/
theorem WellFormed.makeFolder {grown : Tree} (wellFormed : tree.WellFormed)
    (made : tree.makeFolder path = .ok grown) : grown.look path = .ok .folder ∧ grown.WellFormed := by
  unfold Tree.makeFolder at made
  split at made
  next => cases made
  next location located =>
    split at made
    next => cases made
    next free =>
      obtain rfl := Except.ok.inj made
      obtain ⟨again, found, stillFormed⟩ := wellFormed.put_located .folder located (.inl free)
        fun _ => Node.noConfusion
      exact ⟨look_eq_ok_iff.mpr ⟨location, again, found⟩, stillFormed⟩

/-- A failure to make a folder is accepted where the folder is. -/
theorem acceptFolder_eq_ok_iff {error : FileError} :
    tree.acceptFolder path error = .ok () ↔ tree.look path = .ok .folder := by
  unfold acceptFolder isFolder test
  cases found : tree.look path with
  | error cause => cases cause <;> simp [bind, Except.bind]
  | ok node => cases node <;> simp [bind, Except.bind]

/-- What is left after making folders: a well formed tree, in which the path leads to a folder or nothing
more can be made. -/
structure Made (tree : Tree) (path : Path) (outcome : Except FileError Unit) : Prop where
  wellFormed : tree.WellFormed
  folder : outcome = .ok () → tree.look path = .ok .folder
  stuck : ∀ error, outcome = .error error → ∃ again, tree.makeFolders path = (.error again, tree)

/-- Making the folders of a path that leads to none, and whose folder cannot be made for another reason
than a missing parent, ends there. -/
theorem WellFormed.made_of_known {error : FileError} (wellFormed : tree.WellFormed)
    (failed : tree.makeFolder path = .error error) (known : (error.cause != .notFound) = true) :
    Made tree path (tree.acceptFolder path error) := by
  refine ⟨wellFormed, acceptFolder_eq_ok_iff.mp, fun last refused => ⟨last, ?_⟩⟩
  rw [Tree.makeFolders, failed]
  dsimp only
  rw [if_pos known, refused]

/-- A path whose parent's folders cannot be made has no folders that can be made. -/
theorem makeFolders_of_parent {error : FileError} (nonempty : path.parts ≠ [])
    (stuck : tree.makeFolders path.parent = (.error error, tree)) :
    ∃ again, tree.makeFolders path = (.error again, tree) := by
  have noParent : tree.look path.parent ≠ .ok .folder := by
    intro found
    rw [makeFolders_of_look found] at stuck
    cases stuck
  rw [Tree.makeFolders]
  cases made : tree.makeFolder path with
  | ok complete =>
      unfold makeFolder at made
      cases located : tree.locate false path with
      | ok location => exact absurd (look_parent located nonempty) noParent
      | error cause => simp [located] at made
  | error last =>
      dsimp only
      split
      next known =>
        cases accepted : tree.acceptFolder path last with
        | error again => exact ⟨again, rfl⟩
        | ok =>
            obtain ⟨location, located, _⟩ := look_eq_ok_iff.mp (acceptFolder_eq_ok_iff.mp accepted)
            exact absurd (look_parent located nonempty) noParent
      next =>
        rw [if_neg (by simpa using nonempty), stuck]
        exact ⟨error, rfl⟩

/-- Making folders leaves the folder, or nothing more to make. -/
theorem WellFormed.makeFolders (wellFormed : tree.WellFormed) (path : Path) :
    Made (tree.makeFolders path).2 path (tree.makeFolders path).1 := by
  fun_induction Tree.makeFolders tree path with
  | case1 path grown made =>
      obtain ⟨found, stillFormed⟩ := wellFormed.makeFolder made
      exact ⟨stillFormed, fun _ => found, by simp⟩
  | case2 path error failed known => exact wellFormed.made_of_known failed known
  | case3 path error failed missing empty =>
      refine ⟨wellFormed, by simp, fun _ _ => ⟨error, ?_⟩⟩
      rw [Tree.makeFolders, failed]
      dsimp only
      rw [if_neg missing, if_pos empty]
  | case4 path error failed missing nonempty inner grown ended inductionHypothesis =>
      rw [ended] at inductionHypothesis
      obtain ⟨again, stuck⟩ := inductionHypothesis.stuck inner rfl
      exact ⟨inductionHypothesis.wellFormed, by simp, fun _ _ =>
        makeFolders_of_parent (by simpa using nonempty) stuck⟩
  | case5 path error failed missing nonempty grown ended complete made inductionHypothesis =>
      rw [ended] at inductionHypothesis
      obtain ⟨found, stillFormed⟩ := inductionHypothesis.wellFormed.makeFolder made
      exact ⟨stillFormed, fun _ => found, by simp⟩
  | case6 path error failed missing nonempty grown ended last refused unknown inductionHypothesis =>
      rw [ended] at inductionHypothesis
      refine ⟨inductionHypothesis.wellFormed, by simp, fun _ same => ⟨last, ?_⟩⟩
      have parent := makeFolders_of_look (inductionHypothesis.folder rfl)
      rw [Tree.makeFolders, refused]
      dsimp only
      rw [if_neg (by simpa using unknown), if_neg nonempty, parent]
      simp only [refused, unknown, if_true]
  | case7 path error failed missing nonempty grown ended last refused known inductionHypothesis =>
      rw [ended] at inductionHypothesis
      exact inductionHypothesis.wellFormed.made_of_known refused (by simpa using known)

/-! ## Files -/

variable {content : ByteArray} {text : String} {written : Tree}

/-- A path that leads to a file has names. -/
theorem WellFormed.parts_ne_nil (wellFormed : tree.WellFormed)
    (located : tree.locate true path = .ok location)
    (file : tree.node? location = some (.file content)) : path.parts ≠ [] := by
  intro empty
  obtain ⟨_, _, leads⟩ := locate_eq_ok_iff.mp located
  rw [empty] at leads
  cases leads
  rw [wellFormed.start path] at file
  cases file

/-- A file that a path leads to is written in its place. -/
theorem WellFormed.writeBelow_of_file (wellFormed : tree.WellFormed)
    (located : tree.locate true path = .ok location)
    (file : tree.node? location = some (.file content)) (text : String) :
    tree.writeBelow path text = (.ok (), tree.put location (.file text.toUTF8)) := by
  have saved : tree.write path text.toUTF8 = .ok (tree.put location (.file text.toUTF8)) := by
    simp [write, located, file]
  rw [writeBelow, makeFolders_of_look (look_parent located (wellFormed.parts_ne_nil located file))]
  dsimp only
  rw [saved]

/-- A file is written where nothing stands or in the place of a file. -/
theorem WellFormed.place_of_write (wellFormed : tree.WellFormed)
    (saved : tree.write path content = .ok written) :
    ∃ location, tree.locate true path = .ok location ∧ written = tree.put location (.file content)
      ∧ (tree.node? location = none ∨ ∃ content, tree.node? location = some (.file content)) := by
  unfold Tree.write at saved
  split at saved
  next => cases saved
  next location located =>
    obtain ⟨_, _, leads⟩ := locate_eq_ok_iff.mp located
    have unlinked := leads.unlinked wellFormed fun target => by
      rw [wellFormed.start path]
      simp
    split at saved
    next => cases saved
    next notFolder =>
      refine ⟨location, located, (Except.ok.inj saved).symm, ?_⟩
      cases found : tree.node? location with
      | none => exact .inl rfl
      | some node =>
          cases node with
          | file content => exact .inr ⟨content, rfl⟩
          | folder => exact absurd found notFolder
          | link target => exact absurd found (unlinked target)

/-- The path of a file that was written leads to it. -/
theorem WellFormed.write (wellFormed : tree.WellFormed) (saved : tree.write path content = .ok written) :
    ∃ location, written = tree.put location (.file content)
      ∧ written.locate true path = .ok location
      ∧ written.node? location = some (.file content) ∧ written.WellFormed := by
  obtain ⟨location, located, rfl, replaced⟩ := wellFormed.place_of_write saved
  exact ⟨location, rfl, wellFormed.put_located (.file content) located replaced fun _ => Node.noConfusion⟩

/-- A file that was written is what its path leads to. -/
theorem WellFormed.writeBelow (wellFormed : tree.WellFormed)
    (saved : tree.writeBelow path text = (.ok (), written)) :
    ∃ (base : Tree) (location : Location), written = base.put location (.file text.toUTF8)
      ∧ written.locate true path = .ok location
      ∧ written.node? location = some (.file text.toUTF8) ∧ written.WellFormed := by
  have made := wellFormed.makeFolders path.parent
  unfold Tree.writeBelow at saved
  split at saved
  next => cases saved
  next grown ended =>
    rw [ended] at made
    split at saved
    next => cases saved
    next complete wrote =>
      obtain rfl : complete = written := (Prod.mk.inj saved).2
      exact ⟨grown, made.wellFormed.write wrote⟩

/-- Saving a value makes the folders above its path, and may write the file after that. -/
theorem saveJson_snd (tree : Tree) (path : Path) (value : Value) :
    (tree.saveJson path value).2 = (tree.makeFolders path.parent).2
      ∨ ∃ content written, (tree.makeFolders path.parent).2.write path content = .ok written
        ∧ (tree.saveJson path value).2 = written := by
  unfold saveJson
  split
  next inner grown ended => exact .inl (by rw [ended])
  next grown ended =>
    rw [ended]
    split
    next =>
      split
      next =>
        split
        next => exact .inl rfl
        next emptied opened => exact .inr ⟨_, emptied, opened, rfl⟩
      next => exact .inl rfl
    next =>
      split
      next => exact .inl rfl
      next written saved => exact .inr ⟨_, written, saved, rfl⟩

/-- Saving a value keeps every node in a folder. -/
theorem WellFormed.saveJson (wellFormed : tree.WellFormed) (path : Path) (value : Value) :
    (tree.saveJson path value).2.WellFormed := by
  have made := (wellFormed.makeFolders path.parent).wellFormed
  rcases saveJson_snd tree path value with same | ⟨content, written, saved, same⟩
  · rwa [same]
  · obtain ⟨_, _, _, _, formed⟩ := made.write saved
    rwa [same]

/-- Where a file could not be written none can be written afterwards. -/
theorem WellFormed.writeBelow_stuck {error : FileError} (wellFormed : tree.WellFormed)
    (refused : tree.writeBelow path text = (.error error, written)) :
    written.WellFormed ∧ ∀ other, ∃ again, written.writeBelow path other = (.error again, written) := by
  have made := wellFormed.makeFolders path.parent
  unfold Tree.writeBelow at refused
  split at refused
  next inner grown ended =>
    obtain rfl : grown = written := (Prod.mk.inj refused).2
    rw [ended] at made
    obtain ⟨again, stuck⟩ := made.stuck inner rfl
    exact ⟨made.wellFormed, fun other => ⟨again, by rw [Tree.writeBelow, stuck]⟩⟩
  next grown ended =>
    rw [ended] at made
    split at refused
    next last failed =>
      obtain rfl : grown = written := (Prod.mk.inj refused).2
      refine ⟨made.wellFormed, fun other => ?_⟩
      have parent := makeFolders_of_look (made.folder rfl)
      have again : ∃ again, grown.write path other.toUTF8 = .error again := by
        unfold Tree.write at failed ⊢
        split at failed
        next cause located => exact ⟨_, rfl⟩
        next location located =>
          split at failed
          next folder => exact ⟨_, rfl⟩
          next => cases failed
      obtain ⟨again, failedAgain⟩ := again
      exact ⟨again, by rw [Tree.writeBelow, parent]; simp only [failedAgain]⟩
    next => cases refused

/-- A text without carriage returns is read back from its bytes. -/
theorem readText_of_file (found : tree.look path = .ok (.file text.toUTF8))
    (unified : '\r' ∉ text.toList) : tree.readText path = .ok text := by
  have decoded : Text.decode text.toByteArray = .ok text := Text.decode_encode text
  simp [readText, read, found, decoded, Except.mapError, bind, Except.bind, pure, Except.pure,
    Text.unifyLineEnds_of_notMem unified]

end Scaffold.Tree
