import Scaffold.Proofs.Execution.Plans
import Scaffold.Proofs.Template.Composition
import Scaffold.Proofs.Text.Search
import Scaffold.Proofs.Tree.Following

/-!
# Where targets lie

Where no link stands, a path is resolved by its names alone: each double dot goes with the name before it, and
everything else is kept (`resolve_of_unlinked`).  So the resolved location consists of names of the path and of the
folder that it starts from, and what lies below that folder consists of names of the path (`mem_of_mem_drop`).  Proper
names are read back from the path that they are written as (`ofText_text`).

So a target of a text is decided by names alone: the normal form of what the text names has to start with the names of
the project (`Target.inside_eq`).  A target is labelled with the names that remain, which are names of the text and
lead from the project to its path (`ofTemplate_isPlaced`).
-/

namespace Scaffold

/-! ## Paths without links -/

namespace Path

variable {names : List String}

/-- A name that a path can hold and that is not left out of it. -/
def IsName (name : String) : Prop := name ≠ "" ∧ name ≠ "." ∧ '/' ∉ name.toList

/-- The parts of a text are names with characters of the text. -/
theorem mem_partsOf {text : List Char} {name : String} (member : name ∈ partsOf text) :
    IsName name ∧ ∀ c ∈ name.toList, c ∈ text := by
  obtain ⟨piece, among, rfl⟩ := List.mem_map.mp member
  obtain ⟨pieces, shown⟩ := List.mem_filter.mp among
  obtain ⟨whole, inside⟩ := Text.mem_splitAtChar pieces
  simp only [Bool.and_eq_true, bne_iff_ne] at shown
  rw [String.toList_ofList]
  refine ⟨⟨?_, ?_, by rwa [String.toList_ofList]⟩, inside⟩
  · rw [← String.toList_inj.ne, String.toList_ofList]
    exact shown.1
  · rw [← String.toList_inj.ne, String.toList_ofList]
    exact shown.2

/-- A text that starts with a name starts at no root. -/
theorem rootOf_cons {c : Char} (proper : c ≠ '/') (rest : List Char) : rootOf (c :: rest) = .relative := by
  unfold rootOf
  split <;> simp_all

/-- Names are written with slashes between them. -/
theorem toList_text (nonempty : names ≠ []) :
    (text ⟨.relative, names⟩).toList = Text.joinWith ['/'] (names.map String.toList) := by
  have slash : ("/".toList : List Char) = ['/'] := by decide
  have isShown : ¬((PathRoot.relative == .relative) && names.isEmpty) = true := by simpa using nonempty
  rw [text, if_neg isShown, PathRoot.text, String.toList_append, String.toList_intercalate, slash,
    Text.joinWith_eq_intercalate]
  rfl

/-- A name comes first in what is written of it and of other names. -/
theorem rootOf_text {name : String} (proper : IsName name) (rest : List String) :
    rootOf (text ⟨.relative, name :: rest⟩).toList = .relative := by
  obtain ⟨nonempty, _, whole⟩ := proper
  obtain ⟨c, more, characters⟩ := List.exists_cons_of_ne_nil (String.toList_inj.ne.mpr nonempty)
  have first : c ≠ '/' := by
    rintro rfl
    exact whole (by rw [characters]; exact List.mem_cons_self)
  rw [toList_text (List.cons_ne_nil _ _), List.map_cons, characters]
  cases rest <;> exact rootOf_cons first _

/-- Names are read back from the path that they are written as. -/
theorem ofText_text (proper : ∀ name ∈ names, IsName name) :
    ofText (text ⟨.relative, names⟩) = ⟨.relative, names⟩ := by
  match names with
  | [] => decide
  | name :: rest =>
      have pieces : Text.splitAtChar '/' (text ⟨.relative, name :: rest⟩).toList
          = (name :: rest).map String.toList := by
        rw [toList_text (List.cons_ne_nil _ _)]
        exact Text.splitAtChar_joinWith (by simp) (List.forall_mem_map.mpr fun other among => (proper other among).2.2)
      have kept : ∀ piece ∈ (name :: rest).map String.toList, (piece != [] && piece != ['.']) = true := by
        rw [List.forall_mem_map]
        intro other among
        obtain ⟨shown, single, _⟩ := proper other among
        simp only [Bool.and_eq_true, bne_iff_ne]
        exact ⟨fun empty => shown (String.toList_inj.mp empty), fun dot => single (String.toList_inj.mp dot)⟩
      have parts : partsOf (text ⟨.relative, name :: rest⟩).toList = name :: rest := by
        rw [partsOf, pieces, List.filter_eq_self.mpr kept, List.map_map]
        simp [Function.comp_def]
      rw [ofText, parts, rootOf_text (proper name List.mem_cons_self)]

end Path

namespace Tree

variable {tree : Tree} {here names : List String} {path : Path}

/-- Goes to a name in a folder, or to the folder above for double dots. -/
def enter (folder : Location) (name : String) : Location :=
  if name == ".." then folder.dropLast else folder ++ [name]

/-- Names that are entered from the root one after the other. -/
theorem collapse_eq_foldl (names : List String) : collapse names = names.foldl enter [] := rfl

/-- A folder without double dots is entered name by name. -/
theorem foldl_enter_straight (straight : ".." ∉ names) (here : Location) :
    names.foldl enter here = here ++ names := by
  induction names generalizing here with
  | nil => rw [List.foldl_nil, List.append_nil]
  | cons name rest inductionHypothesis =>
      obtain ⟨proper, later⟩ := not_or.mp (List.mem_cons.not.mp straight)
      rw [List.foldl_cons, inductionHypothesis later, enter, if_neg (by simpa using Ne.symm proper)]
      simp

/-- Names behind a folder without double dots are entered from there. -/
theorem collapse_append (straight : ".." ∉ here) (names : List String) :
    collapse (here ++ names) = names.foldl enter here := by
  rw [collapse_eq_foldl, List.foldl_append, foldl_enter_straight straight, List.nil_append]

/-- Behind the length of a folder, only names that were entered stand. -/
theorem mem_of_mem_drop {name : String} {folder : Location} {size : Nat}
    (member : name ∈ (names.foldl enter folder).drop size) : name ∈ folder.drop size ∨ name ∈ names := by
  induction names generalizing folder with
  | nil => exact .inl member
  | cons first rest inductionHypothesis =>
      rcases inductionHypothesis member with here | later
      · unfold enter at here
        split at here
        · exact .inl (((List.dropLast_prefix folder).drop size).subset here)
        · rw [List.drop_append] at here
          rcases List.mem_append.mp here with before | last
          · exact .inl before
          · exact .inr (List.mem_cons.mpr (.inl (List.mem_singleton.mp (List.mem_of_mem_drop last))))
      · exact .inr (List.mem_cons_of_mem first later)

/-- The absolute form of a path, each double dot removed together with the name before it. -/
def normalForm (tree : Tree) (path : Path) : Location := collapse (tree.startOf path ++ path.parts)

/-- The normal form consists of names of the path and of the folder it starts from. -/
theorem mem_of_mem_normalForm {name : String} (member : name ∈ tree.normalForm path) :
    name ∈ tree.startOf path ++ path.parts := by
  have inside : name ∈ ((tree.startOf path ++ path.parts).foldl enter []).drop 0 := member
  simpa using mem_of_mem_drop inside

/-- Where no link stands, names are entered one after the other. -/
theorem resolveFrom_of_unlinked (unlinked : ∀ location target, tree.node? location ≠ some (.link target))
    (opened : List Location) (here : Location) (names : List String) :
    tree.resolveFrom opened here names = (names.foldl enter here, true) := by
  induction names generalizing here with
  | nil => rw [resolveFrom, List.foldl_nil]
  | cons name rest inductionHypothesis =>
      rw [List.foldl_cons, enter]
      by_cases up : (name == "..") = true
      · rw [resolveFrom, if_pos up, if_pos up, inductionHypothesis]
      · rw [resolveFrom_unlinked up (unlinked _), if_neg up, inductionHypothesis]

/-- Where no link stands, a path is resolved to its normal form, unless it holds a null character. -/
theorem resolve_of_unlinked (unlinked : ∀ location target, tree.node? location ≠ some (.link target))
    (straight : ".." ∉ tree.startOf path) (proper : ∀ part ∈ path.parts, '\x00' ∉ part.toList) :
    tree.resolve path = .ok (tree.normalForm path) := by
  have allowed : ¬(path.parts.any fun part => part.toList.contains '\x00') = true := by
    simpa using proper
  rw [resolve, if_neg allowed, resolveFrom_of_unlinked unlinked, normalForm, collapse_append straight]

end Tree

/-! ## Targets -/

namespace Target

variable {tree : Tree} {context : Context} {kind : ActionKind} {root : Path} {written text : String}

/-- Where a text leads in a project, by its names alone. -/
def place (tree : Tree) (root : Path) (text : String) : Location :=
  tree.normalForm ((Tree.pathOf (tree.normalForm root)).join (Path.ofText text))

/-- What remains of a place behind a project. -/
def remaining (tree : Tree) (root : Path) (text : String) : List String :=
  (place tree root text).drop (tree.normalForm root).length

/-- A path in a project starts at the root. -/
theorem startOf_join (tree : Tree) (home : Location) (path : Path) :
    tree.startOf ((Tree.pathOf home).join path) = [] := by
  rw [Tree.startOf, if_pos (Tree.isAbsolute_join home path)]

/-- The names of a path in a project are names of the project or of the path. -/
theorem mem_parts_join {home : Location} {path : Path} {name : String}
    (member : name ∈ ((Tree.pathOf home).join path).parts) : name ∈ home ∨ name ∈ path.parts := by
  unfold Path.join at member
  split at member
  next => exact .inr member
  next => exact List.mem_append.mp member

/-- The names that remain are names of the text. -/
theorem isName_of_mem_remaining {name : String} (member : name ∈ remaining tree root text) : Path.IsName name := by
  have entered : name ∈ Path.partsOf text.toList := by
    unfold remaining place Tree.normalForm at member
    rw [startOf_join, List.nil_append, Path.join] at member
    split at member
    next absolute =>
      simpa [Path.ofText] using Tree.mem_of_mem_drop member
    next relative =>
      have straight : ".." ∉ tree.normalForm root := Tree.notMem_collapse _
      have split : Tree.collapse ((Tree.pathOf (tree.normalForm root)).parts ++ (Path.ofText text).parts)
          = (Path.ofText text).parts.foldl Tree.enter (tree.normalForm root) := Tree.collapse_append straight _
      have here : name ∈ ((Path.ofText text).parts.foldl Tree.enter (tree.normalForm root)).drop
          (tree.normalForm root).length := by
        rw [← split]
        exact member
      simpa [Path.ofText] using Tree.mem_of_mem_drop here
  exact (Path.mem_partsOf entered).1

/-- Where no link stands, a text names a target if the names of its place start with those of the project. -/
theorem inside_eq (unlinked : ∀ location target, tree.node? location ≠ some (.link target))
    (straight : ".." ∉ tree.home) (proper : ∀ name ∈ tree.startOf root ++ root.parts, '\x00' ∉ name.toList)
    (noNull : '\x00' ∉ text.toList) :
    inside tree root text
      = if tree.normalForm root <+: place tree root text then
          .ok ⟨Path.text ⟨.relative, remaining tree root text⟩, Tree.pathOf (place tree root text)⟩
        else .error (.outsideRoot text) := by
  have start : ".." ∉ tree.startOf root := by
    unfold Tree.startOf
    split
    · exact List.not_mem_nil
    · exact straight
  have ofRoot : tree.resolve root = .ok (tree.normalForm root) :=
    Tree.resolve_of_unlinked unlinked start fun part member => proper part (List.mem_append_right _ member)
  have ofText : tree.resolve ((Tree.pathOf (tree.normalForm root)).join (Path.ofText text))
      = .ok (place tree root text) := by
    refine Tree.resolve_of_unlinked unlinked ?_ fun part member => ?_
    · rw [startOf_join]
      exact List.not_mem_nil
    · rcases mem_parts_join member with ofHome | ofWritten
      · exact proper part (Tree.mem_of_mem_normalForm ofHome)
      · exact fun null => noNull ((Path.mem_partsOf ofWritten).2 _ null)
  simp only [inside, ofRoot, ofText, Except.mapError, bind, Except.bind, below?, List.isPrefixOf_iff_prefix]
  by_cases starts : tree.normalForm root <+: place tree root text
  · simp only [if_pos starts]
    rfl
  · simp only [if_neg starts]
    rfl

/-- Whether a text that a template is rendered as names a target, and which one, is decided by what is left of it
without the blanks around it. -/
theorem ofTemplate_of_rendered (isRendered : rendered context written (some kind) written = .ok text) :
    ofTemplate tree context kind written
      = if (Text.trimmed text).isEmpty then .error (.emptyPath written)
        else if Text.contains (Text.trimmed text) "\x7b\x7b" then .error (.unresolvedPath (Text.trimmed text))
        else inside tree context.project.root (Text.trimmed text) := by
  simp only [ofTemplate, isRendered, bind, Except.bind]
  rfl

/-- A template names a target exactly if what it is rendered as shows something, has no tag left in it, and leads into
the project by its names alone.  The target is labelled with the names that remain behind those of the project; they
lead from the project to its path without going up. -/
theorem ofTemplate_isPlaced (unlinked : ∀ location target, tree.node? location ≠ some (.link target))
    (straight : ".." ∉ tree.home)
    (proper : ∀ name ∈ tree.startOf context.project.root ++ context.project.root.parts, '\x00' ∉ name.toList)
    (isRendered : rendered context written (some kind) written = .ok text) (noNull : '\x00' ∉ text.toList) :
    ((∃ target, ofTemplate tree context kind written = .ok target)
        ↔ Text.trimmed text ≠ "" ∧ Text.contains (Text.trimmed text) "\x7b\x7b" = false
          ∧ tree.normalForm context.project.root <+: place tree context.project.root (Text.trimmed text))
      ∧ ∀ target, ofTemplate tree context kind written = .ok target →
        ∃ names, place tree context.project.root (Text.trimmed text)
            = tree.normalForm context.project.root ++ names
          ∧ ".." ∉ names
          ∧ target.label = Path.text ⟨.relative, names⟩ ∧ Path.ofText target.label = ⟨.relative, names⟩
          ∧ target.path = (Tree.pathOf (tree.normalForm context.project.root)).join ⟨.relative, names⟩ := by
  have trimmedNull : '\x00' ∉ (Text.trimmed text).toList := by
    rw [Text.trimmed, String.toList_ofList]
    exact fun null => noNull ((Text.infix_trim text.toList).subset null)
  rw [ofTemplate_of_rendered isRendered, inside_eq unlinked straight proper trimmedNull]
  by_cases empty : (Text.trimmed text).isEmpty = true
  · simp only [if_pos empty]
    refine ⟨iff_of_false (by rintro ⟨_, ⟨⟩⟩) fun all => all.1 (String.isEmpty_iff.mp empty), ?_⟩
    rintro _ ⟨⟩
  by_cases tagged : Text.contains (Text.trimmed text) "\x7b\x7b" = true
  · simp only [if_neg empty, if_pos tagged]
    refine ⟨iff_of_false (by rintro ⟨_, ⟨⟩⟩) fun all => ?_, by rintro _ ⟨⟩⟩
    rw [tagged] at all
    exact Bool.noConfusion all.2.1
  by_cases starts : tree.normalForm context.project.root <+: place tree context.project.root (Text.trimmed text)
  · simp only [if_neg empty, if_neg tagged, if_pos starts]
    have shown : Text.trimmed text ≠ "" := fun same => empty (String.isEmpty_iff.mpr same)
    refine ⟨iff_of_true ⟨_, rfl⟩ ⟨shown, by simpa using tagged, starts⟩, ?_⟩
    rintro _ ⟨⟩
    have whole : place tree context.project.root (Text.trimmed text)
        = tree.normalForm context.project.root ++ remaining tree context.project.root (Text.trimmed text) :=
      (List.prefix_iff_eq_append.mp starts).symm
    refine ⟨_, whole, ?_, rfl, Path.ofText_text fun _ => isName_of_mem_remaining, ?_⟩
    · have up : ".." ∉ place tree context.project.root (Text.trimmed text) := Tree.notMem_collapse _
      exact fun member => up (List.mem_of_mem_drop member)
    · rw [Tree.pathOf, whole]
      rfl
  · simp only [if_neg empty, if_neg tagged, if_neg starts]
    exact ⟨iff_of_false (by rintro ⟨_, ⟨⟩⟩) fun all => starts all.2.2, by rintro _ ⟨⟩⟩

/-- A file system without anything in it. -/
def emptyTree : Tree := ⟨[], ["work"]⟩

/-- Nothing is linked where nothing is. -/
theorem node?_emptyTree (location : Location) (target : String) : emptyTree.node? location ≠ some (.link target) := by
  intro found
  unfold Tree.node? at found
  split at found <;> cases found

/-- A path that leaves its project, comes back, and has parts that are left out. -/
theorem ofTemplate_isPlaced_reentering :
    (∀ location target, emptyTree.node? location ≠ some (.link target)) ∧ ".." ∉ emptyTree.home
      ∧ (∀ name ∈ emptyTree.startOf (Template.authContext []).project.root
          ++ (Template.authContext []).project.root.parts, '\x00' ∉ name.toList)
      ∧ rendered (Template.authContext []) " ../proj//x/./y.ts\n" (some .createFile) " ../proj//x/./y.ts\n"
        = .ok " ../proj//x/./y.ts\n"
      ∧ '\x00' ∉ " ../proj//x/./y.ts\n".toList
      ∧ ofTemplate emptyTree (Template.authContext []) .createFile " ../proj//x/./y.ts\n"
        = .ok ⟨"x/y.ts", ⟨.root, ["work", "proj", "x", "y.ts"]⟩⟩ := by
  have straight : ".." ∉ emptyTree.home := by decide
  have proper : ∀ name ∈ emptyTree.startOf (Template.authContext []).project.root
      ++ (Template.authContext []).project.root.parts, '\x00' ∉ name.toList := by decide
  have isRendered : rendered (Template.authContext []) " ../proj//x/./y.ts\n" (some .createFile)
      " ../proj//x/./y.ts\n" = .ok " ../proj//x/./y.ts\n" := rendered_unbraced _ _ _ (by decide)
  have noNull : '\x00' ∉ " ../proj//x/./y.ts\n".toList := by decide
  have lies : place emptyTree (Template.authContext []).project.root (Text.trimmed " ../proj//x/./y.ts\n")
      = emptyTree.normalForm (Template.authContext []).project.root ++ ["x", "y.ts"] := by decide
  obtain ⟨placed, leads⟩ := ofTemplate_isPlaced node?_emptyTree straight proper isRendered noNull
  obtain ⟨target, named⟩ := placed.mpr ⟨by decide, by decide, lies ▸ List.prefix_append _ _⟩
  obtain ⟨names, whole, -, label, -, path⟩ := leads target named
  obtain rfl : ["x", "y.ts"] = names := List.append_cancel_left (lies.symm.trans whole)
  refine ⟨node?_emptyTree, straight, proper, isRendered, noNull, named.trans (congrArg Except.ok ?_)⟩
  cases target
  rw [Target.mk.injEq]
  exact ⟨label, path⟩

/-- A project whose folder has a name that no folder can have. -/
def unnamable : Context :=
  { Template.authContext [] with
    project := { (Template.authContext []).project with root := ⟨.relative, ["pr\x00oj"]⟩ } }

/-- In a project that no folder can hold, a text leads into the project by its names and names no target. -/
theorem ofTemplate_unnamable :
    (∀ location target, emptyTree.node? location ≠ some (.link target))
      ∧ rendered unnamable "a.ts" (some .createFile) "a.ts" = .ok "a.ts" ∧ '\x00' ∉ "a.ts".toList
      ∧ Text.trimmed "a.ts" = "a.ts" ∧ Text.contains "a.ts" "\x7b\x7b" = false
      ∧ place emptyTree unnamable.project.root "a.ts" = emptyTree.normalForm unnamable.project.root ++ ["a.ts"]
      ∧ ofTemplate emptyTree unnamable .createFile "a.ts" = .error (.unresolvable .nullCharacter) := by
  have isRendered : rendered unnamable "a.ts" (some .createFile) "a.ts" = .ok "a.ts" :=
    rendered_unbraced _ _ _ (by decide)
  refine ⟨node?_emptyTree, isRendered, by decide, by decide, by decide, by decide, ?_⟩
  rw [ofTemplate, isRendered]
  rfl

end Target

end Scaffold
