import Scaffold.Tree.Basic

/-!
# Resolved locations

The location that remains when every link of a path is replaced by what it points to.  Parts that do
not exist are kept, and double dots remove the name before them.  A link met again while it is being
replaced ends the resolution where it stands.
-/

namespace Scaffold.Tree

/-- The links of a tree that are not being replaced. -/
def unopened (tree : Tree) (opened : List Location) : List (Location × Node) :=
  tree.nodes.filter fun entry => !opened.contains entry.1

/-- Opening a link leaves fewer unopened nodes. -/
theorem length_unopened_cons_lt {tree : Tree} {opened : List Location} {location : Location}
    {node : Node} (nonempty : location ≠ []) (present : tree.node? location = some node)
    (closed : opened.contains location = false) :
    (tree.unopened (location :: opened)).length < (tree.unopened opened).length := by
  simp only [node?, List.isEmpty_iff, nonempty, if_false, Option.map_eq_some_iff] at present
  obtain ⟨entry, found, _⟩ := present
  have member := List.mem_of_find?_eq_some found
  have same := List.find?_some found
  have isSame : entry.1 = location := by simpa using same
  have split : tree.unopened (location :: opened)
      = (tree.unopened opened).filter fun entry => entry.1 != location := by
    unfold unopened
    rw [List.filter_filter]
    congr 1
    funext candidate
    simp only [List.contains_cons, Bool.not_or]
    rfl
  rw [split]
  have inside : entry ∈ tree.unopened opened := by
    simp only [unopened, List.mem_filter]
    exact ⟨member, by rw [isSame, closed]; rfl⟩
  have shorter := List.length_filter_lt_length_iff_exists
    (l := tree.unopened opened) (p := fun entry => entry.1 != location)
  exact shorter.mpr ⟨entry, inside, by simp [isSame]⟩

/-- Replaces the links of a path that continues from a location.  The second part of the answer says
whether the path was followed to its end; if not, the rest of it is still attached. -/
def resolveFrom (tree : Tree) (opened : List Location) (here : Location) (names : List String) :
    Location × Bool :=
  match names with
  | [] => (here, true)
  | name :: rest =>
    if name == ".." then tree.resolveFrom opened here.dropLast rest
    else
      match _linked : tree.node? (here ++ [name]) with
      | some (.link target) =>
        if _closed : opened.contains (here ++ [name]) then (here ++ [name] ++ rest, false)
        else
          let path := Path.ofText target
          match tree.resolveFrom ((here ++ [name]) :: opened)
              (if path.isAbsolute then [] else here) path.parts with
          | (reached, true) => tree.resolveFrom opened reached rest
          | (reached, false) => (reached ++ rest, false)
      | _ => tree.resolveFrom opened (here ++ [name]) rest
termination_by ((tree.unopened opened).length, names.length)
decreasing_by
  · apply Prod.Lex.right; simp
  · apply Prod.Lex.left
    exact length_unopened_cons_lt (by simp) _linked (by simpa using _closed)
  · apply Prod.Lex.right; simp
  · apply Prod.Lex.right; simp

/-- Removes each double dot together with the name before it. -/
def collapse (names : List String) : Location :=
  names.foldl (fun done name => if name == ".." then done.dropLast else done ++ [name]) []

/-- Why a path has no resolved location. -/
inductive ResolveFailure where
  | nullCharacter
  | linkLoop (location : Location)
  deriving DecidableEq, Repr

/-- The wording of a failure. -/
def ResolveFailure.message : ResolveFailure → String
  | .nullCharacter => "embedded null byte"
  | .linkLoop location => "Symlink loop from " ++ Text.quoted location.text

/-- The resolved location of a path. -/
def resolve (tree : Tree) (path : Path) : Except ResolveFailure Location :=
  if path.parts.any fun part => part.toList.contains '\x00' then .error .nullCharacter
  else
    match tree.resolveFrom [] (tree.startOf path) path.parts with
    | (location, true) => .ok location
    | (stuck, false) =>
      let location := collapse stuck
      match tree.look ⟨.root, location⟩ with
      | .error .tooManyLinks => .error (.linkLoop location)
      | _ => .ok location

/-- The path of a location. -/
def pathOf (location : Location) : Path := ⟨.root, location⟩

/-- The locations below a folder, links not followed, with the names that lead there. -/
def descendants (tree : Tree) (folder : Location) : List (List String × Node) :=
  tree.nodes.filterMap fun entry =>
    if folder.isPrefixOf entry.1 && folder.length < entry.1.length then
      some (entry.1.drop folder.length, entry.2)
    else none

end Scaffold.Tree
