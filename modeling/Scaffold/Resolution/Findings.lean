import Scaffold.Registry.Basic

/-!
# Findings of a visit

What visiting modules brings to light: the modules whose dependencies are settled, in the order in which
they were settled, the modules that depend on themselves, and the ids that are not registered.  The visit
itself is a recursion (`traverse`).
-/

namespace Scaffold

/-- What was found so far. -/
structure Findings where
  /-- The settled modules; each comes after its dependencies. -/
  order : List String
  cycles : List String
  missing : List String
  deriving DecidableEq, Repr

namespace Findings

/-- Adds an item at the end of a list that lacks it. -/
def noted (items : List String) (item : String) : List String :=
  if items.contains item then items else items ++ [item]

/-- Notes an id that is not registered. -/
def miss (findings : Findings) (id : String) : Findings :=
  { findings with missing := noted findings.missing id }

/-- Notes a module that depends on itself. -/
def loop (findings : Findings) (id : String) : Findings :=
  { findings with cycles := noted findings.cycles id }

/-- Settles a module. -/
def settle (findings : Findings) (id : String) : Findings :=
  { findings with order := findings.order ++ [id] }

end Findings

namespace Registry

/-- The dependencies that a module declares. -/
def dependencies (registry : Registry) (id : String) : List String :=
  ((registry.get? id).map Module.dependencies).getD []

/-- The registered ids outside of a class. -/
def idsOutside (registry : Registry) (inside : String → Bool) : List String :=
  (registry.modules.map Module.id).filter fun id => !inside id

/-- Entering a registered id leaves fewer ids outside. -/
theorem length_idsOutside_lt {registry : Registry} {before after : String → Bool} {id : String}
    (registered : registry.contains id = true) (outside : before id = false)
    (entered : after id = true) (kept : ∀ other, before other = true → after other = true) :
    (registry.idsOutside after).length < (registry.idsOutside before).length := by
  have shrunk : registry.idsOutside after
      = (registry.idsOutside before).filter fun other => !after other := by
    unfold idsOutside
    rw [List.filter_filter]
    congr 1
    funext other
    cases now : after other <;> cases earlier : before other <;> simp_all
  rw [shrunk]
  refine List.length_filter_lt_length_iff_exists.mpr ⟨id, ?_, by simp [entered]⟩
  simp only [idsOutside, List.mem_filter, Registry.contains_eq_true_iff.mp registered, outside]
  simp

/-- Visits modules and settles each of them after its dependencies, which are visited in the order in which it
declares them.  The path holds the modules that are open. -/
def traverse (registry : Registry) (path : List String) (findings : Findings) :
    List String → Findings
  | [] => findings
  | id :: rest =>
    if _known : registry.contains id then
      if _opened : path.contains id then registry.traverse path (findings.loop id) rest
      else if findings.order.contains id then registry.traverse path findings rest
      else
        let inner := registry.traverse (id :: path) findings (registry.dependencies id)
        registry.traverse path (inner.settle id) rest
    else registry.traverse path (findings.miss id) rest
termination_by visiting => ((registry.idsOutside path.contains).length, visiting.length)
decreasing_by
  · exact Prod.Lex.right _ (by simp)
  · exact Prod.Lex.right _ (by simp)
  · refine Prod.Lex.left _ _ (length_idsOutside_lt _known (by simpa using _opened) ?_ ?_)
    · simp
    · intro other
      simp only [List.contains_cons, Bool.or_eq_true]
      exact Or.inr
  · exact Prod.Lex.right _ (by simp)
  · exact Prod.Lex.right _ (by simp)

end Registry

end Scaffold
