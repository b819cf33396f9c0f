import Scaffold.Resolution.Basic
import Scaffold.Resolution.Findings

/-!
# Walking along dependencies

Modules are visited depth first with a stack of the modules that are open, each with the dependencies
that remain to be visited.  A module without remaining dependencies is settled.
-/

namespace Scaffold

/-- The open modules, innermost first, each with the dependencies that remain. -/
abbrev OpenModules := List (String × List String)

namespace OpenModules

/-- The ids of open modules. -/
def ids (stack : OpenModules) : List String := stack.map (·.1)

/-- The steps that a stack takes if nothing is pushed on it. -/
def steps : OpenModules → Nat
  | [] => 0
  | (_, remaining) :: rest => remaining.length + 1 + steps rest

end OpenModules

namespace Registry

/-- Whether a module is open or settled. -/
def isReached (stack : OpenModules) (findings : Findings) (id : String) : Bool :=
  stack.ids.contains id || findings.order.contains id

/-- Settling the innermost module reaches nothing new. -/
theorem isReached_settle (id : String) (rest : OpenModules) (findings : Findings) :
    isReached rest (findings.settle id) = isReached ((id, []) :: rest) findings := by
  funext other
  simp only [isReached, OpenModules.ids, Findings.settle, List.map_cons, List.contains_cons,
    List.contains_append, List.contains_nil, Bool.or_false]
  grind

/-- Visits what remains of a stack. -/
def walk (registry : Registry) (stack : OpenModules) (findings : Findings) : Findings :=
  match stack with
  | [] => findings
  | (id, []) :: rest => registry.walk rest (findings.settle id)
  | (id, dependency :: remaining) :: rest =>
    if _known : registry.contains dependency then
      if _opened : OpenModules.ids ((id, remaining) :: rest) |>.contains dependency then
        registry.walk ((id, remaining) :: rest) (findings.loop dependency)
      else if _settled : findings.order.contains dependency then
        registry.walk ((id, remaining) :: rest) findings
      else
        registry.walk ((dependency, registry.dependencies dependency) :: (id, remaining) :: rest)
          findings
    else registry.walk ((id, remaining) :: rest) (findings.miss dependency)
termination_by ((registry.idsOutside (isReached stack findings)).length, stack.steps)
decreasing_by
  · rw [isReached_settle]
    exact Prod.Lex.right _ (by simp [OpenModules.steps])
  · exact Prod.Lex.right _ (by simp [OpenModules.steps])
  · exact Prod.Lex.right _ (by simp [OpenModules.steps])
  · refine Prod.Lex.left _ _ (length_idsOutside_lt _known ?_ ?_ ?_)
    · simp_all [isReached, OpenModules.ids]
    · simp [isReached, OpenModules.ids]
    · intro other
      simp only [isReached, OpenModules.ids, List.map_cons, List.contains_cons, Bool.or_eq_true]
      grind
  · exact Prod.Lex.right _ (by simp [OpenModules.steps])

/-- Visits a module that was not requested before. -/
def visit (registry : Registry) (findings : Findings) (id : String) : Findings :=
  if findings.order.contains id then findings
  else registry.walk [(id, registry.dependencies id)] findings

/-- Whether one of two modules excludes the other. -/
def exclude (registry : Registry) (first second : String) : Bool :=
  let excluded (id : String) := ((registry.get? id).map Module.conflicts).getD []
  (excluded first).contains second || (excluded second).contains first

/-- The pairs of modules that exclude each other. -/
def directConflicts (registry : Registry) : List String → List Conflict
  | [] => []
  | first :: rest =>
    (rest.filter (registry.exclude first)).map (Conflict.direct first)
      ++ registry.directConflicts rest

/-- Resolves a request. -/
def resolve (registry : Registry) (request : List String) : Resolution :=
  let requested := request.eraseDups
  let (present, absent) := requested.partition registry.contains
  let found := present.foldl registry.visit ⟨[], [], absent⟩
  let conflicts := registry.directConflicts present ++ found.cycles.map Conflict.cycle
  ⟨if conflicts.isEmpty then found.order else [], conflicts, found.missing, requested⟩

end Registry

end Scaffold
