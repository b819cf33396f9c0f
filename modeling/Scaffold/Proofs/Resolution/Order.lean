import Scaffold.Proofs.Repetition
import Scaffold.Proofs.Resolution.Invariant

/-!
# The order of a resolution

A request without conflicts is answered by an order that holds what the request needs, each module once
and after everything that it depends on.
-/

namespace Scaffold

namespace Registry

variable (registry : Registry) (request : List String)

/-- The registered requested ids, each once. -/
def present : List String := request.eraseDups.filter registry.contains

/-- The requested ids that are not registered, each once. -/
def unregistered : List String := request.eraseDups.filter fun id => !registry.contains id

/-- What visiting everything that is requested brings to light. -/
def explored : Findings :=
  (registry.present request).foldl registry.visit ⟨[], [], registry.unregistered request⟩

/-- A resolution in terms of what was explored. -/
theorem resolve_eq :
    registry.resolve request =
      let conflicts := registry.directConflicts (registry.present request) ++
        (registry.explored request).cycles.map Conflict.cycle
      ⟨if conflicts.isEmpty then (registry.explored request).order else [], conflicts,
        (registry.explored request).missing, request.eraseDups⟩ := by
  simp [resolve, explored, present, unregistered, Function.comp_def]

variable {registry request}

/-- The registered requested ids are the requested ids that are registered. -/
theorem mem_present {id : String} :
    id ∈ registry.present request ↔ id ∈ request ∧ registry.contains id = true := by
  simp [present, List.mem_eraseDups]

/-- The findings before the first visit: only requested ids are known to be missing. -/
theorem walking_start : registry.Walking request [] ⟨[], [], registry.unregistered request⟩ where
  distinct := List.nodup_nil
  needed := by simp [OpenModules.ids]
  linked := .nil
  scanned := trivial
  ordered := by simp
  reported := by simp
  cyclic := by simp
  cyclesDistinct := List.nodup_nil
  absent := by
    intro id member
    have parts : id ∈ request ∧ registry.contains id = false := by
      simpa [unregistered, List.mem_eraseDups] using member
    exact ⟨parts.2, .inl parts.1⟩
  missingDistinct := (nodup_eraseDups request).filter _

/-- Visiting what is requested keeps the invariant and settles it. -/
theorem visited_explored : registry.Walking request [] (registry.explored request) ∧
    Findings.Extends ⟨[], [], registry.unregistered request⟩ (registry.explored request) ∧
    ∀ id ∈ registry.present request, id ∈ (registry.explored request).order :=
  walking_start.visitAll fun _ member => .of_mem (mem_present.mp member).1 (mem_present.mp member).2

/-- Everything that holds between the findings of a request and its dependencies. -/
theorem walking_explored : registry.Walking request [] (registry.explored request) :=
  visited_explored.1

/-- No module is settled twice. -/
theorem nodup_explored_order : (registry.explored request).order.Nodup := by
  simpa [OpenModules.ids] using walking_explored.distinct

/-- A registered dependency of a settled module is settled. -/
theorem mem_order_of_dependsOn {id dependency : String}
    (settled : id ∈ (registry.explored request).order) (depends : registry.DependsOn id dependency) :
    dependency ∈ (registry.explored request).order := by
  rcases walking_explored.ordered id settled dependency depends with named | precedes
  · simpa [OpenModules.ids] using (walking_explored.cyclic dependency named).1
  · exact precedes.mem_left

/-- What is settled in the end is what the request needs. -/
theorem mem_explored_order {id : String} :
    id ∈ (registry.explored request).order ↔ registry.Needs request id := by
  constructor
  · intro settled
    exact walking_explored.needed id (by simpa [OpenModules.ids] using settled)
  · rintro ⟨root, member, registered, path⟩
    induction path with
    | refl =>
        exact visited_explored.2.2 root (mem_present.mpr ⟨member, registered⟩)
    | tail _ depends inductionHypothesis => exact mem_order_of_dependsOn inductionHypothesis depends

/-- Where no cycle was found every registered dependency comes first. -/
theorem precedes_of_dependsOn {id dependency : String}
    (acyclic : (registry.explored request).cycles = [])
    (settled : id ∈ (registry.explored request).order) (depends : registry.DependsOn id dependency) :
    Precedes (registry.explored request).order dependency id := by
  rcases walking_explored.ordered id settled dependency depends with named | precedes
  · simp [acyclic] at named
  · exact precedes

/-- Where no cycle was found the order is one for all dependencies, direct or not. -/
theorem precedes_of_transGen {id dependency : String}
    (acyclic : (registry.explored request).cycles = [])
    (settled : id ∈ (registry.explored request).order)
    (path : Relation.TransGen registry.DependsOn id dependency) :
    Precedes (registry.explored request).order dependency id := by
  induction path with
  | single depends => exact precedes_of_dependsOn acyclic settled depends
  | tail _ depends inductionHypothesis =>
      exact (precedes_of_dependsOn acyclic inductionHypothesis.mem_left depends).trans
        nodup_explored_order inductionHypothesis

/-- A request without conflicts is answered by what was explored, and no cycle was found. -/
theorem explored_of_conflicts_eq_nil (free : (registry.resolve request).conflicts = []) :
    (registry.resolve request).order = (registry.explored request).order ∧
      (registry.explored request).cycles = [] := by
  rw [resolve_eq] at free ⊢
  simp only [List.append_eq_nil_iff, List.map_eq_nil_iff] at free
  simp [free]

/-- A request without conflicts is answered by a list without repetitions of exactly what it needs, in
which every dependency of a module, direct or not, comes before that module. -/
theorem resolve_order_isTopological (free : (registry.resolve request).conflicts = []) :
    (registry.resolve request).order.Nodup ∧
      (∀ id, id ∈ (registry.resolve request).order ↔ registry.Needs request id) ∧
      ∀ id ∈ (registry.resolve request).order, ∀ dependency,
        Relation.TransGen registry.DependsOn id dependency →
          Precedes (registry.resolve request).order dependency id := by
  obtain ⟨same, acyclic⟩ := explored_of_conflicts_eq_nil free
  rw [same]
  refine ⟨by simpa [OpenModules.ids] using walking_explored.distinct, fun _ => mem_explored_order, ?_⟩
  intro id settled dependency path
  exact precedes_of_transGen acyclic settled path

/-- A registry of modules that have nothing but an id, dependencies and conflicts. -/
def ofDependencies (modules : List (String × List String × List String)) : Registry :=
  (empty.registerAll (modules.map fun (id, dependencies, conflicts) =>
    ⟨id, "", "", .other, "", [], dependencies, conflicts, [], [], none⟩)).1

/-- A module that needs two others, which share a dependency; one of them also names an unknown id. -/
def diamond : Registry :=
  ofDependencies
    [("app", ["ui", "api"], []), ("ui", ["core"], []), ("api", ["core", "ghost"], []), ("core", [], [])]

/-- The diamond, requested out of order and with an id that is not registered. -/
theorem resolve_order_isTopological_diamond :
    (diamond.resolve ["api", "app", "ghost"]).conflicts = [] ∧
      (diamond.resolve ["api", "app", "ghost"]).order = ["core", "api", "ui", "app"] ∧
      Precedes (diamond.resolve ["api", "app", "ghost"]).order "core" "app" := by
  have free : (diamond.resolve ["api", "app", "ghost"]).conflicts = [] := by cbv
  have order : (diamond.resolve ["api", "app", "ghost"]).order = ["core", "api", "ui", "app"] := by
    cbv
  have app : diamond.dependencies "app" = ["ui", "api"] := by cbv
  have ui : diamond.dependencies "ui" = ["core"] := by cbv
  have first : diamond.DependsOn "app" "ui" := ⟨by simp [app], by cbv⟩
  have second : diamond.DependsOn "ui" "core" := ⟨by simp [ui], by cbv⟩
  refine ⟨free, order, (resolve_order_isTopological free).2.2 "app" (by simp [order]) "core" ?_⟩
  exact .tail (.single first) second

end Registry

end Scaffold
