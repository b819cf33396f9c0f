import Scaffold.Registry.Basic
import Scaffold.Proofs.Repetition
import Mathlib.Algebra.Ring.Nat
import Mathlib.Data.List.Induction
import Mathlib.Data.List.Nodup
import Mathlib.Data.String.Basic

/-!
# Views of a registry

A registry is changed by registering modules and by removing ids, in any order.  What counts afterwards are the
registrations that no later removal took away (`standing`): of one id the last of them is the module, and the
first of them settles its place.  Every query is a view of this one list (`views_ofUpdates`).
-/

namespace Scaffold

/-- Categories have different names. -/
theorem ModuleCategory.name_injective : Function.Injective ModuleCategory.name := by
  intro first second same
  have found := ModuleCategory.ofName?_name first
  rw [same, ModuleCategory.ofName?_name] at found
  exact (Option.some.inj found).symm

/-- No category is called like the count of all modules. -/
theorem ModuleCategory.name_ne_total (category : ModuleCategory) : category.name ≠ "total" := by
  cases category <;> decide

namespace Registry

variable {registry : Registry} {registrations : List Module} {descriptor : Module} {id other : String}

/-! ## One change -/

/-- A module that was registered is found under its id, and under any other id what was there. -/
theorem get?_register (registry : Registry) (descriptor : Module) (id : String) :
    (registry.register descriptor).get? id
      = if id = descriptor.id then some descriptor else registry.get? id := by
  by_cases known : registry.contains descriptor.id = true
  · have kept : ∀ present : Module,
        ((if present.id == descriptor.id then descriptor else present).id == id) = (present.id == id) := by
      intro present
      by_cases same : present.id = descriptor.id <;> simp [same]
    have exchanged : (registry.register descriptor).get? id = (registry.get? id).map fun present =>
        if present.id == descriptor.id then descriptor else present := by
      rw [register, dif_pos known, get?, get?]
      dsimp only
      rw [replaced, List.find?_map]
      simp only [Function.comp_def, kept]
    rw [exchanged]
    cases found : registry.get? id with
    | none =>
        have absent : id ≠ descriptor.id := by
          rintro rfl
          simp [contains, found] at known
        simp [absent]
    | some present =>
        obtain rfl : present.id = id := by simpa using List.find?_some found
        by_cases same : present.id = descriptor.id <;> simp [same]
  · have absent : registry.get? descriptor.id = none := by simpa [contains] using known
    rw [register, dif_neg known, get?, List.find?_append, ← get?]
    by_cases same : id = descriptor.id
    · simp [same, absent]
    · simp [same, Ne.symm same]

/-- An id that was removed is not found, and under any other id what was there. -/
theorem get?_unregister (registry : Registry) (id other : String) :
    (registry.unregister other).get? id = if id = other then none else registry.get? id := by
  rw [get?, unregister, List.find?_filter]
  split
  next same => simp [same]
  next differ =>
    rw [get?]
    congr 1
    funext present
    by_cases here : present.id = id <;> simp [here, differ]

/-- The id of a module that is registered keeps its place, or comes last. -/
theorem ids_register (registry : Registry) (descriptor : Module) :
    (registry.register descriptor).modules.map Module.id
      = if descriptor.id ∈ registry.modules.map Module.id then registry.modules.map Module.id
        else registry.modules.map Module.id ++ [descriptor.id] := by
  rw [register]
  split
  next known => rw [if_pos (contains_eq_true_iff.mp known), ids_replaced]
  next unknown =>
    rw [if_neg (mt contains_eq_true_iff.mpr unknown), List.map_append]
    rfl

/-- Removing an id leaves the others in their places. -/
theorem ids_unregister (registry : Registry) (id : String) :
    (registry.unregister id).modules.map Module.id
      = (registry.modules.map Module.id).filter fun present => present != id := by
  rw [unregister, List.filter_map]
  rfl

/-! ## Changes in turn -/

/-- A change of a registry. -/
inductive Update where
  | register (descriptor : Module)
  | unregister (id : String)

/-- A change takes the module of an id away. -/
def Update.removes (id : String) : Update → Bool
  | .register _ => false
  | .unregister other => other == id

/-- A registry after a change. -/
def updated (registry : Registry) : Update → Registry
  | .register descriptor => registry.register descriptor
  | .unregister id => registry.unregister id

/-- What changes make of the empty registry. -/
def ofUpdates (updates : List Update) : Registry := updates.foldl updated empty

/-- The modules that were registered with no later removal of their id, in order of registration. -/
def standing : List Update → List Module
  | [] => []
  | .register descriptor :: later =>
    if later.any (Update.removes descriptor.id) then standing later else descriptor :: standing later
  | .unregister _ :: later => standing later

/-- A module that is registered last stands. -/
theorem standing_register (updates : List Update) (descriptor : Module) :
    standing (updates ++ [.register descriptor]) = standing updates ++ [descriptor] := by
  induction updates with
  | nil => rfl
  | cons update later inductionHypothesis =>
      cases update with
      | unregister id => exact inductionHypothesis
      | register other =>
          simp only [List.cons_append, standing, List.any_append, List.any_cons, List.any_nil, Update.removes,
            Bool.or_false, inductionHypothesis]
          split <;> rfl

/-- What is removed last does not stand. -/
theorem standing_unregister (updates : List Update) (id : String) :
    standing (updates ++ [.unregister id])
      = (standing updates).filter fun descriptor => descriptor.id != id := by
  induction updates with
  | nil => rfl
  | cons update later inductionHypothesis =>
      cases update with
      | unregister other => exact inductionHypothesis
      | register other =>
          by_cases removed : later.any (Update.removes other.id) = true
          · simp [standing, removed, inductionHypothesis]
          · by_cases same : id = other.id
            · subst same
              simp [standing, removed, Update.removes, inductionHypothesis]
            · simp [standing, removed, Update.removes, inductionHypothesis, same, Ne.symm same]

/-- A registry holds registrations: each id of them once, in the order of their first places, and under it the
last one. -/
structure Holds (registry : Registry) (registrations : List Module) : Prop where
  ids : registry.modules.map Module.id = (registrations.map Module.id).eraseDups
  get : ∀ id, registry.get? id = (registrations.filter fun descriptor => descriptor.id == id).getLast?

/-- Registering a module adds a registration. -/
theorem Holds.register (holds : registry.Holds registrations) (descriptor : Module) :
    (registry.register descriptor).Holds (registrations ++ [descriptor]) := by
  refine ⟨?_, fun id => ?_⟩
  · rw [ids_register, holds.ids, List.map_append, List.map_singleton, eraseDups_concat]
    simp only [List.mem_eraseDups]
  · rw [get?_register, holds.get, List.filter_append, List.getLast?_append]
    by_cases same : id = descriptor.id
    · simp [same]
    · simp [same, Ne.symm same]

/-- Removing an id drops its registrations. -/
theorem Holds.unregister (holds : registry.Holds registrations) (id : String) :
    (registry.unregister id).Holds (registrations.filter fun descriptor => descriptor.id != id) := by
  refine ⟨?_, fun wanted => ?_⟩
  · rw [ids_unregister, holds.ids, ← eraseDups_filter, List.filter_map]
    rfl
  · rw [get?_unregister, holds.get, List.filter_filter]
    split
    next same =>
      have none : (registrations.filter fun descriptor =>
          descriptor.id == wanted && descriptor.id != id) = [] := by
        simp [same]
      rw [none]
      rfl
    next differ =>
      congr 1
      refine List.filter_congr fun descriptor _ => ?_
      by_cases here : descriptor.id = wanted <;> simp [here, differ]

/-- After any changes a registry holds the registrations that stand. -/
theorem holds_ofUpdates (updates : List Update) : (ofUpdates updates).Holds (standing updates) := by
  induction updates using List.reverseRecOn with
  | nil => exact ⟨rfl, fun _ => rfl⟩
  | append_singleton updates update inductionHypothesis =>
      rw [ofUpdates, List.foldl_append, List.foldl_cons, List.foldl_nil, ← ofUpdates]
      cases update with
      | register descriptor =>
          rw [standing_register]
          exact inductionHypothesis.register descriptor
      | unregister id =>
          rw [standing_unregister]
          exact inductionHypothesis.unregister id

/-! ## Queries -/

/-- A module is listed if it is the one of its id. -/
theorem mem_modules_iff : descriptor ∈ registry.modules ↔ registry.get? descriptor.id = some descriptor := by
  refine ⟨fun member => ?_, List.mem_of_find?_eq_some⟩
  obtain ⟨before, after, whole⟩ := List.append_of_mem member
  have distinct := registry.distinct
  rw [whole, List.map_append, List.map_cons] at distinct
  rw [get?, List.find?_eq_some_iff_append]
  refine ⟨by simp, before, after, whole, fun other earlier => ?_⟩
  have apart := (List.nodup_append.mp distinct).2.2 _ (List.mem_map_of_mem earlier) _ List.mem_cons_self
  simpa using apart

/-- The ids are sorted, with none twice. -/
theorem pairwise_ids (registry : Registry) : registry.ids.Pairwise (· < ·) := by
  have distinct : registry.ids.Nodup := registry.distinct.perm (List.mergeSort_perm _ _).symm
  have transitive : ∀ first second third : String, decide (first ≤ second) = true →
      decide (second ≤ third) = true → decide (first ≤ third) = true := by
    simpa using fun first second third => @le_trans String _ first second third
  have total : ∀ first second : String, (decide (first ≤ second) || decide (second ≤ first)) = true := by
    simpa using @le_total String _
  have sorted : registry.ids.Pairwise (· ≤ ·) :=
    (List.pairwise_mergeSort transitive total _).imp fun {_ _} ordered => of_decide_eq_true ordered
  exact (sorted.and distinct).imp fun {_ _} both => lt_of_le_of_ne both.1 both.2

/-- A count that is listed under a name of its own is found there. -/
theorem lookup_map_of_mem {Item : Type} {name : Item → String} (injective : Function.Injective name)
    (count : Item → Nat) {items : List Item} {wanted : Item} (member : wanted ∈ items) :
    (items.map fun item => (name item, count item)).lookup (name wanted) = some (count wanted) := by
  induction items with
  | nil => cases member
  | cons first rest inductionHypothesis =>
      rw [List.map_cons, List.lookup_cons]
      by_cases same : wanted = first
      · simp [same]
      · have differ : name wanted ≠ name first := fun equal => same (injective equal)
        rw [beq_false_of_ne differ]
        exact inductionHypothesis ((List.mem_cons.mp member).resolve_left same)

/-- The queries of a registry agree with registrations, and so with one another. -/
structure Views (registry : Registry) (registrations : List Module) : Prop where
  /-- Under an id the last registration of it is found. -/
  get : ∀ id, registry.get? id = (registrations.filter fun descriptor => descriptor.id == id).getLast?
  contains : ∀ id, registry.contains id = true ↔ (registry.get? id).isSome
  /-- What is found is listed and nothing else, each id once, in the order of the first registrations. -/
  listed : ∀ descriptor, descriptor ∈ registry.modules ↔ registry.get? descriptor.id = some descriptor
  order : IsFirsts (registrations.map Module.id) (registry.modules.map Module.id)
  ids : registry.ids.Perm (registry.modules.map Module.id)
  sorted : registry.ids.Pairwise (· < ·)
  size : registry.size = registry.ids.length
  /-- The categories part the listed modules. -/
  category : ∀ category descriptor,
    descriptor ∈ registry.ofCategory category ↔ descriptor ∈ registry.modules ∧ descriptor.category = category
  inhabited : ∀ category, category ∈ registry.categories ↔ registry.ofCategory category ≠ []
  distinct : registry.categories.Nodup
  partition : (registry.categories.flatMap registry.ofCategory).Perm registry.modules
  /-- The statistics count all modules and those of each category, and nothing else. -/
  labels : registry.statistics.map (·.1) = "total" :: registry.categories.map ModuleCategory.name
  single : (registry.statistics.map (·.1)).Nodup
  total : registry.statistics.lookup "total" = some registry.size
  count : ∀ category ∈ registry.categories,
    registry.statistics.lookup category.name = some (registry.ofCategory category).length
  sum : (registry.categories.map fun category => (registry.ofCategory category).length).sum = registry.size

/-- After any registrations and removals all queries agree with the registrations that stand: an id leads to its
last registration since it was removed, and is listed in the place of the first one. -/
theorem views_ofUpdates (updates : List Update) : (ofUpdates updates).Views (standing updates) := by
  have holds := holds_ofUpdates updates
  generalize ofUpdates updates = registry at holds ⊢
  have ids : registry.ids.Perm (registry.modules.map Module.id) := List.mergeSort_perm _ _
  have distinct : registry.categories.Nodup := nodup_eraseDups _
  have partition : (registry.categories.flatMap registry.ofCategory).Perm registry.modules :=
    perm_flatMap_filter distinct fun descriptor member => List.mem_eraseDups.mpr (List.mem_map_of_mem member)
  have labels : registry.statistics.map (·.1) = "total" :: registry.categories.map ModuleCategory.name := by
    simp [statistics]
  exact {
    get := holds.get
    contains := fun id => Iff.rfl
    listed := fun _ => mem_modules_iff
    order := holds.ids ▸ isFirsts_eraseDups _
    ids := ids
    sorted := registry.pairwise_ids
    size := by rw [ids.length_eq, List.length_map, size]
    category := by simp [ofCategory]
    inhabited := by simp [categories, ofCategory, List.filter_eq_nil_iff]
    distinct := distinct
    partition := partition
    labels := labels
    single := by
      rw [labels, List.nodup_cons]
      exact ⟨by simp [ModuleCategory.name_ne_total], distinct.map ModuleCategory.name_injective⟩
    total := rfl
    count := fun category member => by
      rw [statistics, List.lookup_cons, beq_false_of_ne category.name_ne_total]
      exact lookup_map_of_mem ModuleCategory.name_injective
        (fun category => (registry.ofCategory category).length) member
    sum := by rw [← List.length_flatMap, partition.length_eq, size] }

end Registry

end Scaffold
