import Scaffold.Console
import Scaffold.Module.Basic
import Scaffold.Text.Case
import Scaffold.Text.Search

/-!
# Registries

The modules that can be installed, each under its id.  A module that is registered again keeps its place;
one that is removed and registered again goes to the end.
-/

namespace Scaffold

/-- Modules with distinct ids, in order of registration. -/
structure Registry where
  modules : List Module
  distinct : (modules.map Module.id).Nodup

namespace Registry

/-- The registry without modules. -/
def empty : Registry := ⟨[], List.nodup_nil⟩

/-- The module of an id. -/
def get? (registry : Registry) (id : String) : Option Module :=
  registry.modules.find? fun descriptor => descriptor.id == id

/-- Whether an id is registered. -/
def contains (registry : Registry) (id : String) : Bool := (registry.get? id).isSome

/-- The number of modules. -/
def size (registry : Registry) : Nat := registry.modules.length

/-- An id is registered exactly if a module has it. -/
theorem contains_eq_true_iff {registry : Registry} {id : String} :
    registry.contains id = true ↔ id ∈ registry.modules.map Module.id := by
  simp [contains, get?, List.find?_isSome]

/-- Puts a module in the place of the one with its id. -/
def replaced (modules : List Module) (descriptor : Module) : List Module :=
  modules.map fun present => if present.id == descriptor.id then descriptor else present

/-- Replacing a module changes no id. -/
theorem ids_replaced (modules : List Module) (descriptor : Module) :
    (replaced modules descriptor).map Module.id = modules.map Module.id := by
  simp only [replaced, List.map_map, List.map_inj_left, Function.comp_apply]
  intro present _
  split
  · rename_i same
    simpa using (beq_iff_eq.mp same).symm
  · rfl

/-- Adds a module, in the place of the one with its id if there is one. -/
def register (registry : Registry) (descriptor : Module) : Registry :=
  if known : registry.contains descriptor.id then
    ⟨replaced registry.modules descriptor, by
      rw [ids_replaced]
      exact registry.distinct⟩
  else
    ⟨registry.modules ++ [descriptor], by
      have fresh := mt contains_eq_true_iff.mpr known
      rw [List.map_append, List.nodup_append]
      refine ⟨registry.distinct, by simp, ?_⟩
      intro id member other single
      simp only [List.map_cons, List.map_nil, List.mem_singleton] at single
      exact fun same => fresh (by rwa [← single, ← same])⟩

/-- What is shown when a module is added. -/
def notice (registry : Registry) (descriptor : Module) : List Shown :=
  if registry.contains descriptor.id then
    [.line (Markup.styled "yellow"
      ("Module " ++ Markup.escape descriptor.id ++ " is already registered, overwriting"))]
  else []

/-- Adds modules in order; the second part of the answer is what is shown. -/
def registerAll (registry : Registry) : List Module → Registry × List Shown
  | [] => (registry, [])
  | descriptor :: rest =>
    let (filled, shown) := (registry.register descriptor).registerAll rest
    (filled, registry.notice descriptor ++ shown)

/-- Removes the module of an id. -/
def unregister (registry : Registry) (id : String) : Registry :=
  ⟨registry.modules.filter fun descriptor => descriptor.id != id,
    registry.distinct.sublist (List.filter_sublist.map Module.id)⟩

/-- The ids in alphabetical order. -/
def ids (registry : Registry) : List String :=
  (registry.modules.map Module.id).mergeSort fun first second => decide (first ≤ second)

/-- The modules of a category. -/
def ofCategory (registry : Registry) (category : ModuleCategory) : List Module :=
  registry.modules.filter fun descriptor => descriptor.category == category

/-- The categories that have modules, in order of their first module. -/
def categories (registry : Registry) : List ModuleCategory :=
  (registry.modules.map Module.category).eraseDups

/-- Whether a module mentions a text in small letters. -/
def mentions (descriptor : Module) (text : String) : Bool :=
  ([descriptor.id, descriptor.name, descriptor.description] ++ descriptor.tags).any fun fact =>
    Text.contains (Text.lowered fact) text

/-- The modules that mention a text, whatever its case. -/
def search (registry : Registry) (text : String) : List Module :=
  registry.modules.filter fun descriptor => mentions descriptor (Text.lowered text)

/-- The number of modules of every category, under the word for all of them and the category names. -/
def statistics (registry : Registry) : List (String × Nat) :=
  ("total", registry.size) :: registry.categories.map fun category =>
    (category.name, (registry.ofCategory category).length)

end Registry

end Scaffold
