import Mathlib
import Scaffold.Proofs.Install.Accounts
import Scaffold.Proofs.Install.Attending
import Scaffold.Proofs.Install.State
import Scaffold.Proofs.Tree.Files

/-!
# What installations end with

A request that is resolved ends with a report of a run of its modules that accounts for all of them,
provided that the state file can be read and saved; a request that is not resolved changes nothing.
-/

namespace Scaffold

namespace Registry

variable {registry : Registry} {request : List String} {id dependency : String}

/-- What a module of a resolved request declares is registered. -/
theorem dependsOn_of_declares (complete : (registry.resolve request).missing = [])
    (settled : id ∈ (registry.explored request).order) (declares : registry.Declares id dependency) :
    registry.DependsOn id dependency := by
  refine ⟨declares, ?_⟩
  by_contra unknown
  have missing := walking_explored.reported id settled dependency declares (by simpa using unknown)
  have same : (registry.resolve request).missing = (registry.explored request).missing := by
    rw [resolve_eq]
  rw [← same, complete] at missing
  cases missing

/-- A resolved request has distinct registered modules, each behind what it declares. -/
theorem order_of_isOk (ok : (registry.resolve request).isOk = true) :
    (registry.resolve request).order.Nodup
      ∧ (∀ id ∈ (registry.resolve request).order, registry.contains id = true)
      ∧ ∀ id ∈ (registry.resolve request).order, ∀ dependency, registry.Declares id dependency →
        Precedes (registry.resolve request).order dependency id := by
  obtain ⟨free, complete⟩ := Resolution.isOk_eq_true_iff.mp ok
  obtain ⟨same, acyclic⟩ := explored_of_conflicts_eq_nil free
  rw [same]
  refine ⟨nodup_explored_order, fun id settled => ?_, fun id settled dependency declares => ?_⟩
  · exact (mem_explored_order.mp settled).contains
  · exact precedes_of_dependsOn acyclic settled (dependsOn_of_declares complete settled declares)

/-- The modules of a request in their order. -/
def ordered (registry : Registry) (request : List String) : List Module :=
  (registry.resolve request).order.filterMap registry.get?

/-- A module is registered under its own id. -/
theorem id_of_get? {descriptor : Module} (found : registry.get? id = some descriptor) :
    descriptor.id = id := by
  simpa using List.find?_some found

/-- The modules of registered ids have those ids. -/
theorem map_id_filterMap_get? {ids : List String} (registered : ∀ id ∈ ids, registry.contains id = true) :
    (ids.filterMap registry.get?).map Module.id = ids := by
  induction ids with
  | nil => rfl
  | cons id rest inductionHypothesis =>
      obtain ⟨here, others⟩ := List.forall_mem_cons.mp registered
      obtain ⟨descriptor, found⟩ := Option.isSome_iff_exists.mp here
      rw [List.filterMap_cons_some found, List.map_cons, inductionHypothesis others, id_of_get? found]

end Registry

namespace Install

variable (config : Config) (registry : Registry) (requested : List String)
  (values : List (String × Entries)) (session : Session)

/-- The session in which the first module is installed: the resolution was shown. -/
def opened : Session :=
  session.tell (Shown.sectionHeading "Resolving modules" ++ (registry.resolve requested).shown)

/-- The outcomes of all modules, and the session after the last of them. -/
def carriedOut : ModuleOutcomes × Session :=
  installEach config values [] (opened registry requested session) (registry.ordered requested)

/-- What a request that is resolved reports. -/
def reported : InstallReport :=
  ⟨registry.resolve requested, (carriedOut config registry requested values session).1⟩

variable {config registry requested values session} {now : String}

/-- A request that is resolved is installed and then remembered. -/
theorem run_of_isOk (ok : (registry.resolve requested).isOk = true) :
    (run config registry now requested values session).1
        = (remember config now registry (reported config registry requested values session)
            (carriedOut config registry requested values session).2).1.map
          (fun _ => reported config registry requested values session)
      ∧ (run config registry now requested values session).2.workspace.tree
        = (remember config now registry (reported config registry requested values session)
            (carriedOut config registry requested values session).2).2.workspace.tree := by
  unfold run
  dsimp only
  rw [if_pos ok]
  split
  next fault after answer =>
    have remembered : remember config now registry (reported config registry requested values session)
        (carriedOut config registry requested values session).2 = (.error fault, after) := answer
    rw [remembered]
    exact ⟨rfl, rfl⟩
  next after answer =>
    have remembered : remember config now registry (reported config registry requested values session)
        (carriedOut config registry requested values session).2 = (.ok (), after) := answer
    rw [remembered]
    exact ⟨rfl, rfl⟩

/-- The values of all modules have a JSON form after the last blueprint if they had one before. -/
theorem holdsJson_carriedOut (forms : ∀ id, Json.HasForm true (.mapping (given values id)))
    (holds : session.context.HoldsJson) :
    (carriedOut config registry requested values session).2.context.HoldsJson :=
  (runs_installEach config values [] (opened registry requested session) (registry.ordered requested)).holdsJson
    forms holds

/-- Settings of a project in the folder `proj`, whose installations go on after failures. -/
def projConfig : Config :=
  ⟨⟨.relative, ["modules"]⟩, ⟨.relative, ["proj"]⟩, true, true, false, ".stackforge",
    RunnerConfig.default⟩

/-- A session in a tree: nothing was supplied, no command launched, and no template file is there. -/
def sessionIn (tree : Tree) : Session :=
  ⟨⟨⟨"demo", ⟨.relative, ["proj"]⟩, "", "", "", "0.1.0", "MIT"⟩, [], none, none, [], none, .none⟩,
    ⟨tree, Runner.start RunnerConfig.default false [], [], .none⟩⟩

/-- A tree with nothing but the folder of the project. -/
def bare : Tree := ⟨[(["proj"], .folder)], []⟩

/-- The state file of the settings. -/
theorem statePath_projConfig :
    projConfig.statePath = ⟨.relative, ["proj", ".stackforge", "install-state.json"]⟩ := by
  decide

/-- The path of the state file is walked, and so is that of its folder. -/
theorem locate_statePath (tree : Tree) :
    tree.locate true projConfig.statePath
        = tree.walk true Tree.maxLinks tree.home ["proj", ".stackforge", "install-state.json"]
      ∧ ∀ followLast, tree.locate followLast projConfig.statePath.parent
        = tree.walk followLast Tree.maxLinks tree.home ["proj", ".stackforge"] := by
  rw [statePath_projConfig]
  exact ⟨Tree.locate_eq_walk (by decide) (by decide),
    fun _ => Tree.locate_eq_walk (by decide) (by decide)⟩

/-- No values are given. -/
theorem nothing_given (id : String) : Json.HasForm true (.mapping (given [] id)) := ⟨rfl, rfl⟩

/-- No values were supplied. -/
theorem nothing_supplied (tree : Tree) : (sessionIn tree).context.HoldsJson := fun _ => ⟨rfl, rfl⟩

/-- A console that shows every line. -/
def openConsole : Console := fun _ => .ok ()

/-- Lines are shown on it. -/
theorem shows_openConsole (told : List Shown) : openConsole.Shows told := fun _ _ => rfl

/-- A module whose name ends a style that was not begun. -/
def taggedModule : Module := ⟨"auth", "Auth [/beta]", "", .other, "", [], [], [], [], [], none⟩

/-- It stands alone. -/
def tagged : Registry := (Registry.empty.registerAll [taggedModule]).1

end Install

end Scaffold
