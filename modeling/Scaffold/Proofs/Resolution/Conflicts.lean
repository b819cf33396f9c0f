import Scaffold.Proofs.Resolution.Order

/-!
# The conflicts of a resolution

Which conflicts a resolution reports and in which order.  `Registry.Excludes` says without any search that
two modules do not go together; `Conflict.ReportedBefore` is the order of a report: the pairs as they were
requested, then the cycles.

Requested modules that exclude each other keep a request from being resolved.  A module that is pulled in
as a dependency is not compared with the others, so an order may hold it together with a module that it
excludes (`resolve_holdsExcluded`), and this is the only way (`pulledIn_of_excludes`).
-/

namespace Scaffold

/-- A conflict that is reported before another: pairs in the order of the first module and then of the
second, and all of them before the cycles, of which no two are the same. -/
def Conflict.ReportedBefore (requested : List String) : Conflict → Conflict → Prop
  | .direct first second, .direct first' second' =>
    Precedes requested first first' ∨ first = first' ∧ Precedes requested second second'
  | .direct _ _, .cycle _ => True
  | .cycle _, .direct _ _ => False
  | .cycle id, .cycle id' => id ≠ id'

namespace Conflict.ReportedBefore

variable {requested requested' : List String} {earlier later : Conflict}

/-- No conflict is reported before itself. -/
theorem ne (distinct : requested.Nodup) (before : earlier.ReportedBefore requested later) :
    earlier ≠ later := by
  rintro rfl
  cases earlier with
  | direct first second =>
      rcases before with precedes | ⟨_, precedes⟩
      · exact precedes.ne distinct rfl
      · exact precedes.ne distinct rfl
  | cycle id => exact before rfl

/-- The order of a report follows the order of the request only. -/
theorem mono (kept : ∀ first second, Precedes requested first second → Precedes requested' first second)
    (before : earlier.ReportedBefore requested later) : earlier.ReportedBefore requested' later := by
  cases earlier with
  | direct first second =>
      cases later with
      | direct first' second' => exact before.imp (kept _ _) (And.imp_right (kept _ _))
      | cycle id => trivial
  | cycle id =>
      cases later with
      | direct first second => exact before
      | cycle id' => exact before

end Conflict.ReportedBefore

namespace Registry

/-- A registered module lists another among those that it does not go together with. -/
def Lists (registry : Registry) (id other : String) : Prop :=
  ∃ descriptor, registry.get? id = some descriptor ∧ other ∈ descriptor.conflicts

/-- One of two modules lists the other. -/
def Excludes (registry : Registry) (first second : String) : Prop :=
  registry.Lists first second ∨ registry.Lists second first

variable {registry : Registry} {ids request : List String} {first second id : String}

/-- Modules exclude each other if one of them lists the other. -/
theorem exclude_eq_true_iff : registry.exclude first second = true ↔ registry.Excludes first second := by
  have listed : ∀ id other, other ∈ ((registry.get? id).map Module.conflicts).getD []
      ↔ registry.Lists id other := by
    intro id other
    unfold Lists
    cases registry.get? id <;> simp
  simp only [exclude, Bool.or_eq_true, List.contains_iff_mem, listed]
  rfl

/-- The direct conflicts of modules are their pairs, in order, that exclude each other. -/
theorem mem_directConflicts {conflict : Conflict} :
    conflict ∈ registry.directConflicts ids
      ↔ ∃ first second, conflict = .direct first second ∧ Precedes ids first second
          ∧ registry.Excludes first second := by
  induction ids with
  | nil => simp [directConflicts, Precedes]
  | cons id ids inductionHypothesis =>
      rw [directConflicts, List.mem_append, inductionHypothesis]
      simp only [List.mem_map, List.mem_filter, exclude_eq_true_iff]
      constructor
      · rintro (⟨second, ⟨member, excludes⟩, rfl⟩ | ⟨first, second, rfl, precedes, excludes⟩)
        · exact ⟨id, second, rfl, Precedes.cons_iff.mpr (.inl ⟨rfl, member⟩), excludes⟩
        · exact ⟨first, second, rfl, Precedes.cons_iff.mpr (.inr precedes), excludes⟩
      · rintro ⟨first, second, rfl, precedes, excludes⟩
        rcases Precedes.cons_iff.mp precedes with ⟨rfl, member⟩ | later
        · exact .inl ⟨second, ⟨member, excludes⟩, rfl⟩
        · exact .inr ⟨first, second, rfl, later, excludes⟩

/-- Direct conflicts are reported in the order of the modules. -/
theorem pairwise_directConflicts (registry : Registry) (ids : List String) :
    (registry.directConflicts ids).Pairwise (Conflict.ReportedBefore ids) := by
  induction ids with
  | nil => exact .nil
  | cons id ids inductionHypothesis =>
      refine List.pairwise_append.mpr ⟨?_, ?_, ?_⟩
      · refine List.pairwise_map.mpr (List.Pairwise.filter _ ?_)
        exact (pairwise_precedes ids).imp fun precedes =>
          .inr ⟨rfl, Precedes.cons_iff.mpr (.inr precedes)⟩
      · exact inductionHypothesis.imp <| Conflict.ReportedBefore.mono fun _ _ precedes =>
          Precedes.cons_iff.mpr (.inr precedes)
      · intro earlier inside later inside'
        obtain ⟨second, _, rfl⟩ := List.mem_map.mp inside
        obtain ⟨first, second', rfl, precedes, _⟩ := mem_directConflicts.mp inside'
        exact .inl (Precedes.cons_iff.mpr (.inl ⟨rfl, precedes.mem_left⟩))

/-- The pairs that a resolution reports are those of registered requested modules, in the order of the
request, that exclude each other. -/
theorem direct_mem_conflicts :
    Conflict.direct first second ∈ (registry.resolve request).conflicts
      ↔ Precedes request.eraseDups first second ∧ registry.contains first = true
          ∧ registry.contains second = true ∧ registry.Excludes first second := by
  simp only [resolve_eq, List.mem_append, List.mem_map, reduceCtorEq, and_false, exists_false, or_false,
    mem_directConflicts, present, Precedes.filter_iff, Conflict.direct.injEq]
  constructor
  · rintro ⟨_, _, ⟨rfl, rfl⟩, ⟨precedes, known, known'⟩, excludes⟩
    exact ⟨precedes, known, known', excludes⟩
  · rintro ⟨precedes, known, known', excludes⟩
    exact ⟨first, second, ⟨rfl, rfl⟩, ⟨precedes, known, known'⟩, excludes⟩

/-- The cycles that a resolution reports are those that were found. -/
theorem cycle_mem_conflicts :
    Conflict.cycle id ∈ (registry.resolve request).conflicts
      ↔ id ∈ (registry.explored request).cycles := by
  simp [resolve_eq, mem_directConflicts]

/-- A resolution reports its conflicts in order. -/
theorem pairwise_conflicts :
    (registry.resolve request).conflicts.Pairwise (Conflict.ReportedBefore request.eraseDups) := by
  rw [resolve_eq]
  refine List.pairwise_append.mpr ⟨?_, ?_, ?_⟩
  · exact (registry.pairwise_directConflicts _).imp <| Conflict.ReportedBefore.mono fun _ _ precedes =>
      (Precedes.filter_iff.mp precedes).1
  · exact List.pairwise_map.mpr walking_explored.cyclesDistinct
  · intro earlier inside later inside'
    obtain ⟨first, second, rfl, _⟩ := mem_directConflicts.mp inside
    obtain ⟨id, _, rfl⟩ := List.mem_map.mp inside'
    trivial

/-- No conflict is reported twice. -/
theorem nodup_conflicts : (registry.resolve request).conflicts.Nodup :=
  pairwise_conflicts.imp fun before => before.ne (nodup_eraseDups request)

/-! ## Modules of an order that exclude each other -/

/-- A module of an order that was not requested, and on which another module of the order depends. -/
def PulledIn (registry : Registry) (request : List String) (id : String) : Prop :=
  id ∉ request ∧ ∃ dependent ∈ (registry.resolve request).order, registry.DependsOn dependent id

/-- A request against which nothing stands is answered by what it needs. -/
theorem mem_order_of_isOk (ok : (registry.resolve request).isOk = true) :
    id ∈ (registry.resolve request).order ↔ registry.Needs request id := by
  rw [(explored_of_conflicts_eq_nil (Resolution.isOk_eq_true_iff.mp ok).1).1]
  exact mem_explored_order

/-- What is installed without having been requested is pulled in. -/
theorem pulledIn_of_notMem (ok : (registry.resolve request).isOk = true)
    (installed : id ∈ (registry.resolve request).order) (unrequested : id ∉ request) :
    registry.PulledIn request id := by
  obtain ⟨root, member, registered, path⟩ := (mem_order_of_isOk ok).mp installed
  cases path with
  | refl => exact absurd member unrequested
  | @tail dependent _ before depends =>
      exact ⟨unrequested, dependent, (mem_order_of_isOk ok).mpr ⟨root, member, registered, before⟩,
        depends⟩

/-- No two different requested modules of an order exclude each other. -/
theorem notMem_or_notMem_of_excludes (ok : (registry.resolve request).isOk = true)
    (firstInstalled : first ∈ (registry.resolve request).order)
    (secondInstalled : second ∈ (registry.resolve request).order) (different : first ≠ second)
    (excludes : registry.Excludes first second) : first ∉ request ∨ second ∉ request := by
  by_contra both
  obtain ⟨firstRequested, secondRequested⟩ : first ∈ request ∧ second ∈ request := by
    simpa only [not_or, not_not] using both
  have known := ((mem_order_of_isOk ok).mp firstInstalled).contains
  have known' := ((mem_order_of_isOk ok).mp secondInstalled).contains
  -- Whichever of the two was requested first, the pair would have been reported.
  have unreported : ∀ earlier later,
      .direct earlier later ∉ (registry.resolve request).conflicts := by
    rw [(Resolution.isOk_eq_true_iff.mp ok).1]
    exact fun _ _ => List.not_mem_nil
  rcases Precedes.total (List.mem_eraseDups.mpr firstRequested) (List.mem_eraseDups.mpr secondRequested)
    different with precedes | precedes
  · exact unreported first second (direct_mem_conflicts.mpr ⟨precedes, known, known', excludes⟩)
  · exact unreported second first (direct_mem_conflicts.mpr ⟨precedes, known', known, excludes.symm⟩)

/-- If two different modules of an order exclude each other, one of them was pulled in as a dependency. -/
theorem pulledIn_of_excludes (ok : (registry.resolve request).isOk = true)
    (firstInstalled : first ∈ (registry.resolve request).order)
    (secondInstalled : second ∈ (registry.resolve request).order) (different : first ≠ second)
    (excludes : registry.Excludes first second) :
    registry.PulledIn request first ∨ registry.PulledIn request second :=
  (notMem_or_notMem_of_excludes ok firstInstalled secondInstalled different excludes).imp
    (pulledIn_of_notMem ok firstInstalled) (pulledIn_of_notMem ok secondInstalled)

/-- A module that excludes its own dependency, and one that depends on two modules of which one excludes
the other. -/
def clashing : Registry :=
  ofDependencies
    [("app", ["core"], ["core"]), ("core", [], []), ("suite", ["ui", "legacy"], []),
      ("ui", [], ["legacy"]), ("legacy", [], [])]

/-- An order holds a requested module with a dependency that it excludes. -/
theorem pulledIn_of_excludes_clashing :
    (clashing.resolve ["app"]).isOk = true ∧ (clashing.resolve ["app"]).order = ["core", "app"]
      ∧ clashing.Excludes "app" "core"
      ∧ (clashing.PulledIn ["app"] "app" ∨ clashing.PulledIn ["app"] "core") := by
  have ok : (clashing.resolve ["app"]).isOk = true := by cbv
  have order : (clashing.resolve ["app"]).order = ["core", "app"] := by cbv
  have excludes : clashing.Excludes "app" "core" := exclude_eq_true_iff.mp (by cbv)
  exact ⟨ok, order, excludes, pulledIn_of_excludes ok (by simp [order]) (by simp [order]) (by decide)
    excludes⟩

/-- Requests are resolved although their orders hold two modules of which one lists the other: a requested
module and its dependency, or two dependencies. -/
theorem resolve_holdsExcluded :
    (∃ first ∈ (clashing.resolve ["app"]).order, ∃ second ∈ (clashing.resolve ["app"]).order,
        (clashing.resolve ["app"]).isOk = true ∧ first ≠ second ∧ clashing.Lists first second)
      ∧ ∃ first ∈ (clashing.resolve ["suite"]).order, ∃ second ∈ (clashing.resolve ["suite"]).order,
        (clashing.resolve ["suite"]).isOk = true ∧ first ≠ second ∧ clashing.Lists first second
          ∧ first ∉ ["suite"] ∧ second ∉ ["suite"] := by
  have app : (clashing.resolve ["app"]).order = ["core", "app"] := by cbv
  have suite : (clashing.resolve ["suite"]).order = ["ui", "legacy", "suite"] := by cbv
  refine ⟨⟨"app", by simp [app], "core", by simp [app], by cbv, by decide, ?_⟩,
    "ui", by simp [suite], "legacy", by simp [suite], by cbv, by decide, ?_, by decide, by decide⟩
  · exact ⟨_, rfl, by decide⟩
  · exact ⟨_, rfl, by decide⟩

end Registry

end Scaffold
