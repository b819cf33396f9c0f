import Scaffold.Proofs.Resolution.Conflicts

/-!
# Cycles of dependencies, and what a resolution reports

`Registry.IsCycle` are the ways that lead from a module along dependencies back to it.  A resolution names
modules on such cycles only, none of them twice, and of every cycle among what is needed at least one
(`resolve_namesCycles`).

`Resolution.ReportsDefects` says which missing ids and which pairs of modules an answer has to report, in
which order, and that it has no order beside a conflict.  Every answer does (`resolve_reportsDefects`).
-/

namespace Scaffold

namespace Registry

/-- Modules each of which depends on the next, and the last on the first. -/
def IsCycle (registry : Registry) : List String → Prop
  | [] => False
  | first :: rest => (first :: (rest ++ [first])).IsChain registry.DependsOn

/-- Two items of a relation that leads from one to the other are connected by a chain without
repetitions. -/
theorem exists_nodup_chain {related : String → String → Prop} {start finish : String}
    (path : Relation.ReflTransGen related start finish) :
    ∃ rest, (start :: rest).IsChain related ∧ (start :: rest).getLast? = some finish
      ∧ (start :: rest).Nodup := by
  induction path using Relation.ReflTransGen.head_induction_on with
  | refl => exact ⟨[], .singleton _, rfl, by simp⟩
  | @head start next step _ inductionHypothesis =>
      obtain ⟨rest, linked, last, distinct⟩ := inductionHypothesis
      by_cases again : start ∈ next :: rest
      · -- The chain comes back to its start: what lies before that is left out.
        obtain ⟨before, after, split⟩ := List.append_of_mem again
        rw [split] at linked last distinct
        refine ⟨after, linked.right_of_append, ?_, (List.nodup_append.mp distinct).2.1⟩
        rwa [List.getLast?_append_of_ne_nil _ (by simp)] at last
      · exact ⟨next :: rest, List.isChain_cons_cons.mpr ⟨step, linked⟩, by simpa using last,
          List.nodup_cons.mpr ⟨again, distinct⟩⟩

variable {registry : Registry} {request ids : List String} {id : String}

/-- A module that depends on itself, directly or not, lies on a cycle without repetitions. -/
theorem exists_isCycle (path : Relation.TransGen registry.DependsOn id id) :
    ∃ ids, registry.IsCycle ids ∧ ids.Nodup ∧ id ∈ ids := by
  obtain ⟨next, step, back⟩ := Relation.TransGen.head'_iff.mp path
  obtain ⟨rest, linked, last, distinct⟩ := exists_nodup_chain back
  refine ⟨next :: rest, ?_, distinct, List.mem_of_getLast? last⟩
  refine linked.append (.singleton next) ?_
  intro closing isLast start isStart
  rw [last, Option.mem_some_iff] at isLast
  rw [List.head?_cons, Option.mem_some_iff] at isStart
  rwa [← isLast, ← isStart]

/-- The modules of a cycle depend on each other. -/
theorem IsCycle.transGen {other : String} (cycle : registry.IsCycle ids) (member : id ∈ ids)
    (otherMember : other ∈ ids) : Relation.TransGen registry.DependsOn id other := by
  cases ids with
  | nil => cases cycle
  | cons first rest =>
      have reaches : (first :: (rest ++ [first])).Pairwise (Relation.TransGen registry.DependsOn) :=
        (cycle.imp fun _ _ => Relation.TransGen.single).pairwise
      have onward : ∀ later ∈ first :: rest, Relation.TransGen registry.DependsOn first later := by
        intro later inside
        refine (List.pairwise_cons.mp reaches).1 later ?_
        rcases List.mem_cons.mp inside with rfl | inside
        · simp
        · exact List.mem_append_left _ inside
      have back : Relation.TransGen registry.DependsOn id first :=
        (List.pairwise_append.mp (List.cons_append ▸ reaches)).2.2 id member first (by simp)
      exact back.trans (onward other otherMember)

/-- What something needed depends on, directly or not, is needed. -/
theorem Needs.of_transGen {other : String} (needed : registry.Needs request id)
    (path : Relation.TransGen registry.DependsOn id other) : registry.Needs request other := by
  induction path with
  | single depends => exact needed.step depends
  | tail _ depends inductionHypothesis => exact inductionHypothesis.step depends

/-- Of every cycle of needed modules one is named. -/
theorem exists_named_of_isCycle (cycle : registry.IsCycle ids)
    (needed : ∀ id ∈ ids, registry.Needs request id) :
    ∃ id ∈ ids, id ∈ (registry.explored request).cycles := by
  by_contra unnamed
  cases ids with
  | nil => cases cycle
  | cons first rest =>
      have members : ∀ id ∈ first :: (rest ++ [first]), id ∈ first :: rest := by
        simp only [List.mem_cons, List.mem_append, List.not_mem_nil, or_false]
        tauto
      -- Without a named module every dependency along the cycle would be settled before its dependent.
      have ordered : (first :: (rest ++ [first])).IsChain fun id dependency =>
          Precedes (registry.explored request).order dependency id := by
        refine cycle.imp_of_mem_imp fun id dependency inside inside' depends => ?_
        have settled := mem_explored_order.mpr (needed id (members id inside))
        rcases walking_explored.ordered id settled dependency depends with named | precedes
        · exact absurd ⟨dependency, members dependency inside', named⟩ unnamed
        · exact precedes
      have isTrans : IsTrans String fun id dependency =>
          Precedes (registry.explored request).order dependency id :=
        ⟨fun _ _ _ near far => far.trans nodup_explored_order near⟩
      have circular : Precedes (registry.explored request).order first first :=
        (List.pairwise_cons.mp ordered.pairwise).1 first (by simp)
      exact circular.ne nodup_explored_order rfl

/-- The named modules lie on cycles without repetitions of needed modules, none is named twice, and every
cycle that leads through a needed module has one that is named. -/
theorem resolve_namesCycles (registry : Registry) (request : List String) :
    (∀ id, Conflict.cycle id ∈ (registry.resolve request).conflicts →
        ∃ ids, registry.IsCycle ids ∧ ids.Nodup ∧ id ∈ ids ∧
          ∀ member ∈ ids, registry.Needs request member)
      ∧ (∀ id, (registry.resolve request).conflicts.count (.cycle id) ≤ 1)
      ∧ ∀ ids, registry.IsCycle ids → (∃ id ∈ ids, registry.Needs request id) →
          ∃ id ∈ ids, Conflict.cycle id ∈ (registry.resolve request).conflicts := by
  refine ⟨?_, fun id => List.nodup_iff_count.mp nodup_conflicts _, ?_⟩
  · intro id reported
    obtain ⟨settled, path⟩ := walking_explored.cyclic id (cycle_mem_conflicts.mp reported)
    have needed : registry.Needs request id :=
      mem_explored_order.mp (by simpa [OpenModules.ids] using settled)
    obtain ⟨ids, cycle, distinct, member⟩ := exists_isCycle path
    exact ⟨ids, cycle, distinct, member, fun other inside =>
      needed.of_transGen (cycle.transGen member inside)⟩
  · rintro ids cycle ⟨start, inside, needed⟩
    obtain ⟨id, member, named⟩ := exists_named_of_isCycle cycle fun other otherInside =>
      needed.of_transGen (cycle.transGen inside otherInside)
    exact ⟨id, member, cycle_mem_conflicts.mpr named⟩

/-- Two cycles that share a module, and a module that depends on itself; one of the modules also names an
unknown id, and another one excludes the module that depends on itself. -/
def tangle : Registry :=
  ofDependencies
    [("app", ["ui", "ghost"], []), ("ui", ["core", "app"], []), ("core", ["ui"], ["echo"]),
      ("echo", ["echo"], [])]

/-- Three modules of the tangle are named, one of them on the cycle that does not lead through the requested
modules. -/
theorem resolve_namesCycles_tangle :
    (tangle.resolve ["app", "echo"]).conflicts = [.cycle "ui", .cycle "app", .cycle "echo"]
      ∧ tangle.IsCycle ["core", "ui"] ∧ tangle.Needs ["app", "echo"] "core"
      ∧ ∃ id ∈ ["core", "ui"], Conflict.cycle id ∈ (tangle.resolve ["app", "echo"]).conflicts := by
  have ofApp : tangle.dependencies "app" = ["ui", "ghost"] := by cbv
  have ofUi : tangle.dependencies "ui" = ["core", "app"] := by cbv
  have ofCore : tangle.dependencies "core" = ["ui"] := by cbv
  have app : tangle.DependsOn "app" "ui" := ⟨by simp [ofApp], by cbv⟩
  have core : tangle.DependsOn "ui" "core" := ⟨by simp [ofUi], by cbv⟩
  have ui : tangle.DependsOn "core" "ui" := ⟨by simp [ofCore], by cbv⟩
  have cycle : tangle.IsCycle ["core", "ui"] :=
    List.isChain_cons_cons.mpr ⟨ui, List.isChain_cons_cons.mpr ⟨core, .singleton _⟩⟩
  have needed : tangle.Needs ["app", "echo"] "core" :=
    ((Needs.of_mem (by simp) (by cbv)).step app).step core
  exact ⟨by cbv, cycle, needed,
    (resolve_namesCycles tangle ["app", "echo"]).2.2 _ cycle ⟨"core", by simp, needed⟩⟩

end Registry

/-! ## What is reported -/

/-- An answer reports all that stands against a request, and nothing else. -/
structure Resolution.ReportsDefects (answer : Resolution) (registry : Registry)
    (request : List String) : Prop where
  /-- Missing are the unregistered ids that are requested, or that something needed depends on. -/
  missingExact : ∀ id, id ∈ answer.missing ↔ registry.contains id = false ∧
    (id ∈ request ∨ ∃ dependent, registry.Needs request dependent ∧
      id ∈ registry.dependencies dependent)
  missingDistinct : answer.missing.Nodup
  /-- The requested ones come first, as they were requested. -/
  requestedFirst : ∃ others,
    answer.missing = (request.eraseDups.filter fun id => !registry.contains id) ++ others ∧
      ∀ id ∈ others, id ∉ request
  /-- The pairs are those of registered requested modules, in the order of the request, of which one lists
  the other. -/
  directExact : ∀ first second, .direct first second ∈ answer.conflicts ↔
    Precedes request.eraseDups first second ∧ registry.contains first = true ∧
      registry.contains second = true ∧ registry.Excludes first second
  conflictsDistinct : answer.conflicts.Nodup
  /-- The pairs stand as they were requested, and before the cycles. -/
  conflictsInOrder : answer.conflicts.Pairwise (Conflict.ReportedBefore request.eraseDups)
  orderEmpty : answer.conflicts ≠ [] → answer.order = []

/-- Noting an item adds it at the end if at all. -/
theorem Findings.prefix_noted (items : List String) (item : String) : items <+: noted items item := by
  unfold noted
  split
  · exact List.prefix_refl _
  · exact List.prefix_append _ _

namespace Registry

variable (registry : Registry)

/-- A walk adds missing ids behind those that are known. -/
theorem missing_prefix_walk (stack : OpenModules) (findings : Findings) :
    findings.missing <+: (registry.walk stack findings).missing := by
  fun_induction registry.walk stack findings with
  | case1 findings => exact List.prefix_refl _
  | case2 findings id rest inductionHypothesis => exact inductionHypothesis
  | case3 findings id dependency remaining rest _ _ inductionHypothesis => exact inductionHypothesis
  | case4 findings id dependency remaining rest _ _ _ inductionHypothesis => exact inductionHypothesis
  | case5 findings id dependency remaining rest _ _ _ inductionHypothesis => exact inductionHypothesis
  | case6 findings id dependency remaining rest _ inductionHypothesis =>
      exact (Findings.prefix_noted findings.missing dependency).trans inductionHypothesis

/-- So do visits one after the other. -/
theorem missing_prefix_visits (ids : List String) (findings : Findings) :
    findings.missing <+: (ids.foldl registry.visit findings).missing := by
  induction ids generalizing findings with
  | nil => exact List.prefix_refl _
  | cons id ids inductionHypothesis =>
      refine List.IsPrefix.trans ?_ (inductionHypothesis _)
      unfold visit
      split
      · exact List.prefix_refl _
      · exact registry.missing_prefix_walk _ findings

variable {registry} {request : List String} {id : String}

/-- Missing are the unregistered ids that are requested, or that something needed depends on. -/
theorem mem_explored_missing :
    id ∈ (registry.explored request).missing ↔ registry.contains id = false ∧
      (id ∈ request ∨ ∃ dependent, registry.Needs request dependent ∧
        id ∈ registry.dependencies dependent) := by
  constructor
  · exact walking_explored.absent id
  · rintro ⟨unknown, requested | ⟨dependent, needed, declared⟩⟩
    · refine visited_explored.2.1.missing ?_
      simp [unregistered, List.mem_eraseDups, requested, unknown]
    · exact walking_explored.reported dependent (mem_explored_order.mpr needed) id declared unknown

/-- The requested ids that are missing come first. -/
theorem exists_missing_eq :
    ∃ others, (registry.explored request).missing = registry.unregistered request ++ others ∧
      ∀ id ∈ others, id ∉ request := by
  obtain ⟨others, split⟩ := registry.missing_prefix_visits (registry.present request)
    ⟨[], [], registry.unregistered request⟩
  refine ⟨others, split.symm, fun id member requested => ?_⟩
  have distinct : (registry.unregistered request ++ others).Nodup := by
    rw [split]
    exact walking_explored.missingDistinct
  have unknown : registry.contains id = false :=
    (walking_explored.absent id (split ▸ List.mem_append_right _ member)).1
  have first : id ∈ registry.unregistered request := by
    simp [unregistered, List.mem_eraseDups, requested, unknown]
  exact (List.nodup_append.mp distinct).2.2 id first id member rfl

variable (registry request)

/-- Every answer reports all that stands against a request, and nothing else. -/
theorem resolve_reportsDefects : (registry.resolve request).ReportsDefects registry request where
  missingExact id := by
    rw [resolve_eq]
    exact mem_explored_missing
  missingDistinct := by
    rw [resolve_eq]
    exact walking_explored.missingDistinct
  requestedFirst := by
    rw [resolve_eq]
    exact exists_missing_eq
  directExact _ _ := direct_mem_conflicts
  conflictsDistinct := nodup_conflicts
  conflictsInOrder := pairwise_conflicts
  orderEmpty found := by
    rw [resolve_eq] at found ⊢
    exact if_neg (by simpa using found)

end Registry

end Scaffold
