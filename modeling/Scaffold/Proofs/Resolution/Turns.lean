import Mathlib.Algebra.Ring.Nat
import Scaffold.Proofs.Resolution.Order
import Scaffold.Resolution.Findings

/-!
# The turns of a visit

The modules of a request are visited turn by turn.  `Registry.Turn` says what one turn does, with a
constructor for each kind of turn, and `Registry.Turns` counts them.  A turn changes nothing about what
will have been found in the end (`Turn.outcome_eq`), it takes one unit from the work that is left
(`Turn.work_eq`), and where work is left there is a turn (`exists_turn`).  Hence every request comes to
its end, whichever turns were taken before, and the number of turns is known (`Turns.finishes`).

The walk keeps the open modules on a stack; `Registry.traverse` is the recursion over the dependencies of a
module in the order in which it declares them.  Both find the same (`outcome_open`, `outcome_waiting`),
whatever is open and whatever was found before, so a request has the same answer by either
(`resolve_eq_resolveRecursively`).
-/

namespace Scaffold

/-- Where the visits of a request stand: the requested modules that wait, the open modules, and what was
found. -/
structure Visits where
  waiting : List String
  stack : OpenModules
  findings : Findings

namespace Registry

/-- One turn.  While no module is open the next requested one is taken up; otherwise the innermost open
module goes on to its next dependency, or is settled if none remains. -/
inductive Turn (registry : Registry) : Visits → Visits → Prop where
  | skip {id waiting findings} (settled : id ∈ findings.order) :
      Turn registry ⟨id :: waiting, [], findings⟩ ⟨waiting, [], findings⟩
  | start {id waiting findings} (known : registry.contains id = true)
      (unsettled : id ∉ findings.order) :
      Turn registry ⟨id :: waiting, [], findings⟩
        ⟨waiting, [(id, registry.dependencies id)], findings⟩
  | settle {waiting id rest findings} :
      Turn registry ⟨waiting, (id, []) :: rest, findings⟩ ⟨waiting, rest, findings.settle id⟩
  | loop {waiting id dependency remaining rest findings}
      (known : registry.contains dependency = true)
      (opened : dependency ∈ OpenModules.ids ((id, remaining) :: rest)) :
      Turn registry ⟨waiting, (id, dependency :: remaining) :: rest, findings⟩
        ⟨waiting, (id, remaining) :: rest, findings.loop dependency⟩
  | pass {waiting id dependency remaining rest findings}
      (known : registry.contains dependency = true)
      (closed : dependency ∉ OpenModules.ids ((id, remaining) :: rest))
      (settled : dependency ∈ findings.order) :
      Turn registry ⟨waiting, (id, dependency :: remaining) :: rest, findings⟩
        ⟨waiting, (id, remaining) :: rest, findings⟩
  | push {waiting id dependency remaining rest findings}
      (known : registry.contains dependency = true)
      (closed : dependency ∉ OpenModules.ids ((id, remaining) :: rest))
      (unsettled : dependency ∉ findings.order) :
      Turn registry ⟨waiting, (id, dependency :: remaining) :: rest, findings⟩
        ⟨waiting, (dependency, registry.dependencies dependency) :: (id, remaining) :: rest, findings⟩
  | miss {waiting id dependency remaining rest findings}
      (unknown : registry.contains dependency = false) :
      Turn registry ⟨waiting, (id, dependency :: remaining) :: rest, findings⟩
        ⟨waiting, (id, remaining) :: rest, findings.miss dependency⟩

/-- A number of turns, one after the other. -/
inductive Turns (registry : Registry) : Nat → Visits → Visits → Prop where
  | none {visits} : Turns registry 0 visits visits
  | next {count before between after} (turn : registry.Turn before between)
      (onward : registry.Turns count between after) : Turns registry (count + 1) before after

/-- What will have been found when nothing waits and nothing is open. -/
def outcome (registry : Registry) (visits : Visits) : Findings :=
  visits.waiting.foldl registry.visit (registry.walk visits.stack visits.findings)

/-- The turns that a module takes: one for each dependency that it declares, and one to be settled. -/
def share (registry : Registry) (id : String) : Nat := (registry.dependencies id).length + 1

/-- The turns that are left if every registered module is still to be reached. -/
def work (registry : Registry) (visits : Visits) : Nat :=
  visits.waiting.length + visits.stack.steps
    + ((registry.idsOutside (isReached visits.stack visits.findings)).map registry.share).sum

variable {registry : Registry} {visits later before after : Visits} {count : Nat}

/-- A turn leaves the outcome as it is. -/
theorem Turn.outcome_eq (turn : registry.Turn before after) :
    registry.outcome before = registry.outcome after := by
  unfold outcome
  cases turn with
  | skip settled => simp [walk, visit, settled]
  | start known unsettled => simp [walk.eq_1, visit, unsettled]
  | settle => rw [walk]
  | loop known opened => rw [walk, dif_pos known, dif_pos (by simpa using opened)]
  | pass known closed settled =>
      rw [walk, dif_pos known, dif_neg (by simpa using closed), dif_pos (by simpa using settled)]
  | push known closed unsettled =>
      rw [walk, dif_pos known, dif_neg (by simpa using closed), dif_neg (by simpa using unsettled)]
  | miss unknown => rw [walk, dif_neg (by simp [unknown])]

/-- A registered module that is reached takes its share out of the work outside. -/
theorem sum_share_idsOutside {inside : String → Bool} {id : String}
    (known : registry.contains id = true) (outside : inside id = false) :
    ((registry.idsOutside inside).map registry.share).sum
      = registry.share id
        + ((registry.idsOutside fun other => other == id || inside other).map registry.share).sum := by
  have distinct : (registry.idsOutside inside).Nodup := registry.distinct.filter _
  have member : id ∈ registry.idsOutside inside := by
    simp [idsOutside, outside, contains_eq_true_iff.mp known]
  have rest : registry.idsOutside (fun other => other == id || inside other)
      = (registry.idsOutside inside).erase id := by
    rw [distinct.erase_eq_filter, idsOutside, idsOutside, List.filter_filter]
    refine List.filter_congr fun other _ => ?_
    rw [Bool.not_or]
    rfl
  rw [rest, ← List.sum_cons, ← List.map_cons]
  exact ((List.perm_cons_erase member).map registry.share).sum_nat

/-- Opening a module that is registered and was not reached leaves the same work. -/
theorem work_open {waiting : List String} {stack : OpenModules} {findings : Findings} {id : String}
    (known : registry.contains id = true) (unreached : isReached stack findings id = false) :
    registry.work ⟨waiting, stack, findings⟩
      = registry.work ⟨waiting, (id, registry.dependencies id) :: stack, findings⟩ := by
  have reached : isReached ((id, registry.dependencies id) :: stack) findings
      = fun other => other == id || isReached stack findings other := by
    funext other
    rw [isReached, isReached, OpenModules.ids, OpenModules.ids, List.map_cons, List.contains_cons,
      Bool.or_assoc]
  simp only [work, reached, sum_share_idsOutside known unreached, OpenModules.steps, share]
  omega

/-- Going on to the next dependency takes one unit of work. -/
theorem work_advance {waiting : List String} {id dependency : String} {remaining : List String}
    {rest : OpenModules} {findings findings' : Findings} (kept : findings'.order = findings.order) :
    registry.work ⟨waiting, (id, dependency :: remaining) :: rest, findings⟩
      = registry.work ⟨waiting, (id, remaining) :: rest, findings'⟩ + 1 := by
  have same : isReached ((id, dependency :: remaining) :: rest) findings
      = isReached ((id, remaining) :: rest) findings' := by
    unfold isReached
    rw [kept]
    rfl
  simp only [work, same, OpenModules.steps, List.length_cons]
  omega

/-- A turn takes one unit of work. -/
theorem Turn.work_eq (turn : registry.Turn before after) :
    registry.work before = registry.work after + 1 := by
  cases turn with
  | skip settled =>
      simp only [work, List.length_cons]
      omega
  | @start id waiting findings known unsettled =>
      rw [← work_open known (by simpa [isReached, OpenModules.ids] using unsettled)]
      simp only [work, List.length_cons]
      omega
  | @settle waiting id rest findings =>
      simp only [work, isReached_settle, OpenModules.steps, List.length_nil]
      omega
  | loop => exact work_advance rfl
  | pass => exact work_advance rfl
  | @push waiting id dependency remaining rest findings known closed unsettled =>
      -- The module goes on first; opening the dependency then moves its share from outside to the stack.
      rw [work_advance rfl, ← work_open known]
      simpa [isReached] using ⟨closed, unsettled⟩
  | miss => exact work_advance rfl

/-- A turn lets no other module wait. -/
theorem Turn.waiting_subset (turn : registry.Turn before after) : after.waiting ⊆ before.waiting := by
  cases turn with
  | skip | start => exact List.subset_cons_self _ _
  | settle | loop | pass | push | miss => exact List.Subset.refl _

namespace Turns

/-- Turns leave the outcome as it is. -/
theorem outcome_eq (turns : registry.Turns count before after) :
    registry.outcome before = registry.outcome after := by
  induction turns with
  | none => rfl
  | next turn _ inductionHypothesis => exact turn.outcome_eq.trans inductionHypothesis

/-- Every turn takes one unit of work. -/
theorem work_eq (turns : registry.Turns count before after) :
    registry.work before = registry.work after + count := by
  induction turns with
  | none => rfl
  | next turn _ inductionHypothesis =>
      rw [turn.work_eq, inductionHypothesis]
      rfl

/-- What waits was waiting before. -/
theorem waiting_subset (turns : registry.Turns count before after) : after.waiting ⊆ before.waiting := by
  induction turns with
  | none => exact List.Subset.refl _
  | next turn _ inductionHypothesis => exact List.Subset.trans inductionHypothesis turn.waiting_subset

end Turns

/-- While a module waits or is open there is a turn. -/
theorem exists_turn (visits : Visits) (known : ∀ id ∈ visits.waiting, registry.contains id = true)
    (unfinished : visits.waiting ≠ [] ∨ visits.stack ≠ []) : ∃ later, registry.Turn visits later := by
  obtain ⟨waiting, stack, findings⟩ := visits
  cases stack with
  | nil =>
      cases waiting with
      | nil => simp at unfinished
      | cons id waiting =>
          by_cases settled : id ∈ findings.order
          · exact ⟨_, .skip settled⟩
          · exact ⟨_, .start (known id List.mem_cons_self) settled⟩
  | cons innermost rest =>
      obtain ⟨id, remaining⟩ := innermost
      cases remaining with
      | nil => exact ⟨_, .settle⟩
      | cons dependency remaining =>
          cases registered : registry.contains dependency with
          | false => exact ⟨_, .miss registered⟩
          | true =>
              by_cases opened : dependency ∈ OpenModules.ids ((id, remaining) :: rest)
              · exact ⟨_, .loop registered opened⟩
              · by_cases settled : dependency ∈ findings.order
                · exact ⟨_, .pass registered opened settled⟩
                · exact ⟨_, .push registered opened settled⟩

/-- Visits of registered modules come to their end. -/
theorem exists_turns (visits : Visits) (known : ∀ id ∈ visits.waiting, registry.contains id = true) :
    ∃ count, registry.Turns count visits ⟨[], [], registry.outcome visits⟩ := by
  induction left : registry.work visits using Nat.strongRecOn generalizing visits with
  | ind amount inductionHypothesis =>
      by_cases unfinished : visits.waiting ≠ [] ∨ visits.stack ≠ []
      · obtain ⟨later, turn⟩ := registry.exists_turn visits known unfinished
        have less : registry.work later < amount := by
          rw [← left, turn.work_eq]
          exact Nat.lt_succ_self _
        obtain ⟨count, turns⟩ := inductionHypothesis _ less later
          (fun id member => known id (turn.waiting_subset member)) rfl
        exact ⟨count + 1, .next turn (turn.outcome_eq ▸ turns)⟩
      · obtain ⟨waiting, stack, findings⟩ := visits
        obtain ⟨rfl, rfl⟩ : waiting = [] ∧ stack = [] := by simpa using unfinished
        exact ⟨0, by simpa [outcome, walk] using Turns.none⟩

/-- After any number of turns the visits can be finished, and all turns together do all the work that
there is between the beginning and the end. -/
theorem Turns.finishes (turns : registry.Turns count visits later)
    (known : ∀ id ∈ visits.waiting, registry.contains id = true) :
    ∃ more, registry.Turns more later ⟨[], [], registry.outcome visits⟩
      ∧ registry.work visits = registry.work ⟨[], [], registry.outcome visits⟩ + (count + more) := by
  obtain ⟨more, rest⟩ := registry.exists_turns later fun id member =>
    known id (turns.waiting_subset member)
  rw [← turns.outcome_eq] at rest
  refine ⟨more, rest, ?_⟩
  rw [turns.work_eq, rest.work_eq]
  omega

variable (registry) (request : List String)

/-- The visits of a request before the first turn. -/
def begun : Visits := ⟨registry.present request, [], ⟨[], [], registry.unregistered request⟩⟩

/-- The turns of a request: one for each registered module that is requested, and the share of each module
that is settled. -/
def turnCount : Nat :=
  (registry.present request).length + ((registry.explored request).order.map registry.share).sum

/-- The turns of a request bring to light what was explored. -/
theorem outcome_begun : registry.outcome (registry.begun request) = registry.explored request := by
  simp [outcome, begun, explored, walk]

/-- What is settled in the end and what is not are together what is registered. -/
theorem perm_order_append_idsOutside :
    ((registry.explored request).order
      ++ registry.idsOutside (isReached [] (registry.explored request))).Perm
        (registry.modules.map Module.id) := by
  refine (List.perm_ext_iff_of_nodup ?_ registry.distinct).mpr fun id => ?_
  · refine List.nodup_append.mpr ⟨nodup_explored_order, registry.distinct.filter _, ?_⟩
    rintro id inside _ outside rfl
    simp [idsOutside, isReached, OpenModules.ids, inside] at outside
  · have registered : id ∈ (registry.explored request).order → id ∈ registry.modules.map Module.id :=
      fun inside => contains_eq_true_iff.mp (mem_explored_order.mp inside).contains
    simp only [idsOutside, isReached, OpenModules.ids, List.mem_append, List.mem_filter]
    by_cases inside : id ∈ (registry.explored request).order <;> simp_all

/-- The work of a request is done in as many turns as are counted. -/
theorem work_begun : registry.work (registry.begun request)
    = registry.work ⟨[], [], registry.explored request⟩ + registry.turnCount request := by
  have all : registry.idsOutside (isReached [] ⟨[], [], registry.unregistered request⟩)
      = registry.modules.map Module.id := by
    simp [idsOutside, isReached, OpenModules.ids]
  have split := ((registry.perm_order_append_idsOutside request).map registry.share).sum_nat
  rw [List.map_append, List.sum_append] at split
  simp only [work, begun, turnCount, all, ← split, OpenModules.steps, List.length_nil]
  omega

end Registry

/-! ## The walk and the recursion -/

namespace Registry

variable {registry : Registry}

/-- The dependencies that remain of an open module are traversed, with the open modules as the path, and
then the module is settled. -/
theorem outcome_open (waiting : List String) (id : String) (remaining : List String)
    (rest : OpenModules) (findings : Findings) :
    registry.outcome ⟨waiting, (id, remaining) :: rest, findings⟩
      = registry.outcome
          ⟨waiting, rest, (registry.traverse (id :: rest.ids) findings remaining).settle id⟩ := by
  generalize onPath : id :: rest.ids = path
  fun_induction registry.traverse path findings remaining generalizing id rest with
  | case1 path findings => exact Turn.settle.outcome_eq
  | case2 path findings dependency remaining known opened inductionHypothesis =>
      have inside : dependency ∈ OpenModules.ids ((id, remaining) :: rest) := by
        simpa [OpenModules.ids, ← onPath] using opened
      rw [(Turn.loop known inside).outcome_eq]
      exact inductionHypothesis id rest onPath
  | case3 path findings dependency remaining known closed settled inductionHypothesis =>
      have outside : dependency ∉ OpenModules.ids ((id, remaining) :: rest) := by
        simpa [OpenModules.ids, ← onPath] using closed
      rw [(Turn.pass known outside (by simpa using settled)).outcome_eq]
      exact inductionHypothesis id rest onPath
  | case4 path findings dependency remaining known closed unsettled inner below onward =>
      have outside : dependency ∉ OpenModules.ids ((id, remaining) :: rest) := by
        simpa [OpenModules.ids, ← onPath] using closed
      -- The dependency is traversed above the module, then the module goes on with what was found.
      rw [(Turn.push known outside (by simpa using unsettled)).outcome_eq]
      rw [below dependency ((id, remaining) :: rest) (congrArg (dependency :: ·) onPath)]
      exact onward id rest onPath
  | case5 path findings dependency remaining unknown inductionHypothesis =>
      rw [(Turn.miss (by simpa using unknown)).outcome_eq]
      exact inductionHypothesis id rest onPath

/-- Registered modules that wait while none is open are traversed. -/
theorem outcome_waiting (waiting : List String)
    (known : ∀ id ∈ waiting, registry.contains id = true) (findings : Findings) :
    registry.outcome ⟨waiting, [], findings⟩ = registry.traverse [] findings waiting := by
  induction waiting generalizing findings with
  | nil => simp [outcome, walk, traverse]
  | cons id waiting inductionHypothesis =>
      have registered : registry.contains id = true := known id List.mem_cons_self
      have others : ∀ other ∈ waiting, registry.contains other = true :=
        fun other member => known other (List.mem_cons_of_mem _ member)
      rw [traverse, dif_pos registered, dif_neg (by simp)]
      by_cases settled : id ∈ findings.order
      · rw [(Turn.skip settled).outcome_eq, if_pos (by simpa using settled)]
        exact inductionHypothesis others findings
      · rw [(Turn.start registered settled).outcome_eq, if_neg (by simpa using settled), outcome_open]
        exact inductionHypothesis others _

variable (registry) (request : List String)

/-- What the recursion brings to light about a request. -/
def traversed : Findings :=
  registry.traverse [] ⟨[], [], registry.unregistered request⟩ (registry.present request)

/-- The answer to a request by the recursion. -/
def resolveRecursively : Resolution :=
  let found := registry.traversed request
  let conflicts := registry.directConflicts (registry.present request)
    ++ found.cycles.map Conflict.cycle
  ⟨if conflicts.isEmpty then found.order else [], conflicts, found.missing, request.eraseDups⟩

/-- The walk explores what the recursion traverses. -/
theorem explored_eq_traversed : registry.explored request = registry.traversed request := by
  rw [← outcome_begun, begun, outcome_waiting _ fun id member => (mem_present.mp member).2]
  rfl

/-- However many turns were taken, the visits of a request come to their end after the turns that are
counted, with what the recursion finds.  The walk finds the same, and a request has the same answer by the
walk and by the recursion. -/
theorem resolve_eq_resolveRecursively :
    (∀ turns later, registry.Turns turns (registry.begun request) later →
      ∃ more, registry.Turns more later ⟨[], [], registry.traversed request⟩
        ∧ turns + more = (registry.present request).length
            + ((registry.traversed request).order.map registry.share).sum)
      ∧ registry.explored request = registry.traversed request
      ∧ registry.resolve request = registry.resolveRecursively request := by
  refine ⟨?_, registry.explored_eq_traversed request, ?_⟩
  · intro turns later taken
    obtain ⟨more, rest, work⟩ := taken.finishes fun id member => (mem_present.mp member).2
    rw [outcome_begun, work_begun] at work
    rw [outcome_begun, explored_eq_traversed] at rest
    refine ⟨more, rest, ?_⟩
    rw [← Nat.add_left_cancel work, turnCount, explored_eq_traversed]
  · rw [resolve_eq, explored_eq_traversed]
    rfl

end Registry

end Scaffold
