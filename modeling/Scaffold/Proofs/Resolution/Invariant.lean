import Scaffold.Resolution.Findings
import Scaffold.Resolution.Walk
import Mathlib.Data.List.Basic
import Mathlib.Data.List.Chain
import Mathlib.Logic.Relation

/-!
# The invariant of a walk

What a request needs, said without any visit: `Registry.DependsOn` is one declared dependency between
registered modules, and `Registry.Needs` is everything that can be reached along it from a registered
requested id.  `Precedes` is the order of two items of a list; in a list without repetitions it is
transitive.

`Registry.Walking` says what holds between the open modules and the findings at every moment of a walk.
One lemma for each kind of step shows that the step keeps it, `Walking.walk` carries it to the end, and
`Walking.visitAll` to the end of a whole request.
-/

namespace Scaffold

/-! ## Dependencies as a relation -/

/-- One item of a list stands somewhere before another. -/
def Precedes (items : List String) (earlier later : String) : Prop :=
  ∃ before after, items = before ++ later :: after ∧ earlier ∈ before

namespace Precedes

variable {items : List String} {first second third : String}

/-- An item that precedes another belongs to the list. -/
theorem mem_left (precedes : Precedes items first second) : first ∈ items := by
  obtain ⟨before, after, rfl, member⟩ := precedes
  exact List.mem_append_left _ member

/-- Items that are added at the end change no order. -/
theorem append (precedes : Precedes items first second) (more : List String) :
    Precedes (items ++ more) first second := by
  obtain ⟨before, after, rfl, member⟩ := precedes
  exact ⟨before, after ++ more, by simp, member⟩

/-- Every item of a list precedes one that is added at the end. -/
theorem of_mem (member : first ∈ items) (last : String) : Precedes (items ++ [last]) first last :=
  ⟨items, [], rfl, member⟩

/-- What precedes an item of a list without repetitions stands before its only place. -/
theorem mem_before {before after : List String} (precedes : Precedes items first second)
    (distinct : items.Nodup) (split : items = before ++ second :: after) : first ∈ before := by
  obtain ⟨start, rest, same, member⟩ := precedes
  rw [split] at distinct same
  obtain ⟨_, tailDistinct, apart⟩ := List.nodup_append.mp distinct
  have absentBefore : second ∉ before := fun inside => apart second inside second (by simp) rfl
  have absentAfter : second ∉ after := (List.nodup_cons.mp tailDistinct).1
  rwa [((List.append_cons_inj_of_notMem absentBefore absentAfter).mp same).1]

/-- In a list without repetitions the order is transitive. -/
theorem trans (distinct : items.Nodup) (left : Precedes items first second)
    (right : Precedes items second third) : Precedes items first third := by
  obtain ⟨before, after, split, member⟩ := right
  obtain ⟨start, rest, rfl⟩ := List.append_of_mem member
  have earlier : first ∈ start := left.mem_before distinct (by rw [split, List.append_assoc]; rfl)
  exact ⟨_, after, split, List.mem_append_left _ earlier⟩

/-- In a list without repetitions nothing precedes itself. -/
theorem ne (distinct : items.Nodup) (precedes : Precedes items first second) : first ≠ second := by
  rintro rfl
  obtain ⟨before, after, split, member⟩ := precedes
  rw [split] at distinct
  exact (List.nodup_append.mp distinct).2.2 first member first List.mem_cons_self rfl

/-- The first item precedes all others, and they precede each other as before. -/
theorem cons_iff {item : String} :
    Precedes (item :: items) first second
      ↔ first = item ∧ second ∈ items ∨ Precedes items first second := by
  constructor
  · rintro ⟨_ | ⟨_, before⟩, after, split, member⟩
    · cases member
    · obtain ⟨rfl, rfl⟩ := List.cons.inj split
      rcases List.mem_cons.mp member with rfl | later
      · exact .inl ⟨rfl, by simp⟩
      · exact .inr ⟨before, after, rfl, later⟩
  · rintro (⟨rfl, member⟩ | ⟨before, after, rfl, member⟩)
    · obtain ⟨before, after, rfl⟩ := List.append_of_mem member
      exact ⟨first :: before, after, rfl, List.mem_cons_self⟩
    · exact ⟨item :: before, after, rfl, List.mem_cons_of_mem _ member⟩

/-- Of two different items one precedes the other. -/
theorem total (firstMember : first ∈ items) (secondMember : second ∈ items)
    (different : first ≠ second) : Precedes items first second ∨ Precedes items second first := by
  induction items with
  | nil => cases firstMember
  | cons item items inductionHypothesis =>
      rw [cons_iff, cons_iff]
      rcases List.mem_cons.mp firstMember with rfl | firstLater <;>
        rcases List.mem_cons.mp secondMember with rfl | secondLater
      · exact absurd rfl different
      · exact .inl (.inl ⟨rfl, secondLater⟩)
      · exact .inr (.inl ⟨rfl, firstLater⟩)
      · exact (inductionHypothesis firstLater secondLater).imp .inr .inr

/-- Items that are kept precede each other as before. -/
theorem filter_iff {keep : String → Bool} :
    Precedes (items.filter keep) first second
      ↔ Precedes items first second ∧ keep first = true ∧ keep second = true := by
  induction items with
  | nil => simp [Precedes]
  | cons item items inductionHypothesis =>
      cases kept : keep item with
      | true =>
          rw [List.filter_cons_of_pos kept, cons_iff, cons_iff, inductionHypothesis, List.mem_filter]
          constructor
          · rintro (⟨rfl, member, keeps⟩ | ⟨precedes, keeps⟩)
            · exact ⟨.inl ⟨rfl, member⟩, kept, keeps⟩
            · exact ⟨.inr precedes, keeps⟩
          · rintro ⟨⟨rfl, member⟩ | precedes, keeps⟩
            · exact .inl ⟨rfl, member, keeps.2⟩
            · exact .inr ⟨precedes, keeps⟩
      | false =>
          rw [List.filter_cons_of_neg (by simp [kept]), cons_iff, inductionHypothesis]
          constructor
          · rintro ⟨precedes, keeps⟩
            exact ⟨.inr precedes, keeps⟩
          · rintro ⟨⟨rfl, _⟩ | precedes, keeps⟩
            · exact absurd keeps.1 (by simp [kept])
            · exact ⟨precedes, keeps⟩

end Precedes

/-- In every list the items stand in the order of the list. -/
theorem pairwise_precedes (items : List String) : items.Pairwise (Precedes items) := by
  induction items with
  | nil => exact .nil
  | cons item items inductionHypothesis =>
      refine .cons (fun later member => Precedes.cons_iff.mpr (.inl ⟨rfl, member⟩)) ?_
      exact inductionHypothesis.imp fun precedes => Precedes.cons_iff.mpr (.inr precedes)

namespace Registry

/-- A registered module declares a dependency that is registered too. -/
structure DependsOn (registry : Registry) (id dependency : String) : Prop where
  declared : dependency ∈ registry.dependencies id
  available : registry.contains dependency = true

/-- An id that a request needs: it can be reached from a registered requested id along declared
dependencies, through registered modules only. -/
def Needs (registry : Registry) (request : List String) (id : String) : Prop :=
  ∃ root ∈ request, registry.contains root = true ∧ Relation.ReflTransGen registry.DependsOn root id

namespace Needs

variable {registry : Registry} {request : List String} {id dependency : String}

/-- A registered requested id is needed. -/
theorem of_mem (member : id ∈ request) (registered : registry.contains id = true) :
    registry.Needs request id := ⟨id, member, registered, .refl⟩

/-- The registered dependencies of what is needed are needed. -/
theorem step (needed : registry.Needs request id) (depends : registry.DependsOn id dependency) :
    registry.Needs request dependency := by
  obtain ⟨root, member, registered, path⟩ := needed
  exact ⟨root, member, registered, path.tail depends⟩

/-- What is needed is registered. -/
theorem contains (needed : registry.Needs request id) : registry.contains id = true := by
  obtain ⟨root, member, registered, path⟩ := needed
  cases path with
  | refl => exact registered
  | tail _ depends => exact depends.available

end Needs

end Registry

/-! ## Walks -/

namespace Findings

/-- Later findings: nothing that was found is lost, and the order grows at its end only. -/
structure Extends (before after : Findings) : Prop where
  order : before.order <+: after.order
  cycles : before.cycles ⊆ after.cycles
  missing : before.missing ⊆ after.missing

/-- Noting an item adds that item and nothing else. -/
@[simp] theorem mem_noted {items : List String} {item other : String} :
    other ∈ noted items item ↔ other ∈ items ∨ other = item := by
  unfold noted
  split
  · rename_i present
    have inside : item ∈ items := by simpa using present
    constructor
    · exact Or.inl
    · rintro (member | rfl)
      · exact member
      · exact inside
  · simp

/-- Noting an item repeats none. -/
theorem nodup_noted {items : List String} (distinct : items.Nodup) (item : String) :
    (noted items item).Nodup := by
  unfold noted
  split
  · exact distinct
  · rename_i absent
    have outside : item ∉ items := by simpa using absent
    refine List.nodup_append.mpr ⟨distinct, by simp, ?_⟩
    rintro other member _ single rfl
    exact outside (List.mem_singleton.mp single ▸ member)

/-- Findings extend themselves. -/
theorem Extends.refl (findings : Findings) : findings.Extends findings :=
  ⟨List.prefix_refl _, List.Subset.refl _, List.Subset.refl _⟩

/-- Findings that extend extended ones extend the first. -/
theorem Extends.trans {first second third : Findings} (earlier : first.Extends second)
    (later : second.Extends third) : first.Extends third :=
  ⟨earlier.order.trans later.order, fun _ member => later.cycles (earlier.cycles member),
    fun _ member => later.missing (earlier.missing member)⟩

/-- Settling a module extends the findings. -/
theorem extends_settle (findings : Findings) (id : String) :
    findings.Extends (findings.settle id) :=
  ⟨List.prefix_append _ _, List.Subset.refl _, List.Subset.refl _⟩

/-- Noting a cycle extends the findings. -/
theorem extends_loop (findings : Findings) (id : String) : findings.Extends (findings.loop id) :=
  ⟨List.prefix_refl _, fun _ member => mem_noted.mpr (.inl member), List.Subset.refl _⟩

/-- Noting a missing id extends the findings. -/
theorem extends_miss (findings : Findings) (id : String) : findings.Extends (findings.miss id) :=
  ⟨List.prefix_refl _, List.Subset.refl _, fun _ member => mem_noted.mpr (.inl member)⟩

end Findings

namespace Registry

/-- A dependency that was dealt with: it is noted as missing, named as the start of a cycle, or settled. -/
structure Handled (registry : Registry) (findings : Findings) (dependency : String) : Prop where
  absent : registry.contains dependency = false → dependency ∈ findings.missing
  present : registry.contains dependency = true →
    dependency ∈ findings.cycles ∨ dependency ∈ findings.order

/-- What an open module has behind it: the dependencies that no longer remain were dealt with, except for
the one that is open above it. -/
def Scanned (registry : Registry) (findings : Findings) : Option String → OpenModules → Prop
  | _, [] => True
  | above, (id, remaining) :: rest =>
    (∃ scanned, registry.dependencies id = scanned ++ remaining ∧
      ∀ dependency ∈ scanned, above = some dependency ∨ registry.Handled findings dependency) ∧
    registry.Scanned findings (some id) rest

/-- What holds at every moment of a walk. -/
structure Walking (registry : Registry) (request : List String) (stack : OpenModules)
    (findings : Findings) : Prop where
  distinct : (stack.ids ++ findings.order).Nodup
  needed : ∀ id ∈ stack.ids ++ findings.order, registry.Needs request id
  /-- Every open module is a dependency of the one below it. -/
  linked : stack.ids.IsChain fun inner outer => registry.DependsOn outer inner
  scanned : registry.Scanned findings none stack
  ordered : ∀ id ∈ findings.order, ∀ dependency, registry.DependsOn id dependency →
    dependency ∈ findings.cycles ∨ Precedes findings.order dependency id
  reported : ∀ id ∈ findings.order, ∀ dependency ∈ registry.dependencies id,
    registry.contains dependency = false → dependency ∈ findings.missing
  cyclic : ∀ id ∈ findings.cycles,
    id ∈ stack.ids ++ findings.order ∧ Relation.TransGen registry.DependsOn id id
  cyclesDistinct : findings.cycles.Nodup
  absent : ∀ id ∈ findings.missing, registry.contains id = false ∧
    (id ∈ request ∨ ∃ dependent, registry.Needs request dependent ∧
      id ∈ registry.dependencies dependent)
  missingDistinct : findings.missing.Nodup

variable {registry : Registry} {request : List String} {findings later : Findings}

/-- What was dealt with stays dealt with. -/
theorem Handled.mono {dependency : String} (handled : registry.Handled findings dependency)
    (extended : findings.Extends later) : registry.Handled later dependency where
  absent := fun unknown => extended.missing (handled.absent unknown)
  present := fun known => (handled.present known).imp (fun member => extended.cycles member)
    fun member => extended.order.subset member

/-- What lies behind open modules stays behind them, if the module above is still open or dealt with. -/
theorem Scanned.mono {above above' : Option String} {stack : OpenModules}
    (scanned : registry.Scanned findings above stack) (extended : findings.Extends later)
    (kept : ∀ id, above = some id → above' = some id ∨ registry.Handled later id) :
    registry.Scanned later above' stack := by
  induction stack generalizing above above' with
  | nil => trivial
  | cons frame rest inductionHypothesis =>
      obtain ⟨⟨past, split, handled⟩, below⟩ := scanned
      refine ⟨⟨past, split, ?_⟩, inductionHypothesis below fun _ same => .inl same⟩
      intro dependency member
      rcases handled dependency member with same | done
      · exact kept dependency same
      · exact .inr (done.mono extended)

/-- The innermost module goes on to its next dependency. -/
theorem Scanned.advance {id dependency : String} {remaining : List String} {rest : OpenModules}
    {above : Option String}
    (scanned : registry.Scanned findings none ((id, dependency :: remaining) :: rest))
    (extended : findings.Extends later)
    (handled : above = some dependency ∨ registry.Handled later dependency) :
    registry.Scanned later above ((id, remaining) :: rest) := by
  obtain ⟨⟨past, split, done⟩, below⟩ := scanned
  refine ⟨⟨past ++ [dependency], by simp [split], ?_⟩, below.mono extended fun _ same => .inl same⟩
  intro other member
  rcases List.mem_append.mp member with earlier | last
  · rcases done other earlier with impossible | past
    · cases impossible
    · exact .inr (past.mono extended)
  · rw [List.mem_singleton.mp last]
    exact handled

/-- Every module of a chain of open modules leads to the innermost one. -/
theorem reaches_innermost {inner id : String} {outer : List String}
    (linked : (inner :: outer).IsChain fun inner outer => registry.DependsOn outer inner)
    (member : id ∈ inner :: outer) : Relation.ReflTransGen registry.DependsOn id inner := by
  induction outer generalizing inner with
  | nil =>
      rw [List.mem_singleton.mp member]
  | cons next outer inductionHypothesis =>
      obtain ⟨depends, rest⟩ := List.isChain_cons_cons.mp linked
      rcases List.mem_cons.mp member with rfl | inside
      · exact .refl
      · exact (inductionHypothesis rest inside).tail depends

namespace Walking

variable {id dependency : String} {remaining : List String} {rest : OpenModules}

/-- The dependency that comes next is one that the innermost module declares. -/
theorem declared (walking : registry.Walking request ((id, dependency :: remaining) :: rest) findings) :
    dependency ∈ registry.dependencies id := by
  obtain ⟨⟨past, split, _⟩, _⟩ := walking.scanned
  simp [split]

/-- A module whose dependencies were all dealt with is settled. -/
theorem settle (walking : registry.Walking request ((id, []) :: rest) findings) :
    registry.Walking request rest (findings.settle id) := by
  have moved : (OpenModules.ids ((id, []) :: rest) ++ findings.order).Perm
      (OpenModules.ids rest ++ (findings.settle id).order) := by
    simp only [OpenModules.ids, Findings.settle, List.map_cons, List.cons_append]
    rw [← List.append_assoc]
    exact (List.perm_append_singleton _ _).symm
  obtain ⟨⟨past, split, done⟩, below⟩ := walking.scanned
  have all : ∀ dependency ∈ registry.dependencies id, registry.Handled findings dependency := by
    intro dependency member
    rw [split, List.append_nil] at member
    rcases done dependency member with impossible | handled
    · cases impossible
    · exact handled
  have known : registry.contains id = true :=
    (walking.needed id (by simp [OpenModules.ids])).contains
  refine {
    distinct := moved.nodup_iff.mp walking.distinct
    needed := fun other member => walking.needed other (moved.mem_iff.mpr member)
    linked := walking.linked.tail
    scanned := ?_
    ordered := ?_
    reported := ?_
    cyclic := fun other member =>
      (walking.cyclic other member).imp_left fun inside => moved.mem_iff.mp inside
    cyclesDistinct := walking.cyclesDistinct
    absent := walking.absent
    missingDistinct := walking.missingDistinct }
  · refine below.mono (findings.extends_settle id) ?_
    intro other same
    cases same
    exact .inr ⟨fun unknown => by simp [known] at unknown, fun _ => .inr (by simp [Findings.settle])⟩
  · intro other member dependency depends
    rcases List.mem_append.mp member with earlier | last
    · exact (walking.ordered other earlier dependency depends).imp_right fun precedes =>
        precedes.append _
    · rw [List.mem_singleton.mp last] at depends ⊢
      have handled := (all dependency depends.declared).present depends.available
      exact handled.imp_right fun settled => Precedes.of_mem settled id
  · intro other member dependency declared unknown
    rcases List.mem_append.mp member with earlier | last
    · exact walking.reported other earlier dependency declared unknown
    · rw [List.mem_singleton.mp last] at declared
      exact (all dependency declared).absent unknown

/-- A dependency that is open already closes a cycle, which is noted under its id. -/
theorem loop (walking : registry.Walking request ((id, dependency :: remaining) :: rest) findings)
    (known : registry.contains dependency = true)
    (opened : dependency ∈ OpenModules.ids ((id, remaining) :: rest)) :
    registry.Walking request ((id, remaining) :: rest) (findings.loop dependency) := by
  have closing : registry.DependsOn id dependency := ⟨walking.declared, known⟩
  have cycle : Relation.TransGen registry.DependsOn dependency dependency :=
    .tail' (reaches_innermost walking.linked opened) closing
  exact {
    distinct := walking.distinct
    needed := walking.needed
    linked := walking.linked
    scanned := walking.scanned.advance (findings.extends_loop dependency)
      (.inr ⟨fun unknown => by simp [known] at unknown, fun _ => .inl (by simp [Findings.loop])⟩)
    ordered := fun other member further depends =>
      (walking.ordered other member further depends).imp_left fun named =>
        (findings.extends_loop dependency).cycles named
    reported := walking.reported
    cyclic := by
      intro other member
      rcases Findings.mem_noted.mp member with earlier | rfl
      · exact walking.cyclic other earlier
      · exact ⟨List.mem_append_left _ opened, cycle⟩
    cyclesDistinct := Findings.nodup_noted walking.cyclesDistinct dependency
    absent := walking.absent
    missingDistinct := walking.missingDistinct }

/-- A dependency that is settled already is passed over. -/
theorem pass (walking : registry.Walking request ((id, dependency :: remaining) :: rest) findings)
    (known : registry.contains dependency = true) (settled : dependency ∈ findings.order) :
    registry.Walking request ((id, remaining) :: rest) findings :=
  { walking with
    scanned := walking.scanned.advance (.refl findings)
      (.inr ⟨fun unknown => by simp [known] at unknown, fun _ => .inr settled⟩) }

/-- A registered dependency that is neither open nor settled is opened. -/
theorem push (walking : registry.Walking request ((id, dependency :: remaining) :: rest) findings)
    (known : registry.contains dependency = true)
    (closed : dependency ∉ OpenModules.ids ((id, remaining) :: rest))
    (unsettled : dependency ∉ findings.order) :
    registry.Walking request
      ((dependency, registry.dependencies dependency) :: (id, remaining) :: rest) findings := by
  have depends : registry.DependsOn id dependency := ⟨walking.declared, known⟩
  have needed : registry.Needs request dependency :=
    (walking.needed id (by simp [OpenModules.ids])).step depends
  exact {
    distinct := List.nodup_cons.mpr
      ⟨fun member => (List.mem_append.mp member).elim closed unsettled, walking.distinct⟩
    needed := by
      intro other member
      rcases List.mem_cons.mp member with rfl | earlier
      · exact needed
      · exact walking.needed other earlier
    linked := List.isChain_cons_cons.mpr ⟨depends, walking.linked⟩
    scanned := ⟨⟨[], rfl, by simp⟩, walking.scanned.advance (.refl findings) (.inl rfl)⟩
    ordered := walking.ordered
    reported := walking.reported
    cyclic := fun other member =>
      (walking.cyclic other member).imp_left fun inside => List.mem_cons_of_mem _ inside
    cyclesDistinct := walking.cyclesDistinct
    absent := walking.absent
    missingDistinct := walking.missingDistinct }

/-- A dependency that is not registered is noted as missing. -/
theorem miss (walking : registry.Walking request ((id, dependency :: remaining) :: rest) findings)
    (unknown : registry.contains dependency = false) :
    registry.Walking request ((id, remaining) :: rest) (findings.miss dependency) := by
  have needed : registry.Needs request id := walking.needed id (by simp [OpenModules.ids])
  exact {
    distinct := walking.distinct
    needed := walking.needed
    linked := walking.linked
    scanned := walking.scanned.advance (findings.extends_miss dependency)
      (.inr ⟨fun _ => by simp [Findings.miss], fun known => by simp [unknown] at known⟩)
    ordered := walking.ordered
    reported := fun other member further declared absent =>
      (findings.extends_miss dependency).missing
        (walking.reported other member further declared absent)
    cyclic := walking.cyclic
    cyclesDistinct := walking.cyclesDistinct
    absent := by
      intro other member
      rcases Findings.mem_noted.mp member with earlier | rfl
      · exact walking.absent other earlier
      · exact ⟨unknown, .inr ⟨id, needed, walking.declared⟩⟩
    missingDistinct := Findings.nodup_noted walking.missingDistinct dependency }

/-- A walk keeps the invariant until no module is open. -/
theorem walk {stack : OpenModules} (walking : registry.Walking request stack findings) :
    registry.Walking request [] (registry.walk stack findings) := by
  fun_induction registry.walk stack findings with
  | case1 => exact walking
  | case2 _ id rest inductionHypothesis => exact inductionHypothesis walking.settle
  | case3 _ id dependency remaining rest known opened inductionHypothesis =>
      exact inductionHypothesis (walking.loop known (by simpa using opened))
  | case4 _ id dependency remaining rest known _ settled inductionHypothesis =>
      exact inductionHypothesis (walking.pass known (by simpa using settled))
  | case5 _ id dependency remaining rest known closed unsettled inductionHypothesis =>
      exact inductionHypothesis
        (walking.push known (by simpa using closed) (by simpa using unsettled))
  | case6 _ id dependency remaining rest unknown inductionHypothesis =>
      exact inductionHypothesis (walking.miss (by simpa using unknown))

end Walking

/-- A walk loses nothing, and every module that was open is settled at its end. -/
theorem extends_walk (registry : Registry) (stack : OpenModules) (findings : Findings) :
    findings.Extends (registry.walk stack findings) ∧
      ∀ id ∈ stack.ids, id ∈ (registry.walk stack findings).order := by
  fun_induction registry.walk stack findings with
  | case1 findings => exact ⟨.refl findings, by simp [OpenModules.ids]⟩
  | case2 findings id rest inductionHypothesis =>
      obtain ⟨extended, settled⟩ := inductionHypothesis
      refine ⟨(findings.extends_settle id).trans extended, ?_⟩
      intro other member
      rcases List.mem_cons.mp member with rfl | outer
      · exact extended.order.subset (by simp [Findings.settle])
      · exact settled other outer
  | case3 findings id dependency remaining rest _ _ inductionHypothesis =>
      exact ⟨(findings.extends_loop dependency).trans inductionHypothesis.1, inductionHypothesis.2⟩
  | case4 _ _ _ _ _ _ _ _ inductionHypothesis => exact inductionHypothesis
  | case5 _ _ _ _ _ _ _ _ inductionHypothesis =>
      exact ⟨inductionHypothesis.1, fun other member =>
        inductionHypothesis.2 other (List.mem_cons_of_mem _ member)⟩
  | case6 findings _ dependency _ _ _ inductionHypothesis =>
      exact ⟨(findings.extends_miss dependency).trans inductionHypothesis.1, inductionHypothesis.2⟩

/-- A visit of a needed module keeps the invariant, loses nothing and settles that module. -/
theorem Walking.visit {id : String} (walking : registry.Walking request [] findings)
    (needed : registry.Needs request id) :
    registry.Walking request [] (registry.visit findings id) ∧
      findings.Extends (registry.visit findings id) ∧ id ∈ (registry.visit findings id).order := by
  unfold Registry.visit
  split
  · rename_i settled
    exact ⟨walking, .refl findings, by simpa using settled⟩
  · rename_i unsettled
    have outside : id ∉ findings.order := by simpa using unsettled
    have opened : registry.Walking request [(id, registry.dependencies id)] findings :=
      { walking with
        distinct := List.nodup_cons.mpr ⟨outside, walking.distinct⟩
        needed := by
          intro other member
          rcases List.mem_cons.mp member with rfl | earlier
          · exact needed
          · exact walking.needed other earlier
        linked := .singleton id
        scanned := ⟨⟨[], rfl, by simp⟩, trivial⟩
        cyclic := fun other member =>
          (walking.cyclic other member).imp_left fun inside => List.mem_cons_of_mem _ inside }
    obtain ⟨extended, settled⟩ := registry.extends_walk [(id, registry.dependencies id)] findings
    exact ⟨opened.walk, extended, settled id (by simp [OpenModules.ids])⟩

/-- Visiting needed modules one after another keeps the invariant and settles all of them. -/
theorem Walking.visitAll {ids : List String} (walking : registry.Walking request [] findings)
    (needed : ∀ id ∈ ids, registry.Needs request id) :
    registry.Walking request [] (ids.foldl registry.visit findings) ∧
      findings.Extends (ids.foldl registry.visit findings) ∧
      ∀ id ∈ ids, id ∈ (ids.foldl registry.visit findings).order := by
  induction ids generalizing findings with
  | nil => exact ⟨walking, .refl findings, by simp⟩
  | cons id rest inductionHypothesis =>
      obtain ⟨visited, extended, settled⟩ := walking.visit (needed id (by simp))
      obtain ⟨all, further, others⟩ :=
        inductionHypothesis visited fun other member => needed other (List.mem_cons_of_mem _ member)
      refine ⟨all, extended.trans further, ?_⟩
      intro other member
      rcases List.mem_cons.mp member with rfl | later
      · exact further.order.subset settled
      · exact others other later

end Registry

end Scaffold
