import Scaffold.Install.Run
import Scaffold.Proofs.Json.Document
import Scaffold.Proofs.Project.Parameters
import Scaffold.Proofs.Resolution.Order

/-!
# The trace of an installation

`Install.Step` is what installing one module does and `Install.Runs` a whole installation, one module after
the other, as relations: a blueprint runs in the step `ran` and nowhere else.  `runs_installEach` says
that an installation is such a run.

`Install.Chronicle` says of a list of outcomes that each of them is justified by those before it and by
the dependencies of its module alone.  Every run leaves such a list, and what a report says of transitive
dependencies follows from it by induction.
-/

namespace Scaffold

/-- Every module id has values that have a JSON form. -/
def Context.HoldsJson (context : Context) : Prop :=
  ∀ id, Json.HasForm true (.mapping (context.supplied id))

namespace Install

/-- The values that are given for a module. -/
def given (values : List (String × Entries)) (id : String) : Entries := (values.lookup id).getD []

/-- Installing one module, the outcomes so far being `done`: it is blocked by dependencies that are not
installed, or lacks parameters, or its blueprint runs. -/
inductive Step (config : Config) (values : List (String × Entries)) (done : ModuleOutcomes)
    (descriptor : Module) (session : Session) : ModuleOutcome → Session → Prop where
  | blocked (stands : blockers done descriptor ≠ []) :
      Step config values done descriptor session (.blocked (blockers done descriptor)) session
  | incomplete (free : blockers done descriptor = [])
      (lacks : descriptor.missingRequired (given values descriptor.id) ≠ []) :
      Step config values done descriptor session
        (.incomplete (descriptor.missingRequired (given values descriptor.id))) session
  | ran (free : blockers done descriptor = [])
      (complete : descriptor.missingRequired (given values descriptor.id) = []) :
      Step config values done descriptor session
        (.ran (runModule config descriptor (given values descriptor.id) session).1)
        (runModule config descriptor (given values descriptor.id) session).2

/-- The session after the notes on an outcome were shown. -/
def noted (session : Session) (id : String) (outcome : ModuleOutcome) : Session :=
  session.tell (notes id outcome)

/-- Installing modules in order.  It goes on after a failure only if the settings say so; otherwise the
modules after it are not reached. -/
inductive Runs (config : Config) (values : List (String × Entries)) :
    ModuleOutcomes → Session → List Module → ModuleOutcomes → Session → Prop where
  | finished {done session} : Runs config values done session [] done session
  | goesOn {done session descriptor rest outcome after outcomes final}
      (step : Step config values done descriptor session outcome after)
      (continues : outcome.isFailed = false ∨ config.continueOnFailure = true)
      (onward : Runs config values (done ++ [(descriptor.id, outcome)])
        (noted after descriptor.id outcome) rest outcomes final) :
      Runs config values done session (descriptor :: rest) outcomes final
  | ends {done session descriptor rest outcome after}
      (step : Step config values done descriptor session outcome after)
      (failed : outcome.isFailed = true) (stops : config.continueOnFailure = false) :
      Runs config values done session (descriptor :: rest)
        (done ++ [(descriptor.id, outcome)] ++ rest.map fun unseen => (unseen.id, .unreached))
        (noted after descriptor.id outcome)

variable {config : Config} {values : List (String × Entries)} {done outcomes : ModuleOutcomes}
  {descriptor : Module} {modules : List Module} {session after : Session} {outcome : ModuleOutcome}

/-- Installing a module is one of the three steps. -/
theorem step_installModule (config : Config) (values : List (String × Entries))
    (done : ModuleOutcomes) (descriptor : Module) (session : Session) :
    Step config values done descriptor session
      (installModule config values done descriptor session).1
      (installModule config values done descriptor session).2 := by
  unfold installModule
  dsimp only
  split
  next free complete => exact .ran free complete
  next free lacks => exact .incomplete free lacks
  next stands _ => exact .blocked stands

/-- An installation is a run. -/
theorem runs_installEach (config : Config) (values : List (String × Entries)) (done : ModuleOutcomes)
    (session : Session) (modules : List Module) :
    Runs config values done session modules (installEach config values done session modules).1
      (installEach config values done session modules).2 := by
  induction modules generalizing done session with
  | nil => exact .finished
  | cons descriptor rest inductionHypothesis =>
      have step := step_installModule config values done descriptor session
      rw [installEach]
      dsimp only
      split
      next ended =>
        obtain ⟨failed, stops⟩ := Bool.and_eq_true_iff.mp ended
        exact .ends step failed (by simpa using stops)
      next open' =>
        refine .goesOn step ?_ (inductionHypothesis _ _)
        simpa [Bool.and_eq_true, ← Bool.not_eq_true, or_iff_not_imp_left] using open'

/-- A run accounts for every module, each under its id and in order. -/
theorem Runs.map_fst (runs : Runs config values done session modules outcomes after) :
    outcomes.map (·.1) = done.map (·.1) ++ modules.map Module.id := by
  induction runs with
  | finished => simp
  | goesOn step continues onward inductionHypothesis => simp [inductionHypothesis]
  | ends step failed stops => simp [Function.comp_def]

end Install

namespace Context

/-- Entering a module with values that have a JSON form keeps all values such. -/
theorem HoldsJson.enter {context : Context} (holds : context.HoldsJson) (descriptor : Module)
    {values : Entries} (form : Json.HasForm true (.mapping values)) :
    (context.enter descriptor values).HoldsJson := by
  intro id
  unfold supplied Context.enter
  rw [lookup_putValues]
  split
  · exact (Json.HasForm.partwise true).overlay (holds descriptor.id) form
  · exact holds id

end Context

namespace Install

variable {config : Config} {values : List (String × Entries)} {done outcomes : ModuleOutcomes}
  {descriptor : Module} {modules : List Module} {session after : Session} {outcome : ModuleOutcome}

/-- One step keeps the values of all modules such that they have a JSON form. -/
theorem Step.holdsJson (step : Step config values done descriptor session outcome after)
    (forms : ∀ id, Json.HasForm true (.mapping (given values id)))
    (holds : session.context.HoldsJson) : after.context.HoldsJson := by
  cases step with
  | blocked => exact holds
  | incomplete => exact holds
  | ran => exact holds.enter descriptor (forms descriptor.id)

/-- So does a run. -/
theorem Runs.holdsJson (runs : Runs config values done session modules outcomes after)
    (forms : ∀ id, Json.HasForm true (.mapping (given values id)))
    (holds : session.context.HoldsJson) : after.context.HoldsJson := by
  induction runs with
  | finished => exact holds
  | goesOn step continues onward inductionHypothesis =>
      exact inductionHypothesis (step.holdsJson forms holds)
  | ends step failed stops => exact step.holdsJson forms holds

end Install

/-! ## Why modules have their outcomes -/

namespace Install

/-- Another module may be tried: no module failed, or failures do not end the installation. -/
def IsOpen (config : Config) (before : ModuleOutcomes) : Prop :=
  config.continueOnFailure = true ∨ ∀ entry ∈ before, entry.2.isFailed = false

/-- The dependencies of a module are installed as far as they were looked at. -/
def IsFree (dependencies : List String) (before : ModuleOutcomes) : Prop :=
  ∀ entry ∈ before, entry.1 ∈ dependencies → entry.2.isInstalled = true

/-- The outcomes before it justify the outcome of a module with such dependencies. -/
def Justified (config : Config) (dependencies : List String) (before : ModuleOutcomes) :
    ModuleOutcome → Prop
  | .unreached => config.continueOnFailure = false ∧ ∃ entry ∈ before, entry.2.isFailed = true
  | .blocked _ =>
    IsOpen config before
      ∧ ∃ entry ∈ before, entry.1 ∈ dependencies ∧ entry.2.isInstalled = false
  | .incomplete parameters => IsOpen config before ∧ IsFree dependencies before ∧ parameters ≠ []
  | .ran _ => IsOpen config before ∧ IsFree dependencies before

/-- A list of outcomes each of which is justified by those before it. -/
inductive Chronicle (config : Config) (registry : Registry) : ModuleOutcomes → Prop where
  | start : Chronicle config registry []
  | next {before id outcome} (earlier : Chronicle config registry before)
      (justified : Justified config (registry.dependencies id) before outcome) :
      Chronicle config registry (before ++ [(id, outcome)])

variable {config : Config} {registry : Registry} {values : List (String × Entries)}
  {done outcomes before later : ModuleOutcomes} {descriptor : Module} {modules : List Module}
  {session after : Session} {outcome : ModuleOutcome} {id dependency : String}

/-- Nothing blocks a module that is free. -/
theorem blockers_eq_nil_iff :
    blockers done descriptor = [] ↔ IsFree descriptor.dependencies done := by
  simp only [IsFree, blockers, List.filter_eq_nil_iff, List.any_eq_true, Bool.and_eq_true, beq_iff_eq,
    Bool.not_eq_true', not_exists, not_and, Bool.not_eq_false]
  constructor
  · rintro free ⟨other, outcome⟩ member declared
    exact free other declared (other, outcome) member rfl
  · rintro installed other declared ⟨_, outcome⟩ member rfl
    exact installed _ member declared

/-- Each step has a justified outcome. -/
theorem Step.justified (step : Step config values done descriptor session outcome after)
    (open' : IsOpen config done) : Justified config descriptor.dependencies done outcome := by
  cases step with
  | blocked stands =>
      refine ⟨open', ?_⟩
      simpa [blockers_eq_nil_iff, IsFree, and_assoc] using stands
  | incomplete free lacks => exact ⟨open', blockers_eq_nil_iff.mp free, lacks⟩
  | ran free complete => exact ⟨open', blockers_eq_nil_iff.mp free⟩

/-- Modules that are not reached continue a chronicle in which a module failed. -/
theorem Chronicle.unreached (chronicle : Chronicle config registry done)
    (stops : config.continueOnFailure = false) (failed : ∃ entry ∈ done, entry.2.isFailed = true)
    (rest : List Module) :
    Chronicle config registry (done ++ rest.map fun unseen => (unseen.id, .unreached)) := by
  induction rest generalizing done with
  | nil => simpa using chronicle
  | cons first rest inductionHypothesis =>
      obtain ⟨entry, member, isFailed⟩ := failed
      have next : Chronicle config registry (done ++ [(first.id, .unreached)]) :=
        chronicle.next ⟨stops, entry, member, isFailed⟩
      have extended := inductionHypothesis next ⟨entry, List.mem_append_left _ member, isFailed⟩
      simpa using extended

/-- A run continues a chronicle. -/
theorem Runs.chronicle (runs : Runs config values done session modules outcomes after)
    (chronicle : Chronicle config registry done) (open' : IsOpen config done)
    (registered : ∀ descriptor ∈ modules,
      registry.dependencies descriptor.id = descriptor.dependencies) :
    Chronicle config registry outcomes := by
  induction runs with
  | finished => exact chronicle
  | @goesOn done session descriptor rest outcome after outcomes final step continues onward
      inductionHypothesis =>
      obtain ⟨here, others⟩ := List.forall_mem_cons.mp registered
      refine inductionHypothesis (chronicle.next (here ▸ step.justified open')) ?_ others
      rcases open' with always | free
      · exact .inl always
      · refine continues.elim (fun succeeds => .inr fun entry member => ?_) .inl
        rcases List.mem_append.mp member with earlier | last
        · exact free entry earlier
        · rw [List.mem_singleton.mp last]
          exact succeeds
  | ends step failed stops =>
      obtain ⟨here, _⟩ := List.forall_mem_cons.mp registered
      exact (chronicle.next (here ▸ step.justified open')).unreached stops
        ⟨_, List.mem_append_right _ (List.mem_singleton.mpr rfl), failed⟩ _

/-- In a chronicle every outcome is justified by those before it. -/
theorem Chronicle.justified (chronicle : Chronicle config registry outcomes)
    (split : outcomes = before ++ (id, outcome) :: later) :
    Justified config (registry.dependencies id) before outcome := by
  induction chronicle generalizing later with
  | start => simp at split
  | @next known last outcome' earlier justified inductionHypothesis =>
      rcases List.eq_nil_or_concat later with rfl | ⟨between, final, rfl⟩
      · obtain ⟨rfl, same⟩ := List.append_inj' split rfl
        obtain ⟨rfl, rfl⟩ := Prod.mk.inj (List.cons.inj same).1
        exact justified
      · rw [List.concat_eq_append, ← List.cons_append, ← List.append_assoc] at split
        exact inductionHypothesis (List.append_inj' split rfl).1

end Install

end Scaffold
