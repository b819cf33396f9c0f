import Mathlib.Tactic.Common

/-!
# Computations that may fail

What is known of the parts of a computation that succeeded, and of one that failed.
-/

namespace Scaffold

variable {Fault Other Middle Result : Type} {computed : Except Fault Result} {result : Result}

/-- A computation in two parts succeeds if both do. -/
theorem exists_of_bind_eq_ok {first : Except Fault Middle} {next : Middle → Except Fault Result}
    (done : first >>= next = .ok result) : ∃ middle, first = .ok middle ∧ next middle = .ok result := by
  cases first with
  | error fault => cases done
  | ok middle => exact ⟨middle, rfl, done⟩

/-- What succeeds under another wording of its faults succeeds. -/
theorem eq_ok_of_mapError_eq_ok {wording : Fault → Other} (done : computed.mapError wording = .ok result) :
    computed = .ok result := by
  cases computed with
  | error fault => cases done
  | ok found => exact congrArg Except.ok (Except.ok.inj done)

/-- What is mapped to some value was computed. -/
theorem eq_ok_of_map_some_eq_ok (done : computed.map some = .ok (some result)) : computed = .ok result := by
  cases computed with
  | error fault => cases done
  | ok found => exact congrArg Except.ok (Option.some.inj (Except.ok.inj done))

/-- What is mapped to a result was computed. -/
theorem exists_of_map_eq_ok {computed : Except Fault Middle} {next : Middle → Result}
    (done : computed.map next = .ok result) : ∃ middle, computed = .ok middle ∧ next middle = result := by
  cases computed with
  | error fault => cases done
  | ok middle => exact ⟨middle, rfl, Except.ok.inj done⟩

/-- A computation in two parts fails as the first part does, or as the second one does behind the first. -/
theorem eq_error_or_of_bind_eq_error {first : Except Fault Middle} {next : Middle → Except Fault Result} {fault : Fault}
    (failed : first >>= next = .error fault) :
    first = .error fault ∨ ∃ middle, first = .ok middle ∧ next middle = .error fault := by
  cases first with
  | error other => exact .inl (congrArg Except.error (Except.error.inj failed))
  | ok middle => exact .inr ⟨middle, rfl, failed⟩

/-- A computation in two parts fails just if the first part does, or the second one behind it. -/
theorem exists_bind_eq_error_iff {first : Except Fault Middle} {next : Middle → Except Fault Result} :
    (∃ fault, first >>= next = .error fault)
      ↔ (∃ fault, first = .error fault)
        ∨ ∃ middle, first = .ok middle ∧ ∃ fault, next middle = .error fault := by
  cases first <;> simp [bind, Except.bind]

/-- What fails under another wording of its faults failed. -/
theorem exists_of_mapError_eq_error {wording : Fault → Other} {worded : Other}
    (failed : computed.mapError wording = .error worded) :
    ∃ fault, computed = .error fault ∧ wording fault = worded := by
  cases computed with
  | error fault => exact ⟨fault, rfl, Except.error.inj failed⟩
  | ok found => cases failed

/-- A result that a computation has is what it ends with. -/
theorem eq_ok_of_toOption_eq_some (found : computed.toOption = some result) : computed = .ok result := by
  cases computed with
  | error fault => cases found
  | ok other => exact congrArg Except.ok (Option.some.inj found)

/-- Computations in two parts that agree but for their faults agree but for their faults as a whole. -/
theorem toOption_bind_congr {first second : Except Fault Middle} {next further : Middle → Except Fault Result}
    (same : first.toOption = second.toOption)
    (onward : ∀ middle, (next middle).toOption = (further middle).toOption) :
    (first >>= next).toOption = (second >>= further).toOption := by
  cases first with
  | error => cases second with
    | error => rfl
    | ok => cases same
  | ok middle => cases second with
    | error => cases same
    | ok other =>
        obtain rfl := Option.some.inj same
        exact onward middle

end Scaffold
