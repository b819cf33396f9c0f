import Scaffold.Proofs.Execution.Alterations
import Scaffold.Proofs.Tree.Reaching

/-!
# What actions make of all files

Actions alter files in turn, each at a location (`FileStep`).  Where the alterations of each location can be made
of what is stored there, and no file has to be created, the actions succeed; and if they succeed, then each file is
what its own alterations make of it, and no other file changes (`Tree.Performs`).  So what is known of the
alterations of one file carries over to runs (`Tree.Performs.append`).
-/

namespace Scaffold

/-- An alteration of the file at a location. -/
structure FileStep where
  location : Location
  alteration : Alteration

/-- The alterations of the file at a location, in turn. -/
def FileStep.alterationsAt (location : Location) (steps : List FileStep) : List Alteration :=
  (steps.filter fun step => step.location == location).map FileStep.alteration

namespace Alteration

/-- What the bytes of a file go through while alterations are made in turn.  For each of them the file stores a text,
or is not there. -/
inductive Turns : List Alteration → Option ByteArray → Option ByteArray → Prop where
  | done {bytes} : Turns [] bytes bytes
  | next {alteration rest stored between after} (applied : alteration.apply stored = some between)
      (onward : Turns rest (between.map String.toUTF8) after) :
      Turns (alteration :: rest) (stored.map String.toUTF8) after

variable {alteration : Alteration} {alterations first second rest : List Alteration}
  {stored later other : Option String} {before between after further : Option ByteArray}

/-- Texts with the same bytes are the same. -/
theorem eq_of_map_toUTF8 (same : stored.map String.toUTF8 = other.map String.toUTF8) : stored = other :=
  Option.map_injective (fun _ _ => String.toByteArray_inj.mp) same

theorem Turns.append (early : Turns first before between) (late : Turns second between after) :
    Turns (first ++ second) before after := by
  induction early with
  | done => exact late
  | next applied _ inductionHypothesis => exact .next applied (inductionHypothesis late)

theorem Turns.split (turns : Turns (first ++ second) before after) :
    ∃ between, Turns first before between ∧ Turns second between after := by
  induction first generalizing before with
  | nil => exact ⟨before, .done, turns⟩
  | cons alteration rest inductionHypothesis =>
      cases turns with
      | next applied onward =>
          obtain ⟨between, early, late⟩ := inductionHypothesis onward
          exact ⟨between, .next applied early, late⟩

/-- What alterations leave is determined. -/
theorem Turns.unique (turns : Turns alterations before after) (again : Turns alterations before further) :
    after = further := by
  induction turns generalizing further with
  | done =>
      cases again
      rfl
  | next applied _ inductionHypothesis =>
      generalize isStored : Option.map String.toUTF8 _ = bytes at again
      cases again with
      | next appliedToo onward =>
          obtain rfl := eq_of_map_toUTF8 isStored
          obtain rfl := Option.some.inj (applied.symm.trans appliedToo)
          exact inductionHypothesis onward

/-- A file that is there stays. -/
theorem Turns.isSome (turns : Turns alterations before after) (there : before.isSome = true) :
    after.isSome = true := by
  induction turns with
  | done => exact there
  | next applied _ inductionHypothesis =>
      rw [Option.isSome_map] at there
      exact inductionHypothesis (by rw [Option.isSome_map]; exact isSome_of_apply applied there)

/-- A file that is not there afterwards was not there before. -/
theorem Turns.eq_none (turns : Turns alterations before after) (none : after = none) : before = .none := by
  subst none
  cases before with
  | none => rfl
  | some bytes => exact absurd (turns.isSome rfl) Bool.false_ne_true

/-- A pass is what a file that stores a text goes through. -/
theorem turns_iff_pass : Turns alterations (stored.map String.toUTF8) after
    ↔ ∃ later, pass alterations stored = some later ∧ after = later.map String.toUTF8 := by
  constructor
  · intro turns
    generalize isStored : stored.map String.toUTF8 = bytes at turns
    induction turns generalizing stored with
    | done => exact ⟨stored, rfl, isStored.symm⟩
    | next applied _ inductionHypothesis =>
        obtain rfl := eq_of_map_toUTF8 isStored
        obtain ⟨later, passed, same⟩ := inductionHypothesis rfl
        exact ⟨later, pass_cons_eq_some_iff.mpr ⟨_, applied, passed⟩, same⟩
  · rintro ⟨later, passed, rfl⟩
    induction alterations generalizing stored with
    | nil =>
        obtain rfl := Option.some.inj passed
        exact .done
    | cons alteration rest inductionHypothesis =>
        obtain ⟨between, applied, onward⟩ := pass_cons_eq_some_iff.mp passed
        exact .next applied (inductionHypothesis onward)

/-- A file that is there is amended as it is changed. -/
theorem turns_amend_iff {change : Change} (there : before.isSome = true) :
    Turns (.amend change :: rest) before after ↔ Turns (.make change :: rest) before after := by
  have same : ∀ {stored : Option String}, before = stored.map String.toUTF8 →
      (Alteration.amend change).apply stored = (Alteration.make change).apply stored := by
    rintro stored rfl
    rw [Option.isSome_map] at there
    exact apply_amend there
  constructor
  · intro turns
    generalize isStored : before = bytes at turns
    cases turns with
    | next applied onward => exact .next (same isStored ▸ applied) onward
  · intro turns
    generalize isStored : before = bytes at turns
    cases turns with
    | next applied onward => exact .next ((same isStored).trans applied) onward

/-- A file that is not there is not amended. -/
theorem turns_amend_none_iff {change : Change} :
    Turns (.amend change :: rest) none after ↔ Turns rest none after := by
  constructor
  · intro turns
    generalize isStored : none = bytes at turns
    cases turns with
    | @next _ _ stored _ _ applied onward =>
        obtain rfl : stored = none := Option.map_eq_none_iff.mp isStored.symm
        obtain rfl := Option.some.inj applied
        exact onward
  · intro turns
    have applied : (Alteration.amend change).apply none = some none := rfl
    exact .next applied turns

/-- Alterations that were made of a file, if there are any, found a text or no file. -/
theorem Turns.exists_stored (turns : Turns alterations before after) (nonempty : alterations ≠ []) :
    ∃ stored : Option String, before = stored.map String.toUTF8 := by
  cases turns with
  | done => exact absurd rfl nonempty
  | next => exact ⟨_, rfl⟩

end Alteration

namespace FileStep

variable {location : Location} {first second steps : List FileStep} {step : FileStep}

theorem alterationsAt_append : alterationsAt location (first ++ second)
    = alterationsAt location first ++ alterationsAt location second := by
  rw [alterationsAt, List.filter_append, List.map_append]
  rfl

/-- A single step alters the file at its location. -/
theorem alterationsAt_self : alterationsAt step.location [step] = [step.alteration] := by
  simp [alterationsAt]

/-- No other file is altered. -/
theorem alterationsAt_of_ne (differ : ∀ step ∈ steps, step.location ≠ location) :
    alterationsAt location steps = [] := by
  rw [alterationsAt, List.map_eq_nil_iff, List.filter_eq_nil_iff]
  exact fun step member same => differ step member (beq_iff_eq.mp same)

end FileStep

namespace Tree

open Alteration (Turns)
open FileStep (alterationsAt)

/-- The files of a tree were altered by steps, and by nothing else. -/
structure Alters (before : Tree) (steps : List FileStep) (after : Tree) : Prop where
  retains : before.Retains after
  turns : ∀ location, Turns (alterationsAt location steps) (before.file? location) (after.file? location)

/-- Every file has what it needs for the steps to be taken: its alterations can be made, and they do not create
it. -/
def Awaits (tree : Tree) (steps : List FileStep) : Prop :=
  ∀ location, ∃ new, Turns (alterationsAt location steps) (tree.file? location) new
    ∧ (tree.file? location = none → new = none)

/-- What is done to a tree takes steps: it alters the files by them if it succeeds, and it succeeds if every file has
what it needs. -/
structure Performs (before : Tree) (steps : List FileStep) (success : Prop) (after : Tree) : Prop where
  alters : success → Alters before steps after
  succeeds : Awaits before steps → success

variable {tree before between after : Tree} {steps first second : List FileStep} {step : FileStep}
  {location : Location} {path : Path} {early success other : Prop}

theorem Alters.refl (wellFormed : tree.WellFormed) : tree.Alters [] tree :=
  ⟨.refl wellFormed, fun _ => .done⟩

theorem Alters.append (begins : Alters before first between) (ends : Alters between second after) :
    Alters before (first ++ second) after := by
  refine ⟨begins.retains.trans ends.retains, fun location => ?_⟩
  rw [FileStep.alterationsAt_append]
  exact (begins.turns location).append (ends.turns location)

/-- A file that no step alters is as it was. -/
theorem Alters.file?_of_ne (alters : Alters before steps after)
    (differ : ∀ step ∈ steps, step.location ≠ location) : after.file? location = before.file? location := by
  have turns := alters.turns location
  rw [FileStep.alterationsAt_of_ne differ] at turns
  generalize before.file? location = old at turns
  generalize after.file? location = new at turns
  cases turns
  rfl

/-- What is awaited is awaited for the first steps. -/
theorem Awaits.begin (awaits : Awaits tree (first ++ second)) : Awaits tree first := by
  intro location
  obtain ⟨new, turns, stays⟩ := awaits location
  rw [FileStep.alterationsAt_append] at turns
  obtain ⟨between, begins, ends⟩ := turns.split
  exact ⟨between, begins, fun none => ends.eq_none (stays none)⟩

/-- And behind them for the others. -/
theorem Awaits.onward (awaits : Awaits before (first ++ second)) (alters : Alters before first between) :
    Awaits between second := by
  intro location
  obtain ⟨new, turns, stays⟩ := awaits location
  rw [FileStep.alterationsAt_append] at turns
  obtain ⟨middle, begins, ends⟩ := turns.split
  obtain rfl := begins.unique (alters.turns location)
  exact ⟨new, ends, fun none => stays (begins.eq_none none)⟩

theorem Performs.refl (wellFormed : tree.WellFormed) (holds : success) : Performs tree [] success tree :=
  ⟨fun _ => .refl wellFormed, fun _ => holds⟩

/-- Steps are taken in turn: the first ones if all are, and the others behind them. -/
theorem Performs.append (begins : Performs before first early between) (starts : success → early)
    (ends : early → Performs between second success after) : Performs before (first ++ second) success after := by
  refine ⟨fun holds => ?_, fun awaits => ?_⟩
  · have early := starts holds
    exact (begins.alters early).append ((ends early).alters holds)
  · have early := begins.succeeds awaits.begin
    exact (ends early).succeeds (awaits.onward (begins.alters early))

theorem Performs.congr (same : success ↔ other) (performs : Performs before steps success after) :
    Performs before steps other after :=
  ⟨fun holds => performs.alters (same.mpr holds), fun awaits => same.mp (performs.succeeds awaits)⟩

/-- Steps may stand for others that alter each file alike. -/
theorem Performs.exchange (performs : Performs before first success after)
    (alike : ∀ location new, Turns (alterationsAt location first) (before.file? location) new
      ↔ Turns (alterationsAt location second) (before.file? location) new) :
    Performs before second success after := by
  refine ⟨fun holds => ?_, fun awaits => performs.succeeds fun location => ?_⟩
  · have alters := performs.alters holds
    exact ⟨alters.retains, fun location => (alike location _).mp (alters.turns location)⟩
  · obtain ⟨new, turns, stays⟩ := awaits location
    exact ⟨new, (alike location new).mpr turns, stays⟩

/-! ## One file -/

variable {rule : Option String → Except MergeFault (Option String)} {stored : Option String}

/-- Where a path reaches a location, its text is that of the file there. -/
theorem Reaches.existingText_eq (reaches : tree.Reaches path location) (wellFormed : tree.WellFormed)
    (stands : tree.file? location = stored.map String.toUTF8) :
    tree.existingText path = .ok (stored.map Text.unified) := by
  have bytes := reaches.leads (.refl wellFormed)
  rw [stands] at bytes
  cases stored with
  | some text => exact existingText_of_bytes bytes
  | none =>
      obtain ⟨present, told⟩ := reaches.told (.refl wellFormed)
      have absent := eq_isSome_of_isFile told
      rw [bytes] at absent
      rw [existingText, told, absent]
      rfl

/-- A text that was merged into a file was settled on in what the file stores. -/
theorem Reaches.exists_of_revise {changed : Bool} (reaches : tree.Reaches path location)
    (wellFormed : tree.WellFormed) (done : tree.revise path rule = (.ok changed, after)) :
    ∃ stored wanted, tree.file? location = stored.map String.toUTF8
      ∧ rule (stored.map Text.unified) = .ok wanted
      ∧ after.file? location = (Alteration.written stored wanted).map String.toUTF8 := by
  obtain ⟨existing, wanted, found, ruled, settled⟩ := settled_of_revise wellFormed done
  obtain ⟨stored, bytes, rfl⟩ := exists_text_of_existingText found
  have stands := (reaches.leads (.refl wellFormed)).symm.trans bytes
  have retains := wellFormed.retains_revise path rule
  rw [done] at retains
  refine ⟨stored, wanted, stands, ruled, ?_⟩
  cases settled with
  | kept same =>
      have kept : Alteration.written stored wanted = stored := by
        cases wanted with
        | none => rfl
        | some text => exact if_pos (same text rfl)
      rw [kept, stands]
  | @written text after differs wellFormedAfter holds =>
      rw [← reaches.leads retains, holds, Alteration.written, if_neg differs]
      rfl

variable (rule) in
/-- A merge into the file that a path reaches takes one step. -/
theorem performs_revise (wellFormed : tree.WellFormed) (reaches : tree.Reaches path step.location)
    (wants : ∀ existing, (rule existing).toOption = step.alteration.wanted existing) :
    Performs tree [step] (∃ changed, (tree.revise path rule).1 = .ok changed) (tree.revise path rule).2 := by
  constructor
  · rintro ⟨changed, answer⟩
    refine ⟨wellFormed.retains_revise path rule, fun location => ?_⟩
    have done : tree.revise path rule = (.ok changed, (tree.revise path rule).2) := Prod.ext answer rfl
    by_cases here : step.location = location
    · subst here
      obtain ⟨stored, wanted, stands, ruled, left⟩ := reaches.exists_of_revise wellFormed done
      have wants := wants (stored.map Text.unified)
      rw [ruled] at wants
      rw [FileStep.alterationsAt_self, stands, left]
      exact .next (Alteration.apply_eq_some_iff.mpr ⟨wanted, wants.symm, rfl⟩) .done
    · rw [FileStep.alterationsAt_of_ne fun other member => List.mem_singleton.mp member ▸ here,
        (revises_revise tree path rule).file?_of_ne reaches.resolves (Ne.symm here)]
      exact .done
  · intro awaits
    obtain ⟨new, turns, stays⟩ := awaits step.location
    rw [FileStep.alterationsAt_self] at turns
    obtain ⟨stored, stands⟩ := turns.exists_stored (List.cons_ne_nil _ _)
    rw [stands] at turns
    obtain ⟨later, passed, rfl⟩ := Alteration.turns_iff_pass.mp turns
    obtain ⟨between, applied, ended⟩ := Alteration.pass_cons_eq_some_iff.mp passed
    obtain rfl := Option.some.inj ended
    obtain ⟨wanted, ruled, rfl⟩ := Alteration.apply_eq_some_iff.mp applied
    rw [← wants] at ruled
    replace ruled := eq_ok_of_toOption_eq_some ruled
    have found := reaches.existingText_eq wellFormed stands
    cases stored with
    | some text =>
        have bytes := (reaches.leads (.refl wellFormed)).trans stands
        obtain ⟨changed, after, done, _⟩ :=
          exists_settled_of_revise wellFormed (wellFormed.isWritable_of_bytes bytes) found ruled
        exact ⟨changed, congrArg Prod.fst done⟩
    | none =>
        -- The file is not to be created, so nothing is settled on.
        cases wanted with
        | none =>
            refine ⟨false, ?_⟩
            rw [revise, found]
            dsimp only
            rw [ruled]
            rfl
        | some text => cases stays stands

end Tree

end Scaffold
