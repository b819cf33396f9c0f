import Scaffold.Execution.Workspace
import Scaffold.Proofs.Merge.Bytes

/-!
# What actions make of one file

Whatever else an action does, what it makes of a file depends on the text of that file alone
(`Alteration.wanted`).  So what actions make of a file in turn is a function of what the file stores
(`Alteration.pass`).  The actions settle if a second pass leaves what the first one has stored.

Two reasons for that do not depend on what the alterations are: none of them undoes another one
(`Lasting.settles`), or the first one overwrites the file (`settles_of_overwrites`).
-/

namespace Scaffold

/-- The text that a change settles on, given the text of the file; none if the file is left as it is. -/
def Change.rule (change : Change) (path : Path) (existing : Option String) :
    Except MergeFault (Option String) :=
  match change with
  | .merge strategy content => mergedText? strategy path existing content
  | .mergeData data mode => do
    let current ← parseNamed path.text (existing.getD "")
    return some (← dumpMerged (mode.combine current data))
  | .unencodable fault => .error (.unwritable fault)

/-- What an action makes of the text of a file. -/
inductive Alteration where
  | make (change : Change)
  /-- A change to a file if it is there. -/
  | amend (change : Change)
  | extend (imports definitions : List (List Char))
  | enhance (modifier : Modifier) (arguments : Except ActionFault Entries) (fallback : Fallback)

namespace Alteration

/-- The text that an alteration settles on, given the text of the file; `some none` if the file is left as
it is, and `none` if the action fails. -/
def wanted : Alteration → Option String → Option (Option String)
  | .make change, existing => (change.rule ⟨.relative, []⟩ existing).toOption
  | .amend _, none => some none
  | .amend change, some text => (change.rule ⟨.relative, []⟩ (some text)).toOption
  | .extend _ _, none => none
  | .extend imports definitions, some text =>
    some (some (String.ofList (SchemaText.extend text.toList imports definitions)))
  | .enhance modifier arguments fallback, existing =>
    match existing, fallback with
    | none, .skip => some none
    | none, .error => none
    | _, _ => do return some (← (modifier (existing.getD "") (← arguments.toOption)).toOption)

/-- What a file stores after a text was settled on: a text that it has already is not written. -/
def written (stored : Option String) : Option String → Option String
  | none => stored
  | some text => if stored.map Text.unified = some text then stored else some text

/-- What a file stores after an alteration, given what it stores before; `none` if the action fails. -/
def apply (alteration : Alteration) (stored : Option String) : Option (Option String) :=
  (alteration.wanted (stored.map Text.unified)).map (written stored)

/-- What a file stores after alterations in turn; none if one of them fails. -/
def pass : List Alteration → Option String → Option (Option String)
  | [], stored => some stored
  | alteration :: rest, stored => (alteration.apply stored).bind (pass rest)

/-- A second pass leaves what the first one has stored. -/
def Settles (alterations : List Alteration) (stored : Option String) : Prop :=
  ∀ later, pass alterations stored = some later → pass alterations later = some later

variable {alteration : Alteration} {alterations first second rest : List Alteration}
  {stored later between other : Option String} {text content : String}

/-- A pass in two parts. -/
theorem pass_append : pass (first ++ second) stored = (pass first stored).bind (pass second) := by
  induction first generalizing stored with
  | nil => rfl
  | cons alteration rest inductionHypothesis =>
      rw [List.cons_append, pass, pass]
      cases alteration.apply stored with
      | none => rfl
      | some between => exact inductionHypothesis

theorem pass_cons_eq_some_iff :
    pass (alteration :: rest) stored = some later
      ↔ ∃ between, alteration.apply stored = some between ∧ pass rest between = some later := by
  rw [pass, Option.bind_eq_some_iff]

/-- An alteration that does not fail settles on a text, which is written unless the file has it. -/
theorem apply_eq_some_iff : alteration.apply stored = some later
    ↔ ∃ wanted, alteration.wanted (stored.map Text.unified) = some wanted ∧ written stored wanted = later :=
  Option.map_eq_some_iff

/-- After a text was settled on, the file stores what it stored before or that text. -/
theorem written_cases (stored wanted : Option String) :
    written stored wanted = stored ∨ ∃ text, wanted = some text ∧ written stored wanted = some text := by
  unfold written
  split
  next => exact .inl rfl
  next text =>
    split
    next => exact .inl rfl
    next => exact .inr ⟨text, rfl, rfl⟩

/-- A file that is there stays. -/
theorem isSome_of_apply (applied : alteration.apply stored = some later) (there : stored.isSome = true) :
    later.isSome = true := by
  obtain ⟨wanted, _, rfl⟩ := apply_eq_some_iff.mp applied
  rcases written_cases stored wanted with same | ⟨text, _, same⟩
  · rwa [same]
  · rw [same]
    rfl

/-- A file that is there stays in a pass. -/
theorem isSome_of_pass (passed : pass alterations stored = some later) (there : stored.isSome = true) :
    later.isSome = true := by
  induction alterations generalizing stored with
  | nil => rwa [← Option.some.inj passed]
  | cons alteration rest inductionHypothesis =>
      obtain ⟨between, applied, onward⟩ := pass_cons_eq_some_iff.mp passed
      exact inductionHypothesis onward (isSome_of_apply applied there)

/-- A file that is there is amended as it is changed. -/
theorem apply_amend {change : Change} (there : stored.isSome = true) :
    (Alteration.amend change).apply stored = (Alteration.make change).apply stored := by
  obtain ⟨text, rfl⟩ := Option.isSome_iff_exists.mp there
  rfl

/-! ## What a file has afterwards -/

/-- After a text was settled on, the file has that text. -/
theorem unified_written (stored : Option String) (text : String) :
    (written stored (some text)).map Text.unified = some (Text.unified text) := by
  unfold written
  dsimp only
  split
  next same =>
    obtain ⟨old, rfl, rfl⟩ := Option.map_eq_some_iff.mp same
    rw [Option.map_some, Text.unified_of_notMem (Text.notMem_unified old)]
  next => rfl

/-- A text that is settled on once more is not written again. -/
theorem written_written (stored : Option String) (text : String) :
    written (written stored (some text)) (some text) = written stored (some text) := by
  by_cases same : stored.map Text.unified = some text
  · simp only [written, if_pos same]
  · simp only [written, if_neg same, ite_self]

/-! ## Alterations that do not undo each other -/

/-- An alteration leaves the text that a file has. -/
def Rests (alteration : Alteration) (stored : Option String) : Prop :=
  alteration.wanted (stored.map Text.unified) = some none

theorem Rests.apply (rests : alteration.Rests stored) : alteration.apply stored = some stored :=
  apply_eq_some_iff.mpr ⟨none, rests, rfl⟩

/-- A pass of alterations that all rest changes nothing. -/
theorem pass_of_rests (rests : ∀ alteration ∈ alterations, alteration.Rests stored) :
    pass alterations stored = some stored := by
  induction alterations with
  | nil => rfl
  | cons first others inductionHypothesis =>
      obtain ⟨here, there⟩ := List.forall_mem_cons.mp rests
      exact pass_cons_eq_some_iff.mpr ⟨stored, here.apply, inductionHypothesis there⟩

/-- In files that fit, each of some alterations comes to rest and is not unsettled by the others. -/
structure Lasting (Fits : Option String → Prop) (alterations : List Alteration) : Prop where
  fits : ∀ alteration ∈ alterations, ∀ before after, Fits before → alteration.apply before = some after →
    Fits after
  makes : ∀ alteration ∈ alterations, ∀ before after, Fits before → alteration.apply before = some after →
    alteration.Rests after
  lasts : ∀ alteration ∈ alterations, ∀ other ∈ alterations, ∀ before after, Fits before →
    alteration.Rests before → other.apply before = some after → alteration.Rests after

/-- After a pass rests what rested before it, and what took part in it. -/
theorem Lasting.rests_of_pass {Fits : Option String → Prop} (lasting : Lasting Fits alterations)
    (inside : rest ⊆ alterations) (fitting : Fits stored) (passed : pass rest stored = some later)
    (member : alteration ∈ alterations) (either : alteration ∈ rest ∨ alteration.Rests stored) :
    alteration.Rests later := by
  induction rest generalizing stored with
  | nil =>
      obtain rfl := Option.some.inj passed
      exact either.resolve_left List.not_mem_nil
  | cons first others inductionHypothesis =>
      obtain ⟨here, there⟩ := List.cons_subset.mp inside
      obtain ⟨between, applied, onward⟩ := pass_cons_eq_some_iff.mp passed
      refine inductionHypothesis there (lasting.fits first here _ _ fitting applied) onward ?_
      rcases either with made | rests
      · rcases List.mem_cons.mp made with rfl | further
        · exact .inr (lasting.makes alteration here _ _ fitting applied)
        · exact .inl further
      · exact .inr (lasting.lasts alteration member first here _ _ fitting rests applied)

/-- Lasting alterations settle. -/
theorem Lasting.settles {Fits : Option String → Prop} (lasting : Lasting Fits alterations)
    (fitting : Fits stored) : Settles alterations stored := fun _ passed =>
  pass_of_rests fun _ member =>
    lasting.rests_of_pass (List.Subset.refl _) fitting passed member (.inl member)

/-! ## Overwriting -/

/-- Files that are read alike are altered alike: afterwards they store the same, or nothing was written. -/
theorem apply_congr (alike : stored.map Text.unified = other.map Text.unified)
    (applied : alteration.apply stored = some later) :
    ∃ further, alteration.apply other = some further ∧ (further = later ∨ later = stored ∧ further = other) := by
  obtain ⟨wanted, ruled, rfl⟩ := apply_eq_some_iff.mp applied
  refine ⟨_, apply_eq_some_iff.mpr ⟨wanted, alike ▸ ruled, rfl⟩, ?_⟩
  cases wanted with
  | none => exact .inr ⟨rfl, rfl⟩
  | some text =>
      by_cases same : stored.map Text.unified = some text
      · have again : other.map Text.unified = some text := alike ▸ same
        rw [written, written, if_pos same, if_pos again]
        exact .inr ⟨rfl, rfl⟩
      · have again : other.map Text.unified ≠ some text := alike ▸ same
        rw [written, written, if_neg same, if_neg again]
        exact .inl rfl

/-- So they are in a pass. -/
theorem pass_congr (alike : stored.map Text.unified = other.map Text.unified)
    (passed : pass alterations stored = some later) :
    ∃ further, pass alterations other = some further ∧ (further = later ∨ later = stored ∧ further = other) := by
  induction alterations generalizing stored other with
  | nil =>
      obtain rfl := Option.some.inj passed
      exact ⟨other, rfl, .inr ⟨rfl, rfl⟩⟩
  | cons first rest inductionHypothesis =>
      obtain ⟨between, applied, onward⟩ := pass_cons_eq_some_iff.mp passed
      obtain ⟨step, again, rfl | ⟨rfl, rfl⟩⟩ := apply_congr alike applied
      · exact ⟨later, pass_cons_eq_some_iff.mpr ⟨_, again, onward⟩, .inl rfl⟩
      · obtain ⟨further, passes, ends⟩ := inductionHypothesis alike onward
        exact ⟨further, pass_cons_eq_some_iff.mpr ⟨_, again, passes⟩, ends⟩

/-- Whatever follows settles if the file is overwritten first. -/
theorem settles_of_overwrites {strategy : MergeStrategy} (overwrites : strategy.Overwrites) :
    Settles (.make (.merge strategy content) :: rest) stored := by
  have applies : ∀ before, (Alteration.make (.merge strategy content)).apply before
      = some (written before (some content)) := by
    intro before
    have settled : (Alteration.make (.merge strategy content)).wanted (before.map Text.unified)
        = (mergedText? strategy ⟨.relative, []⟩ (before.map Text.unified) content).toOption := rfl
    rw [apply, settled, mergedText?_of_overwrites overwrites]
    rfl
  intro later passed
  obtain ⟨between, applied, onward⟩ := pass_cons_eq_some_iff.mp passed
  obtain rfl := Option.some.inj ((applies stored).symm.trans applied)
  have alike : (written stored (some content)).map Text.unified
      = (written later (some content)).map Text.unified := by rw [unified_written, unified_written]
  obtain ⟨further, again, rfl | ⟨rfl, rfl⟩⟩ := pass_congr alike onward
  · exact pass_cons_eq_some_iff.mpr ⟨_, applies _, again⟩
  · -- Nothing was written behind the first alteration, which writes its text once.
    refine pass_cons_eq_some_iff.mpr ⟨_, applies _, ?_⟩
    rw [written_written] at again ⊢
    exact again

end Alteration

end Scaffold
