import Scaffold.Proofs.Execution.Alterations
import Scaffold.Proofs.Execution.Schema
import Scaffold.Proofs.Merge.Additions

/-!
# Alterations that settle

Alterations of different files do not meet, but those of one file do: each may undo what another one looks
for.  `Alteration.Converges` lists what the alterations of a file may be for them to settle: all of them add to
the file, all of them lay objects over its object, the first one overwrites the file, or there is only one, a
schema extension or a modifier that repeats; and before any of these the file may be created.
-/

namespace Scaffold

/-- A payload as an alteration of the file that it is merged into. -/
def Payload.alteration : Payload → Alteration
  | .content text => .make (.merge .structured text)
  | .data entries => .make (.mergeData entries .deep)

namespace Alteration

open Json

variable {alteration : Alteration} {alterations : List Alteration} {stored later : Option String}
  {text content : String} {payload : Payload} {payloads : List Payload} {entries object current : Entries}

/-! ## Additions -/

/-- An alteration that keeps what is in a file and adds to it what is missing. -/
inductive Adds : Alteration → Prop where
  | create {content : String} : Adds (.make (.merge .createIfAbsent content))
  | block (addition : Addition) : Adds (.make (.merge addition.strategy addition.content))
  | entries {block : String} : Adds (.make (.merge .lineAppendDedup block))
  | declare {block : String} : Adds (.amend (.merge .lineAppendDedup block))

/-- A text is made of complete lines and further text, and another text is one of the two. -/
def Joins (text : String) (later : List Char) : Prop :=
  ∃ first second, later = EnvLines.completed first ++ second
    ∧ (first = text.toList ∨ second = text.toList)

/-- A text that is joined with complete lines keeps the blocks that it contains. -/
theorem Joins.contains {block grown : List Char} (joins : Joins text grown)
    (inside : Block.contains text.toList block = true) : Block.contains grown block = true := by
  obtain ⟨first, second, rfl, order⟩ := joins
  refine Block.contains_join (order.imp ?_ ?_) <;>
  · rintro rfl
    exact inside

/-- A text that is joined with complete lines keeps the keys that it defines. -/
theorem Joins.keys {grown : List Char} (joins : Joins text grown) :
    EnvLines.keys text.toList ⊆ EnvLines.keys grown := by
  obtain ⟨first, second, rfl, order⟩ := joins
  have split : EnvLines.keys (EnvLines.completed first ++ second)
      = EnvLines.keys first ++ EnvLines.keys second := by
    rw [EnvLines.keys, EnvLines.lines_completed_append, List.filter_append, List.map_append,
      EnvLines.filter_lines_completed]
    rfl
  rw [split]
  rcases order with rfl | rfl
  · exact List.subset_append_left ..
  · exact List.subset_append_right ..

/-- The text that lines are merged into is joined with them. -/
theorem joins_of_merge? {block grown : List Char}
    (merged : EnvLines.merge? text.toList block = some grown) : Joins text grown := by
  rw [EnvLines.merge?_eq] at merged
  split at merged
  · cases merged
  · exact ⟨_, _, (Option.some.inj merged).symm, .inl rfl⟩

/-- A file that is there is not created. -/
theorem rests_create_iff : (Alteration.make (.merge .createIfAbsent content)).Rests stored
    ↔ stored.isSome = true := by
  cases stored with
  | none => exact iff_of_false nofun nofun
  | some text => exact iff_of_true rfl rfl

/-- A block is added unless the file contains it. -/
theorem rests_block_iff {addition : Addition} :
    (Alteration.make (.merge addition.strategy addition.content)).Rests stored
      ↔ addition.IsIn (stored.map Text.unified) := by
  have rule : ∀ existing, (Alteration.make (.merge addition.strategy addition.content)).wanted existing
      = (mergedText? addition.strategy ⟨.relative, []⟩ existing addition.content).toOption := fun _ => rfl
  constructor
  · intro rests
    by_contra outside
    have unified : ∀ text ∈ stored.map Text.unified, '\r' ∉ text.toList := by
      intro text member
      obtain ⟨old, _, rfl⟩ := Option.map_eq_some_iff.mp member
      exact Text.notMem_unified old
    obtain ⟨later, ruled, _⟩ := Addition.exists_mergedText? outside unified ⟨.relative, []⟩
    rw [Rests, rule, ruled] at rests
    cases rests
  · intro inside
    rw [Rests, rule, Addition.mergedText?_of_isIn inside]
    rfl

/-- The entry lines of a block are added unless the file defines their keys. -/
theorem rests_entries_iff {block : String} : (Alteration.make (.merge .lineAppendDedup block)).Rests stored
    ↔ EnvLines.keys block.toList ⊆ EnvLines.keys ((stored.map Text.unified).getD "").toList := by
  have settled : (Alteration.make (.merge .lineAppendDedup block)).wanted (stored.map Text.unified)
      = some ((EnvLines.merge? ((stored.map Text.unified).getD "").toList block.toList).map String.ofList) :=
    rfl
  rw [Rests, settled, Option.some.injEq, Option.map_eq_none_iff, EnvLines.merge?_eq_none_iff]
  rfl

/-- A file that is there is left when it is amended if it is left when it is changed. -/
theorem rests_amend_iff {change : Change} (there : stored.isSome = true) :
    (Alteration.amend change).Rests stored ↔ (Alteration.make change).Rests stored := by
  obtain ⟨text, rfl⟩ := Option.isSome_iff_exists.mp there
  exact Iff.rfl

/-- What an addition does to a file: nothing, or it creates the file, or it joins the text of the file with
complete lines. -/
inductive Grows : Option String → Option String → Prop where
  | kept (same : Option String) : Grows same same
  | created (new : String) : Grows none (some new)
  | joined {old : String} {grown : List Char} (plain : '\r' ∉ grown)
      (joins : Joins (Text.unified old) grown) : Grows (some old) (some (String.ofList grown))

/-- A text that is settled on in a file lets the file grow if it joins the text that the file has. -/
theorem grows_written {wanted : Option String}
    (joined : ∀ old text, stored = some old → wanted = some text →
      '\r' ∉ text.toList ∧ Joins (Text.unified old) text.toList) :
    Grows stored (written stored wanted) := by
  rcases written_cases stored wanted with same | ⟨text, isWanted, same⟩
  · rw [same]
    exact .kept stored
  · rw [same]
    cases stored with
    | none => exact .created text
    | some old =>
        obtain ⟨plain, joins⟩ := joined old text rfl isWanted
        have grows := Grows.joined plain joins
        rwa [String.ofList_toList] at grows

/-- Every addition lets a file grow. -/
theorem Adds.grows (adds : alteration.Adds) (applied : alteration.apply stored = some later) :
    Grows stored later := by
  obtain ⟨wanted, ruled, rfl⟩ := apply_eq_some_iff.mp applied
  have merges : ∀ old text block, EnvLines.merge? (Text.unified old).toList block = some text →
      '\r' ∉ text ∧ Joins (Text.unified old) text := fun old text block merged =>
    ⟨EnvLines.notMem_of_merge? (Text.notMem_unified old) merged, joins_of_merge? merged⟩
  refine grows_written fun old text stands isWanted => ?_
  subst stands isWanted
  cases adds with
  | create => cases ruled
  | block addition =>
      by_cases inside : addition.IsIn (some (Text.unified old))
      · have rests : (Alteration.make (.merge addition.strategy addition.content)).Rests (some old) :=
          rests_block_iff.mpr inside
        rw [Rests, ruled] at rests
        cases rests
      · obtain ⟨first, second, joined, order⟩ := Addition.exists_joined inside ⟨.relative, []⟩
        obtain ⟨other, again, plain, _⟩ := Addition.exists_mergedText? inside
          (fun text same => Option.some.inj same ▸ Text.notMem_unified old) ⟨.relative, []⟩
        have settled : (mergedText? addition.strategy ⟨.relative, []⟩ (some (Text.unified old))
            addition.content).toOption = some (some text) := ruled
        rw [again] at settled
        obtain rfl := Option.some.inj (Option.some.inj settled)
        obtain rfl := Option.some.inj (Except.ok.inj (again.symm.trans joined))
        refine ⟨plain, first, second, String.toList_ofList, order.imp (·.1) (·.2)⟩
  | entries =>
      obtain ⟨lines, merged, rfl⟩ := Option.map_eq_some_iff.mp (Option.some.inj ruled)
      rw [String.toList_ofList]
      exact merges old lines _ merged
  | declare =>
      obtain ⟨lines, merged, rfl⟩ := Option.map_eq_some_iff.mp (Option.some.inj ruled)
      rw [String.toList_ofList]
      exact merges old lines _ merged

/-- A file that is amended is there. -/
def Amendable (alteration : Alteration) (stored : Option String) : Prop :=
  ∀ change, alteration = .amend change → stored.isSome = true

/-- The entry lines of a block are in a file after they were merged into it. -/
theorem rests_of_entries {block : String}
    (applied : (Alteration.make (.merge .lineAppendDedup block)).apply stored = some later) :
    (Alteration.make (.merge .lineAppendDedup block)).Rests later := by
  obtain ⟨wanted, ruled, rfl⟩ := apply_eq_some_iff.mp applied
  obtain rfl := Option.some.inj ruled
  rw [rests_entries_iff]
  cases merged : EnvLines.merge? ((stored.map Text.unified).getD "").toList block.toList with
  | none =>
      rw [Option.map_none]
      exact EnvLines.merge?_eq_none_iff.mp merged
  | some text =>
      have plain : '\r' ∉ text := by
        refine EnvLines.notMem_of_merge? ?_ merged
        cases stored with
        | none => exact List.not_mem_nil
        | some old => exact Text.notMem_unified old
      rw [Option.map_some, unified_written, Text.unified_of_notMem (by rwa [String.toList_ofList]),
        Option.getD_some, String.toList_ofList]
      have same : text = EnvLines.merged ((stored.map Text.unified).getD "").toList block.toList := by
        rw [EnvLines.merged, merged, Option.getD_some]
      rw [same]
      exact fun key member => EnvLines.mem_keys_merged.mpr (.inr member)

/-- An addition comes to rest. -/
theorem Adds.rests_of_apply (adds : alteration.Adds) (amendable : alteration.Amendable stored)
    (applied : alteration.apply stored = some later) : alteration.Rests later := by
  cases adds with
  | create =>
      rw [rests_create_iff]
      obtain ⟨wanted, ruled, rfl⟩ := apply_eq_some_iff.mp applied
      obtain rfl := Option.some.inj ruled
      cases stored <;> rfl
  | block addition =>
      by_cases inside : addition.IsIn (stored.map Text.unified)
      · have rests := rests_block_iff.mpr inside
        rwa [Option.some.inj (applied.symm.trans rests.apply)]
      · have unified : ∀ text ∈ stored.map Text.unified, '\r' ∉ text.toList := by
          intro text member
          obtain ⟨old, _, rfl⟩ := Option.map_eq_some_iff.mp member
          exact Text.notMem_unified old
        obtain ⟨text, settled, plain, isIn, _⟩ :=
          Addition.exists_mergedText? inside unified ⟨.relative, []⟩
        obtain ⟨wanted, ruled, rfl⟩ := apply_eq_some_iff.mp applied
        have same : (mergedText? addition.strategy ⟨.relative, []⟩ (stored.map Text.unified)
          addition.content).toOption = some wanted := ruled
        rw [settled] at same
        obtain rfl := Option.some.inj same
        rwa [rests_block_iff, unified_written, Text.unified_of_notMem plain]
  | entries => exact rests_of_entries applied
  | declare =>
      have there := amendable _ rfl
      rw [rests_amend_iff (isSome_of_apply applied there)]
      rw [apply_amend there] at applied
      exact rests_of_entries applied

/-- Entry lines that are in a file stay while the file grows. -/
theorem rests_entries_of_grows {block : String}
    (rests : (Alteration.make (.merge .lineAppendDedup block)).Rests stored) (grows : Grows stored later) :
    (Alteration.make (.merge .lineAppendDedup block)).Rests later := by
  rw [rests_entries_iff] at rests ⊢
  cases grows with
  | kept => exact rests
  | created => exact fun key member => absurd (rests member) List.not_mem_nil
  | joined plain joins =>
      rw [Option.map_some, Text.unified_of_notMem (by rwa [String.toList_ofList]), Option.getD_some,
        String.toList_ofList]
      exact List.Subset.trans rests joins.keys

/-- An addition that rests goes on to rest while the file grows. -/
theorem Adds.rests_of_grows (adds : alteration.Adds) (amendable : alteration.Amendable stored)
    (rests : alteration.Rests stored) (grows : Grows stored later) : alteration.Rests later := by
  cases adds with
  | create =>
      rw [rests_create_iff] at rests ⊢
      cases grows with
      | kept => exact rests
      | created => rfl
      | joined => rfl
  | block addition =>
      rw [rests_block_iff] at rests ⊢
      obtain ⟨text, same, inside⟩ := rests
      cases grows with
      | kept => exact ⟨text, same, inside⟩
      | created => cases same
      | joined plain joins =>
          obtain rfl := Option.some.inj same
          refine ⟨_, rfl, ?_⟩
          rw [Text.unified_of_notMem (by rwa [String.toList_ofList]), String.toList_ofList]
          exact joins.contains inside
  | entries => exact rests_entries_of_grows rests grows
  | declare =>
      have there := amendable _ rfl
      have still : later.isSome = true := by
        cases grows with
        | kept => exact there
        | created => rfl
        | joined => rfl
      rw [rests_amend_iff there] at rests
      rw [rests_amend_iff still]
      exact rests_entries_of_grows rests grows

/-- Additions last, if the file is there that some of them amend. -/
theorem lasting_additions (adds : ∀ alteration ∈ alterations, alteration.Adds) :
    Lasting (fun stored => ∀ alteration ∈ alterations, alteration.Amendable stored) alterations where
  fits _ _ _ _ amendable applied other inside block same :=
    isSome_of_apply applied (amendable other inside block same)
  makes alteration member _ _ amendable applied :=
    (adds alteration member).rests_of_apply (amendable alteration member) applied
  lasts alteration member other inside _ _ amendable rests applied :=
    (adds alteration member).rests_of_grows (amendable alteration member) rests
      ((adds other inside).grows applied)

/-- Additions settle if the file is not amended before it is there. -/
theorem settles_of_additions {first second : List Alteration} (adds : ∀ alteration ∈ first ++ second, alteration.Adds)
    (free : ∀ alteration ∈ first, ∀ change, alteration ≠ .amend change)
    (there : ∀ between, pass first stored = some between →
      ∀ alteration ∈ second, alteration.Amendable between) :
    Settles (first ++ second) stored := by
  intro later passed
  rw [pass_append] at passed
  obtain ⟨between, begun, ended⟩ := Option.bind_eq_some_iff.mp passed
  have front := lasting_additions fun alteration member => adds alteration (List.mem_append_left second member)
  have begins : ∀ alteration ∈ first, alteration.Rests between := fun alteration member =>
    front.rests_of_pass (List.Subset.refl _)
      (fun other inside block same => absurd same (free other inside block)) begun member (.inl member)
  have amendable : ∀ alteration ∈ first ++ second, alteration.Amendable between := by
    intro alteration member
    rcases List.mem_append.mp member with early | late
    · exact fun block same => absurd same (free alteration early block)
    · exact there between begun alteration late
  refine pass_of_rests fun alteration member => ?_
  refine (lasting_additions adds).rests_of_pass (List.subset_append_right first second) amendable ended member ?_
  exact (List.mem_append.mp member).symm.imp_right (begins alteration)

/-! ## Objects -/

/-- A file has the text of an object. -/
structure Prints (stored : Option String) (entries : Entries) : Prop where
  text : stored.map Text.unified = some (printed entries)
  document : IsDocument (.mapping entries)

/-- A payload settles on the text of the merged objects. -/
theorem wanted_payload (payload : Payload) (existing : Option String) :
    payload.alteration.wanted existing = (do
      let current ← parseNamed (Path.text ⟨.relative, []⟩) (existing.getD "")
      let incoming ← payload.object? ⟨.relative, []⟩
      return some (← dumpMerged (deepMerge current incoming))).toOption := by
  cases payload <;> rfl

/-- A payload that is merged is an object, and is merged into one, lone halves of which are overwritten. -/
theorem exists_of_apply_payload (named : payload.Named)
    (applied : payload.alteration.apply stored = some later) :
    payload.IsObject ⟨.relative, []⟩ ∧ ∃ current, IsDocument (.mapping current)
        ∧ later = written stored (some (printed (deepMerge current (payload.entries ⟨.relative, []⟩)))) := by
  obtain ⟨wanted, ruled, rfl⟩ := apply_eq_some_iff.mp applied
  rw [wanted_payload] at ruled
  obtain ⟨current, read, ruled⟩ := exists_of_bind_eq_ok (eq_ok_of_toOption_eq_some ruled)
  obtain ⟨object, isObject, ruled⟩ := exists_of_bind_eq_ok ruled
  obtain ⟨text, dumped, ruled⟩ := exists_of_bind_eq_ok ruled
  obtain rfl := Except.ok.inj ruled
  obtain ⟨form, rfl⟩ := dumpMerged_eq_ok_iff.mp dumped
  have reading := isReading_of_parseStructured (parseNamed_eq_ok_iff.mp read)
  obtain ⟨document, mended, whole, same⟩ := exists_of_hasForm_deepMerge reading (named.isNamed isObject) form
  obtain rfl : payload.entries ⟨.relative, []⟩ = object := by rw [Payload.entries, isObject]
  exact ⟨⟨_, isObject, document⟩, mended, whole, by rw [same]⟩

/-- An object is merged into the object of a file. -/
theorem Prints.apply_payload (prints : Prints stored entries) (isObject : payload.IsObject ⟨.relative, []⟩) :
    payload.alteration.apply stored
        = some (written stored (some (printed (deepMerge entries (payload.entries ⟨.relative, []⟩)))))
      ∧ Prints (written stored (some (printed (deepMerge entries (payload.entries ⟨.relative, []⟩)))))
          (deepMerge entries (payload.entries ⟨.relative, []⟩)) := by
  obtain ⟨same, document⟩ := isObject.entries
  have together := document.lays.deepMerge prints.document
  have read : parseNamed (Path.text ⟨.relative, []⟩) ((stored.map Text.unified).getD "") = .ok entries := by
    rw [prints.text, parseNamed_eq_ok_iff]
    exact parseStructured_printed prints.document
  have dumps := dumpMerged_of_hasForm (.of_isDocument together)
  refine ⟨apply_eq_some_iff.mpr ⟨_, ?_, rfl⟩, ?_, together⟩
  · simp only [wanted_payload, read, same, dumps, bind, Except.bind]
    rfl
  · rw [unified_written, Text.unified_of_notMem (notMem_printed _)]

/-- A file that has the text of an object after others were written, or not, stores what it stored before or
that text. -/
theorem Prints.eq_or_eq_some (prints : Prints later entries)
    (ends : later = written stored (some (printed object)) ∨ later = some (printed entries)) :
    later = stored ∨ later = some (printed entries) := by
  rcases ends with rfl | same
  · rcases written_cases stored (some (printed object)) with kept | ⟨text, same, new⟩
    · exact .inl kept
    · obtain rfl := Option.some.inj same
      have text := prints.text
      rw [new, Option.map_some, Text.unified_of_notMem (notMem_printed _)] at text
      exact .inr (new.trans text)
  · exact .inr same

/-- Objects are merged in turn into the object of a file.  Nothing was written, or the file stores the text of
all of them. -/
theorem Prints.pass_payloads (prints : Prints stored entries)
    (objects : ∀ payload ∈ payloads, payload.IsObject ⟨.relative, []⟩) :
    ∃ later, pass (payloads.map Payload.alteration) stored = some later
      ∧ Prints later (deepMerge entries (payloads.flatMap (Payload.entries ⟨.relative, []⟩)))
      ∧ (later = stored
        ∨ later = some (printed (deepMerge entries (payloads.flatMap (Payload.entries ⟨.relative, []⟩))))) := by
  induction payloads generalizing stored entries with
  | nil => exact ⟨stored, rfl, prints, .inl rfl⟩
  | cons payload rest inductionHypothesis =>
      obtain ⟨here, others⟩ := List.forall_mem_cons.mp objects
      obtain ⟨applied, between⟩ := prints.apply_payload here
      obtain ⟨later, passed, last, ends⟩ := inductionHypothesis between others
      rw [List.flatMap_cons, deepMerge_append]
      exact ⟨later, pass_cons_eq_some_iff.mpr ⟨_, applied, passed⟩, last, last.eq_or_eq_some ends⟩

/-- Payloads that were merged into an object are objects. -/
theorem isObject_of_pass (named : ∀ payload ∈ payloads, payload.Named)
    (passed : pass (payloads.map Payload.alteration) stored = some later) :
    ∀ payload ∈ payloads, payload.IsObject ⟨.relative, []⟩ := by
  induction payloads generalizing stored with
  | nil => exact List.forall_mem_nil _
  | cons payload rest inductionHypothesis =>
      obtain ⟨here, others⟩ := List.forall_mem_cons.mp named
      obtain ⟨between, applied, onward⟩ := pass_cons_eq_some_iff.mp passed
      exact List.forall_mem_cons.mpr
        ⟨(exists_of_apply_payload here applied).1, inductionHypothesis others onward⟩

/-- Objects that are laid over the object of a file settle. -/
theorem settles_of_payloads (named : ∀ payload ∈ payloads, payload.Named) :
    Settles (payloads.map Payload.alteration) stored := by
  intro later passed
  have objects := isObject_of_pass named passed
  cases payloads with
  | nil => rfl
  | cons payload rest =>
      obtain ⟨between, applied, onward⟩ := pass_cons_eq_some_iff.mp passed
      obtain ⟨_, current, below, isWritten⟩ := exists_of_apply_payload (named _ List.mem_cons_self) applied
      have document := (objects _ List.mem_cons_self).entries.2
      have first : Prints between (deepMerge current (payload.entries ⟨.relative, []⟩)) := by
        refine ⟨?_, document.lays.deepMerge below⟩
        rw [isWritten, unified_written, Text.unified_of_notMem (notMem_printed _)]
      obtain ⟨last, passes, prints, ends⟩ := first.pass_payloads fun other member =>
        objects other (List.mem_cons_of_mem _ member)
      obtain rfl := Option.some.inj (passes.symm.trans onward)
      have lays : Entries.Lays IsPlain ((payload :: rest).flatMap (Payload.entries ⟨.relative, []⟩)) := by
        intro entry member
        obtain ⟨other, inside, member⟩ := List.mem_flatMap.mp member
        exact (objects other inside).entries.2.lays entry member
      rw [← deepMerge_append, ← List.flatMap_cons] at prints ends
      obtain ⟨again, repeats, same, endsAgain⟩ := prints.pass_payloads objects
      -- The second pass starts from all objects merged, so it leaves them as they are.
      rw [deepMerge_idempotent below lays] at endsAgain
      rw [repeats]
      rcases endsAgain with kept | new
      · rw [kept]
      · rcases prints.eq_or_eq_some (isWritten ▸ ends) with rfl | same
        · exact repeats.symm.trans passed
        · rw [new, same]

/-! ## Single alterations -/

/-- An alteration that leaves whatever it has left. -/
def Repeats (alteration : Alteration) : Prop :=
  ∀ stored later, alteration.apply stored = some later → alteration.apply later = some later

/-- An alteration repeats if it settles on the text that it has left. -/
theorem repeats_of_wanted
    (again : ∀ existing text, alteration.wanted existing = some (some text) →
      alteration.wanted (some (Text.unified text)) = some (some (Text.unified text))) :
    alteration.Repeats := by
  intro stored later applied
  obtain ⟨wanted, ruled, rfl⟩ := apply_eq_some_iff.mp applied
  cases wanted with
  | none => exact applied
  | some text =>
      refine apply_eq_some_iff.mpr ⟨_, by rw [unified_written]; exact again _ text ruled, ?_⟩
      rw [written, unified_written]
      exact if_pos rfl

/-- A schema is extended once by what is found in it again. -/
theorem repeats_extend {addition : SchemaAddition} (stable : addition.IsStable) :
    (Alteration.extend addition.lines
      (addition.definitions.map fun definition => Block.core definition.toList)).Repeats := by
  refine repeats_of_wanted fun existing text ruled => ?_
  cases existing with
  | none => cases ruled
  | some old =>
      obtain rfl : addition.extended old = text := Option.some.inj (Option.some.inj ruled)
      exact congrArg (fun text => some (some text)) ((addition.extended_unified_iff old).mpr stable)

/-- A modifier that leaves its own result is applied once. -/
theorem repeats_enhance {modifier : Modifier} {arguments : Except ActionFault Entries}
    (again : ∀ old enhanced entries, arguments = .ok entries → modifier old entries = .ok enhanced →
      modifier (Text.unified enhanced) entries = .ok (Text.unified enhanced)) (fallback : Fallback) :
    (Alteration.enhance modifier arguments fallback).Repeats := by
  have enhances : ∀ old text,
      (do return some (← (modifier old (← arguments.toOption)).toOption)) = some (some text) →
      (Alteration.enhance modifier arguments fallback).wanted (some (Text.unified text))
        = some (some (Text.unified text)) := by
    intro old text ruled
    obtain ⟨entries, given, ruled⟩ := Option.bind_eq_some_iff.mp ruled
    obtain ⟨enhanced, made, ruled⟩ := Option.bind_eq_some_iff.mp ruled
    obtain rfl := Option.some.inj (Option.some.inj ruled)
    replace given := eq_ok_of_toOption_eq_some given
    have twice := again old enhanced entries given (eq_ok_of_toOption_eq_some made)
    simp only [wanted, given, Option.getD_some, twice, Except.toOption, bind, Option.bind, pure]
  refine repeats_of_wanted fun existing text ruled => ?_
  cases existing with
  | some old => exact enhances old text ruled
  | none =>
      cases fallback with
      | skip => cases ruled
      | error => cases ruled
      | create => exact enhances "" text ruled

/-! ## Alterations that settle -/

/-- What the alterations of a file may be for them to settle. -/
inductive Converges : Option String → List Alteration → Prop where
  /-- All of them add to the file, which is there when it is first amended. -/
  | additions {stored : Option String} {first second : List Alteration}
      (adds : ∀ alteration ∈ first ++ second, alteration.Adds)
      (free : ∀ alteration ∈ first, ∀ change, alteration ≠ .amend change)
      (there : ∀ between, pass first stored = some between →
        ∀ alteration ∈ second, alteration.Amendable between) : Converges stored (first ++ second)
  /-- All of them amend the file, and there is none. -/
  | absent {alterations : List Alteration}
      (amends : ∀ alteration ∈ alterations, ∃ change, alteration = .amend change) : Converges none alterations
  /-- All of them lay objects over the object of the file. -/
  | objects {stored : Option String} {payloads : List Payload} (named : ∀ payload ∈ payloads, payload.Named) :
      Converges stored (payloads.map Payload.alteration)
  /-- The first one overwrites the file. -/
  | overwritten {stored : Option String} {strategy : MergeStrategy} {content : String}
      {rest : List Alteration} (overwrites : strategy.Overwrites) :
      Converges stored (.make (.merge strategy content) :: rest)
  /-- A schema is extended by what is found in it again. -/
  | extended {stored : Option String} {addition : SchemaAddition} (stable : addition.IsStable) :
      Converges stored [.extend addition.lines
        (addition.definitions.map fun definition => Block.core definition.toList)]
  /-- A modifier is run that leaves its own result. -/
  | enhanced {stored : Option String} {modifier : Modifier} {arguments : Except ActionFault Entries}
      (again : ∀ old enhanced entries, arguments = .ok entries → modifier old entries = .ok enhanced →
        modifier (Text.unified enhanced) entries = .ok (Text.unified enhanced)) (fallback : Fallback) :
      Converges stored [.enhance modifier arguments fallback]
  /-- The first one creates the file unless it is there. -/
  | created {stored : Option String} {content : String} {rest : List Alteration}
      (onward : Converges (some (stored.getD content)) rest) :
      Converges stored (.make (.merge .createIfAbsent content) :: rest)

/-- An alteration that repeats settles where it is the only one. -/
theorem Repeats.settles {alteration : Alteration} (repeats : alteration.Repeats) : Settles [alteration] stored := by
  intro later passed
  obtain ⟨between, applied, ended⟩ := pass_cons_eq_some_iff.mp passed
  obtain rfl := Option.some.inj ended
  exact pass_cons_eq_some_iff.mpr ⟨_, repeats _ _ applied, rfl⟩

/-- Such alterations settle. -/
theorem Converges.settles (converges : Converges stored alterations) : Settles alterations stored := by
  induction converges with
  | additions adds free there => exact settles_of_additions adds free there
  | absent amends =>
      have rests : pass _ none = some none := pass_of_rests fun alteration member => by
        obtain ⟨change, rfl⟩ := amends alteration member
        exact rfl
      intro later passed
      obtain rfl := Option.some.inj (rests.symm.trans passed)
      exact rests
  | objects named => exact settles_of_payloads named
  | overwritten overwrites => exact settles_of_overwrites overwrites
  | extended stable => exact (repeats_extend stable).settles
  | enhanced again fallback => exact (repeats_enhance again fallback).settles
  | @created stored content rest onward inductionHypothesis =>
      intro later passed
      obtain ⟨between, applied, further⟩ := pass_cons_eq_some_iff.mp passed
      obtain rfl : between = some (stored.getD content) := by
        cases stored with
        | none => exact (Option.some.inj applied).symm
        | some text => exact (Option.some.inj applied).symm
      have there := isSome_of_pass further rfl
      exact pass_cons_eq_some_iff.mpr
        ⟨later, (rests_create_iff.mpr there).apply, inductionHypothesis later further⟩

end Alteration

end Scaffold
