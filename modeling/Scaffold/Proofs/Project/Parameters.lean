import Scaffold.Project.Context
import Scaffold.Proofs.Value.Entries

/-!
# Values of parameters

A parameter has a value if one was supplied that is not null, or if there is a default
(`field?_valuesFor_eq_none_iff`).  Entering a module lays the values of a request over the ones that were
supplied before (`supplied_enter`), so it may have values that the request leaves out (`hasValue_enter_iff`).
However many modules are entered in turn, a name has the last value that its module was entered with, and if
that one is null or missing, the last default (`moduleParameters_enterAll`).
-/

namespace Scaffold

namespace Module

variable {descriptor : Module} {parameter : Parameter} {entries : Entries} {name : String}

/-- A module demands a parameter: the first declaration of its name is required and has no default. -/
def Demands (descriptor : Module) (name : String) : Prop :=
  ∃ parameter, descriptor.parameter? name = some parameter ∧ parameter.isRequired = true
    ∧ parameter.hasDefault = false

/-- A parameter is found under its name if no other one has it. -/
theorem parameter?_of_mem (names : (descriptor.parameters.map Parameter.name).Nodup)
    (declared : parameter ∈ descriptor.parameters) :
    descriptor.parameter? parameter.name = some parameter := by
  rw [parameter?, List.find?_eq_some_iff_append]
  obtain ⟨before, after, whole⟩ := List.append_of_mem declared
  refine ⟨by simp, before, after, whole, fun other earlier => ?_⟩
  rw [whole, List.map_append, List.map_cons] at names
  have apart := (List.nodup_append.mp names).2.2 _ (List.mem_map_of_mem earlier) _ List.mem_cons_self
  simpa using apart

/-- A declared parameter is demanded if it is required and has no default. -/
theorem demands_iff_of_mem (names : (descriptor.parameters.map Parameter.name).Nodup)
    (declared : parameter ∈ descriptor.parameters) :
    descriptor.Demands parameter.name ↔ parameter.isRequired = true ∧ parameter.hasDefault = false := by
  rw [Demands, parameter?_of_mem names declared]
  simp

/-- A name is set if some entry has a value for it that is not null. -/
theorem isUnset_eq_false_iff (named : entries.Named) :
    isUnset entries name = false ↔ ∃ value, (.text name, value) ∈ entries ∧ value.isNull = false := by
  simp only [← named.get?_eq_some_iff]
  rw [isUnset, Entries.field?]
  cases Entries.get? entries (.text name) with
  | none => simp
  | some value => simp

/-- Entries that are laid over others decide about every name that they do not leave out. -/
theorem isUnset_overlay {lower upper : Entries} (above : upper.Named) :
    isUnset (lower.overlay upper) name
      = if (upper.field? name).isNone then isUnset lower name else isUnset upper name := by
  rw [isUnset, Entries.field?, above.get?_overlay, isUnset, isUnset, Entries.field?, Entries.field?]
  cases Entries.get? upper (.text name) <;> rfl

/-- A name that entries leave out is unset. -/
theorem isUnset_of_field?_eq_none (absent : entries.field? name = none) : isUnset entries name = true := by
  rw [isUnset, absent]
  rfl

/-! ## Defaults -/

/-- The last default that is declared for a name. -/
def default? (descriptor : Module) (name : String) : Option Value :=
  (descriptor.parameters.filter fun parameter => parameter.name == name && parameter.hasDefault).getLast?.map
    Parameter.default

/-- Defaults stand under names. -/
theorem texts_defaults (descriptor : Module) : ∀ key ∈ Entries.keys
    ((descriptor.parameters.filter Parameter.hasDefault).map fun parameter =>
      ((.text parameter.name : Scalar), parameter.default)), ∃ name, key = .text name := by
  intro key member
  obtain ⟨entry, listed, rfl⟩ := List.mem_map.mp member
  obtain ⟨parameter, _, rfl⟩ := List.mem_map.mp listed
  exact ⟨parameter.name, rfl⟩

/-- The defaults are a mapping. -/
theorem named_defaults (descriptor : Module) : descriptor.defaults.Named :=
  Entries.named_nil.overlay descriptor.texts_defaults

/-- Of defaults that are declared for one name, the last one counts. -/
theorem field?_defaults (descriptor : Module) (name : String) :
    descriptor.defaults.field? name = descriptor.default? name := by
  rw [Entries.field?, defaults, Entries.ofPairs, Entries.get?_overlay_of_texts descriptor.texts_defaults,
    List.filter_map, List.getLast?_map, List.filter_filter, default?, Option.map_map, Entries.get?_nil,
    Option.or_none]
  have alike : ∀ parameter : Parameter,
      ((.text parameter.name : Scalar) == .text name) = (parameter.name == name) := fun parameter => by
    by_cases same : parameter.name = name <;> simp [same]
  simp only [Function.comp_def, alike]

end Module

namespace Context

variable {context : Context} {descriptor : Module} {parameter : Parameter} {values : Entries} {name : String}
  {value : Value}

/-! ## Values of a module -/

/-- Putting values under an id leaves those of all other ids. -/
theorem lookup_putValues (known : List (String × Entries)) (id other : String) (values : Entries) :
    (putValues known id values).lookup other
      = if other = id then some values else known.lookup other := by
  induction known with
  | nil =>
      by_cases same : other = id
      · simp [putValues, same]
      · simp [putValues, List.lookup_cons, same, beq_false_of_ne same]
  | cons entry rest inductionHypothesis =>
      obtain ⟨present, old⟩ := entry
      by_cases here : present = id
      · by_cases same : other = id
        · simp [putValues, here, same]
        · simp [putValues, List.lookup_cons, here, same, beq_false_of_ne same]
      · by_cases same : other = present
        · simp [putValues, here, same]
        · simp [putValues, List.lookup_cons, here, inductionHypothesis, beq_false_of_ne same]

/-- A module is entered with the values of the request laid over those supplied before. -/
theorem supplied_enter (context : Context) (descriptor : Module) (values : Entries) :
    (context.enter descriptor values).supplied descriptor.id
      = (context.supplied descriptor.id).overlay values := by
  rw [supplied, enter, lookup_putValues, if_pos rfl]
  rfl

/-- Entering a module leaves the values of every other one. -/
theorem supplied_enter_of_ne {id : String} (other : id ≠ descriptor.id) :
    (context.enter descriptor values).supplied id = context.supplied id := by
  rw [supplied, enter, lookup_putValues, if_neg other]
  rfl

/-- A supplied value counts unless it is null, and then the default does. -/
theorem field?_valuesFor (known : (context.supplied descriptor.id).Named) (name : String) :
    (context.valuesFor descriptor).field? name
      = (((context.supplied descriptor.id).field? name).filter fun value => !value.isNull).or
        (descriptor.default? name) := by
  rw [← Module.field?_defaults, valuesFor, Entries.field?, (known.filter _).get?_overlay,
    known.get?_filter fun value => !value.isNull]
  rfl

/-- A parameter of a module has a value: one that was supplied and is not null, or a default. -/
def HasValue (context : Context) (descriptor : Module) (name : String) : Prop :=
  (∃ value, (.text name, value) ∈ context.supplied descriptor.id ∧ value.isNull = false)
    ∨ ∃ parameter ∈ descriptor.parameters, parameter.name = name ∧ parameter.hasDefault = true

/-- The parameters with a default have an entry among the defaults. -/
theorem mem_keys_defaults :
    .text name ∈ Entries.keys descriptor.defaults
      ↔ ∃ parameter ∈ descriptor.parameters, parameter.name = name ∧ parameter.hasDefault = true := by
  rw [Module.defaults, Entries.ofPairs, Entries.mem_keys_overlay, Entries.keys_nil]
  simp only [List.not_mem_nil, false_or, Entries.keys, List.map_map, List.mem_map, List.mem_filter,
    Function.comp_apply, Scalar.text.injEq]
  constructor
  · rintro ⟨parameter, ⟨declared, given⟩, same⟩
    exact ⟨parameter, declared, same, given⟩
  · rintro ⟨parameter, declared, same, given⟩
    exact ⟨parameter, ⟨declared, given⟩, same⟩

/-- A parameter without a value has no entry among the values of its module. -/
theorem field?_valuesFor_eq_none_iff :
    (context.valuesFor descriptor).field? name = none ↔ ¬context.HasValue descriptor name := by
  rw [Entries.field?, Entries.get?_eq_none_iff, valuesFor, Entries.mem_keys_overlay, mem_keys_defaults,
    HasValue, or_comm]
  apply not_congr
  apply or_congr_left
  simp only [Entries.keys, List.mem_map, List.mem_filter, Bool.not_eq_true']
  constructor
  · rintro ⟨⟨key, value⟩, ⟨member, given⟩, rfl⟩
    exact ⟨value, member, given⟩
  · rintro ⟨value, member, given⟩
    exact ⟨(.text name, value), ⟨member, given⟩, rfl⟩

/-- No value of a module's parameters is null. -/
theorem isNull_of_valuesFor (found : (context.valuesFor descriptor).field? name = some value) :
    value.isNull = false := by
  obtain ⟨entry, among, rfl⟩ := Option.map_eq_some_iff.mp found
  obtain ⟨source, origin, same⟩ := Entries.mem_overlay (List.mem_of_find?_eq_some among)
  rw [← same]
  rcases List.mem_append.mp origin with byDefault | supplied
  · obtain ⟨pair, listed, alike⟩ := Entries.mem_overlay byDefault
    rw [List.nil_append] at listed
    obtain ⟨parameter, declared, rfl⟩ := List.mem_map.mp listed
    rw [← alike]
    simpa [Parameter.hasDefault] using (List.mem_filter.mp declared).2
  · simpa using (List.mem_filter.mp supplied).2

/-- A parameter without a default has a value if one was supplied. -/
theorem hasValue_enter_iff (names : (descriptor.parameters.map Parameter.name).Nodup)
    (declared : parameter ∈ descriptor.parameters) (bare : parameter.hasDefault = false)
    (given : values.Named) (known : (context.supplied descriptor.id).Named) :
    (context.enter descriptor values).HasValue descriptor parameter.name
      ↔ Module.isUnset ((context.supplied descriptor.id).overlay values) parameter.name = false := by
  rw [HasValue, supplied_enter, Module.isUnset_eq_false_iff (known.overlay given.texts)]
  refine or_iff_left ?_
  rintro ⟨other, listed, same, default⟩
  have first := Module.parameter?_of_mem names listed
  rw [same, Module.parameter?_of_mem names declared] at first
  obtain rfl := Option.some.inj first
  rw [bare] at default
  cases default

/-- A context keeps the value of a parameter: it has one from before, and the request leaves it out. -/
def keeps (context : Context) (descriptor : Module) (values : Entries) (name : String) : Bool :=
  (values.field? name).isNone && !Module.isUnset (context.supplied descriptor.id) name

/-! ## Modules entered in turn -/

/-- Modules are entered in turn, each with its values. -/
def enterAll (context : Context) (calls : List (Module × Entries)) : Context :=
  calls.foldl (fun context call => context.enter call.1 call.2) context

/-- The value of a name when an id was last entered with one. -/
def suppliedLast? (calls : List (Module × Entries)) (id name : String) : Option Value :=
  ((calls.filter fun call => call.1.id == id).filterMap fun call => call.2.field? name).getLast?

/-- An id that is entered again and again has its values laid over one another. -/
theorem supplied_enterAll (context : Context) (calls : List (Module × Entries)) (id : String) :
    (context.enterAll calls).supplied id
      = ((calls.filter fun call => call.1.id == id).map (·.2)).foldl Entries.overlay
        (context.supplied id) := by
  induction calls generalizing context with
  | nil => rfl
  | cons call rest inductionHypothesis =>
      rw [enterAll, List.foldl_cons, ← enterAll, inductionHypothesis]
      by_cases same : call.1.id = id
      · subst same
        rw [List.filter_cons_of_pos (by simp), List.map_cons, List.foldl_cons, supplied_enter]
      · rw [List.filter_cons_of_neg (by simpa using same), supplied_enter_of_ne (Ne.symm same)]

/-- Of modules that are entered in turn, the current one has under each name the last value that its id was
entered with, if that is not null, and else its last default; entering other ids in between makes no
difference. -/
theorem moduleParameters_enterAll {calls : List (Module × Entries)} (fresh : context.parameters = [])
    (named : ∀ call ∈ calls, call.2.Named) (current : (context.enterAll calls).current = some descriptor) :
    (∀ name, (context.enterAll calls).moduleParameters.field? name
        = ((suppliedLast? calls descriptor.id name).filter fun value => !value.isNull).or
          (descriptor.default? name))
      ∧ (context.enterAll calls).moduleParameters.Named
      ∧ ∀ others : List (Module × Entries),
        others.filter (fun call => call.1.id == descriptor.id)
            = calls.filter (fun call => call.1.id == descriptor.id) →
          (context.enterAll others).valuesFor descriptor = (context.enterAll calls).moduleParameters := by
  have empty : context.supplied descriptor.id = [] := by rw [supplied, fresh]; rfl
  have layers : ∀ layer ∈ (calls.filter fun call => call.1.id == descriptor.id).map (·.2),
      layer.Named := by
    intro layer member
    obtain ⟨call, among, rfl⟩ := List.mem_map.mp member
    exact named call (List.mem_filter.mp among).1
  have known : ((context.enterAll calls).supplied descriptor.id).Named := by
    rw [supplied_enterAll, empty]
    exact Entries.named_nil.foldl_overlay layers
  have values : (context.enterAll calls).moduleParameters
      = (context.enterAll calls).valuesFor descriptor := by
    rw [moduleParameters, current]
  refine ⟨fun name => ?_, ?_, fun others same => ?_⟩
  · rw [values, field?_valuesFor known, supplied_enterAll, Entries.field?_foldl_overlay layers, empty,
      List.filterMap_map, suppliedLast?]
    simp [Entries.field?, Function.comp_def]
  · rw [values]
    exact descriptor.named_defaults.overlay (known.filter _).texts
  · rw [values, valuesFor, valuesFor, supplied_enterAll, supplied_enterAll, same]

/-- A module that declares its size twice. -/
def poolModule : Module :=
  ⟨"db", "Database", "", .database, "1.0.0", [], [], [],
    [⟨"size", "", .int 5, false⟩, ⟨"size", "", .int 7, false⟩, ⟨"url", "", .scalar .null, true⟩], [], none⟩

/-- A context in which no module has values. -/
def freshContext : Context :=
  ⟨⟨"demo", Path.ofText ".", "", "", "", "0.1.0", "MIT"⟩, [], none, none, [], none, .none⟩

/-- A pool that is entered with a size, and later with a null one. -/
def poolCalls : List (Module × Entries) :=
  [(poolModule, [(.text "size", .int 9)]), (⟨"ui", "", "", .ui, "1.0.0", [], [], [], [], [], none⟩,
    [(.text "size", .int 1)]), (poolModule, [(.text "size", .scalar .null), (.text "url", .text "pg")])]

/-- The null size brings the last default back, and the values of another module do not matter. -/
theorem pool_values : (freshContext.enterAll poolCalls).moduleParameters.field? "size" = some (.int 7)
    ∧ (freshContext.enterAll poolCalls).moduleParameters.field? "url" = some (.text "pg")
    ∧ (freshContext.enterAll poolCalls).moduleParameters.field? "host" = none := by
  have named : ∀ call ∈ poolCalls, call.2.Named := by
    intro call member
    rw [poolCalls] at member
    simp only [List.mem_cons, List.not_mem_nil, or_false] at member
    rcases member with rfl | rfl | rfl <;> exact ⟨by simp, by simp⟩
  have current : (freshContext.enterAll poolCalls).current = some poolModule := rfl
  have decided := (moduleParameters_enterAll rfl named current).1
  exact ⟨decided "size", decided "url", decided "host"⟩

end Context

end Scaffold
