import Scaffold.Proofs.Project.Parameters
import Scaffold.Proofs.Text.Search

/-!
# Facts under references and under places

Inline templates ask a context for single facts by reference; template files are handed all facts at once, each
in its place.  A fact has the same value both ways if it is shared (`factAt?_place_iff`).  Three are not: files
see a module without a name under its id, they see the variables of the environment without the defaults, and
a dot that ends the name of a parameter counts only for them.
-/

namespace Scaffold

/-- A fact of a context that has both a reference and a place. -/
inductive Fact where
  | project (key : String)
  | moduleId
  | moduleName
  | moduleCategory
  | moduleVersion
  | parameter (name : String)
  | path (key : String)
  | env (name : String)
  | framework
  | item

namespace Fact

/-- The reference to a fact in inline templates. -/
def reference : Fact → String
  | .project key => "project." ++ key
  | .moduleId => "module.id"
  | .moduleName => "module.name"
  | .moduleCategory => "module.category"
  | .moduleVersion => "module.version"
  | .parameter name => Context.parameterStart ++ name
  | .path key => "paths." ++ key
  | .env name => "env." ++ name
  | .framework => "framework"
  | .item => "item"

/-- The names that lead to a fact in template files. -/
def place : Fact → List String
  | .project key => ["project", key]
  | .moduleId => ["module", "id"]
  | .moduleName => ["module", "name"]
  | .moduleCategory => ["module", "category"]
  | .moduleVersion => ["module", "version"]
  | .parameter name => "params" :: Text.splitOnChar '.' name
  | .path key => ["paths", key]
  | .env name => ["env", name]
  | .framework => ["framework"]
  | .item => ["item"]

/-- A fact has one value for inline templates and for files. -/
def IsShared (context : Context) (descriptor : Module) : Fact → Prop
  | .moduleName => descriptor.name ≠ "" ∨ descriptor.id = ""
  | .env name => (context.env.lookup name).isSome
  | .parameter name => ∀ key, '.' ∉ key.toList → name ≠ key ++ "."
  | _ => True

end Fact

/-- The facts about a module that files see. -/
def Module.shownFacts (descriptor : Module) : List (String × String) :=
  [("id", descriptor.id), ("name", descriptor.displayName), ("category", descriptor.category.name),
    ("version", descriptor.version)]

namespace Context

variable {context : Context} {descriptor : Module} {reference head key name rest : String} {value : Value}

/-- What stands at a place among the facts of a context. -/
def factAt? (context : Context) (place : List String) : Option Value :=
  dig context.attributes (.record context.facts) place

/-! ## References -/

/-- A reference is parted at its first dot. -/
theorem splitDot_append (whole : '.' ∉ head.toList) (rest : String) :
    splitDot (head ++ "." ++ rest) = (head, rest) := by
  have written : (head ++ "." ++ rest).toList = head.toList ++ '.' :: rest.toList := by simp
  rw [splitDot, written, Text.partitionAt, Text.takeWhile_of_notMem whole, Text.dropWhile_of_notMem whole]
  simp

/-- A reference without a dot is one name. -/
theorem splitDot_of_notMem (whole : '.' ∉ name.toList) : splitDot name = (name, "") := by
  have parted : Text.partitionAt '.' name.toList = (name.toList, []) := Text.partitionAt_joinWith whole []
  rw [splitDot, parted]
  simp

/-- Only references that begin with a module's can be to parameters. -/
theorem parameterName?_eq_none (parted : splitDot reference = (head, rest)) (other : head ≠ "module") :
    parameterName? reference = none := by
  rw [parameterName?, if_neg]
  intro starts
  rw [Text.startsWith, List.isPrefixOf_iff_prefix] at starts
  obtain ⟨tail, same⟩ := starts
  have start : reference = "module" ++ "." ++ ("parameters." ++ String.ofList tail) := by
    rw [← String.toList_inj, ← same]
    simp [parameterStart]
  rw [start, splitDot_append (by decide)] at parted
  exact other (Prod.mk.inj parted).1.symm

/-- What a reference to a path, a fact of the project or a variable of the environment stands for. -/
theorem lookup_of_splitDot (context : Context) (parted : splitDot reference = (head, key))
    (outer : head = "paths" ∨ head = "project" ∨ head = "env") :
    context.lookup reference = if key.isEmpty then none else
      (if head = "paths" then context.layout.bind fun layout => layout.get? key
        else if head = "project" then context.project.token key
        else context.envValue? key).map Value.text := by
  have noParameter : parameterName? reference = none :=
    parameterName?_eq_none parted (by rcases outer with rfl | rfl | rfl <;> decide)
  have noFramework : reference ≠ "framework" := by
    rintro rfl
    rw [splitDot_of_notMem (by decide)] at parted
    rcases outer with rfl | rfl | rfl <;> simp at parted
  rw [lookup, parted]
  by_cases empty : key = ""
  · rcases outer with rfl | rfl | rfl <;> simp [empty, noParameter, noFramework]
  · rcases outer with rfl | rfl | rfl <;> simp [empty, noParameter, noFramework]

/-- A reference to a parameter of the current module. -/
theorem lookup_parameterStart (context : Context) (name : String) :
    context.lookup (parameterStart ++ name) = context.parameter? name := by
  have parted : splitDot (parameterStart ++ name) = ("module", "parameters." ++ name) :=
    splitDot_append (by decide : '.' ∉ "module".toList) ("parameters." ++ name)
  have named : parameterName? (parameterStart ++ name) = some name := by
    rw [parameterName?, if_pos]
    · rw [String.toList_append, ← String.length_toList, List.drop_left, String.ofList_toList]
    · rw [Text.startsWith, List.isPrefixOf_iff_prefix, String.toList_append]
      exact List.prefix_append ..
  rw [lookup, parted]
  simp [named]

/-- A reference to a fact about the current module. -/
theorem lookup_module (context : Context) (plain : parameterName? reference = none)
    (parted : splitDot reference = ("module", name)) (nonempty : name.isEmpty = false) :
    context.lookup reference
      = (context.current.bind fun descriptor => moduleFact? descriptor name).map Value.text := by
  rw [lookup, parted]
  simp [plain, nonempty]

/-! ## Places -/

/-- Of the fields of a record the first one of a name is its part. -/
theorem dig_record (attributes : Attributes) (fields : List (String × Value)) (name : String)
    (rest : List String) : dig attributes (.record fields) (name :: rest)
      = (fields.lookup name).bind fun part => dig attributes part rest := by
  have first : Entries.field? (fields.map fun field => (.text field.1, field.2)) name = fields.lookup name := by
    rw [Entries.field?]
    induction fields with
    | nil => rfl
    | cons field others inductionHypothesis =>
        rw [List.map_cons, Entries.get?_cons, inductionHypothesis, List.lookup_cons]
        by_cases same : field.1 = name
        · simp [same]
        · simp [same, beq_false_of_ne (Ne.symm same)]
  rw [Value.record, dig, first]

/-- A text among texts is found under its name. -/
theorem dig_textEntries (attributes : Attributes) (pairs : List (String × String)) (name : String) :
    dig attributes (textEntries pairs) [name] = (pairs.lookup name).map Value.text := by
  rw [textEntries, dig_record]
  induction pairs with
  | nil => rfl
  | cons pair rest inductionHypothesis =>
      rw [List.map_cons, List.lookup_cons, List.lookup_cons]
      cases name == pair.1 with
      | true => rfl
      | false => exact inductionHypothesis

/-- A place begins with the name of a group of facts. -/
theorem factAt?_cons (context : Context) (first : String) (rest : List String) :
    context.factAt? (first :: rest)
      = (context.facts.lookup first).bind fun part => dig context.attributes part rest :=
  dig_record context.attributes context.facts first rest

/-- No value is its own part without a name. -/
theorem dig_unnamed_ne (attributes : Attributes) (value : Value) : dig attributes value [""] ≠ some value := by
  cases value with
  | list items => simp [dig, attributes.unnamed]
  | scalar content => simp [dig, attributes.unnamed]
  | mapping entries =>
      simp only [dig, Entries.field?, Entries.get?, Option.bind_fun_some]
      intro found
      obtain ⟨entry, first, same⟩ := Option.map_eq_some_iff.mp found
      have smaller := List.sizeOf_lt_of_mem (List.mem_of_find?_eq_some first)
      obtain ⟨key, inner⟩ := entry
      obtain rfl : inner = .mapping entries := same
      simp at smaller
      omega

/-- The tokens of a project name what files see of it. -/
theorem lookup_fields (metadata : ProjectMetadata) (key : String) :
    (metadata.fields ++ [("path", metadata.root.text)]).lookup key = metadata.token key := by
  by_cases known : key ∈ ["name", "root", "framework", "description", "author", "version", "license", "path"]
  · simp only [List.mem_cons, List.not_mem_nil, or_false] at known
    rcases known with rfl | rfl | rfl | rfl | rfl | rfl | rfl | rfl <;> rfl
  · simp only [List.mem_cons, List.not_mem_nil, or_false, not_or] at known
    simp [ProjectMetadata.fields, ProjectMetadata.token, List.lookup_cons, beq_false_of_ne, known]

/-- Facts of the project stand under its tokens. -/
theorem factAt?_project (context : Context) (key : String) :
    context.factAt? ["project", key] = (context.project.token key).map Value.text := by
  rw [factAt?_cons, ← lookup_fields, ← dig_textEntries context.attributes]
  rfl

/-- Facts of the current module stand under their names, and its name is the displayed one. -/
theorem factAt?_module (current : context.current = some descriptor) (name : String) :
    context.factAt? ["module", name]
      = (descriptor.shownFacts.lookup name).map Value.text := by
  have facts : context.facts.lookup "module" = some context.moduleFacts := rfl
  rw [factAt?_cons, facts, moduleFacts, current, ← dig_textEntries context.attributes]
  rfl

/-- Paths stand under the keys of the layout. -/
theorem factAt?_path (context : Context) (key : String) :
    context.factAt? ["paths", key]
      = (context.layout.bind fun layout => layout.get? key).map Value.text := by
  have facts : context.facts.lookup "paths"
      = some (textEntries ((context.layout.map ProjectLayout.paths).getD [])) := rfl
  rw [factAt?_cons, facts, Option.bind_some, dig_textEntries]
  cases context.layout <;> rfl

/-- Of the variables only those of the environment stand anywhere. -/
theorem factAt?_env (context : Context) (name : String) :
    context.factAt? ["env", name] = (context.env.lookup name).map Value.text := by
  rw [factAt?_cons, ← dig_textEntries context.attributes]
  rfl

/-- Values of parameters stand under their names, and parts of them under names behind these. -/
theorem factAt?_params (current : context.current = some descriptor) (key : String) (parts : List String) :
    context.factAt? ("params" :: key :: parts)
      = ((context.valuesFor descriptor).field? key).bind fun value => dig context.attributes value parts := by
  have facts : context.facts.lookup "params" = some (.mapping (context.valuesFor descriptor)) := by
    simp [facts, List.lookup_cons, moduleParameters, current]
  rw [factAt?_cons, facts]
  rfl

/-! ## Both ways -/

/-- A parameter that is found and not null is a part of a value of the module, or such a value. -/
theorem exists_valuesFor_of_parameter? (current : context.current = some descriptor)
    (parted : splitDot name = (key, rest)) (found : context.parameter? name = some value)
    (given : value.isNull = false) :
    ∃ whole, (context.valuesFor descriptor).field? key = some whole
      ∧ (if rest.isEmpty then some whole else dig context.attributes whole (Text.splitOnChar '.' rest))
        = some value := by
  rw [parameter?, current] at found
  simp only [parted] at found
  cases here : (context.valuesFor descriptor).field? key with
  | none =>
      rw [here] at found
      obtain ⟨-, rfl⟩ : _ ∧ Value.null = value := by simpa using found
      cases given
  | some whole =>
      rw [here] at found
      exact ⟨whole, rfl, found⟩

/-- A parameter under its reference is the one in its place, but for a dot that ends its name. -/
theorem factAt?_parameter_iff (current : context.current = some descriptor)
    (found : context.parameter? name = some value) (given : value.isNull = false) :
    context.factAt? (Fact.parameter name).place = some value
      ↔ ∀ key, '.' ∉ key.toList → name ≠ key ++ "." := by
  rw [Fact.place, Text.splitOnChar]
  by_cases dotted : '.' ∈ name.toList
  · obtain ⟨before, behind, written, plain⟩ := List.eq_append_cons_of_mem dotted
    obtain ⟨key, rfl⟩ : ∃ key : String, before = key.toList := ⟨.ofList before, by simp⟩
    obtain ⟨rest, rfl⟩ : ∃ rest : String, behind = rest.toList := ⟨.ofList behind, by simp⟩
    obtain rfl : key ++ "." ++ rest = name := by
      rw [← String.toList_inj, written]
      simp
    obtain ⟨whole, here, inner⟩ :=
      exists_valuesFor_of_parameter? current (splitDot_append plain rest) found given
    rw [written, Text.splitAtChar_append plain, List.map_cons, String.ofList_toList,
      factAt?_params current, ← Text.splitOnChar, here, Option.bind_some]
    by_cases last : rest = ""
    · -- In the place the dot is followed by a part without a name, which no value has.
      obtain rfl : whole = value := by simpa [last] using inner
      subst last
      exact iff_of_false (dig_unnamed_ne context.attributes whole) fun all => all key plain (String.append_empty ..)
    · refine iff_of_true (by simpa [last] using inner) fun other apart same => last ?_
      have equal : key.toList ++ '.' :: rest.toList = other.toList ++ '.' :: [] := by
        rw [← written, same]
        simp
      exact String.toList_eq_nil_iff.mp (Text.append_cons_inj plain apart equal).2
  · obtain ⟨whole, here, inner⟩ :=
      exists_valuesFor_of_parameter? current (splitDot_of_notMem dotted) found given
    have apart : ∀ key : String, '.' ∉ key.toList → name ≠ key ++ "." := by
      rintro key - rfl
      simp at dotted
    rw [Text.splitAtChar_of_notMem dotted, List.map_singleton, String.ofList_toList, factAt?_params current,
      here]
    exact iff_of_true inner apart

/-- A fact about the current module under its reference is the one in its place, where both ways read the same
field. -/
theorem factAt?_module_of_lookup (current : context.current = some descriptor)
    (plain : parameterName? reference = none) (parted : splitDot reference = ("module", name))
    (nonempty : name.isEmpty = false)
    (same : moduleFact? descriptor name = descriptor.shownFacts.lookup name)
    (found : context.lookup reference = some value) : context.factAt? ["module", name] = some value := by
  rw [lookup_module context plain parted nonempty, current, Option.bind_some, same] at found
  rw [factAt?_module current, found]

/-- With a current module, a fact that a reference finds stands in its place just if it is shared.  In the
place of the module's name is the displayed one, and of the variables only the environment's have places. -/
theorem factAt?_place_iff (current : context.current = some descriptor) :
    (∀ (fact : Fact) (value : Value), context.lookup fact.reference = some value → value.isNull = false →
      (context.factAt? fact.place = some value ↔ fact.IsShared context descriptor))
    ∧ context.factAt? Fact.moduleName.place = some (.text descriptor.displayName)
    ∧ ∀ name, context.factAt? (Fact.env name).place = (context.env.lookup name).map Value.text := by
  refine ⟨fun fact value found given => ?_, factAt?_module current "name", context.factAt?_env⟩
  cases fact with
  | project key =>
      have parted : splitDot ("project." ++ key) = ("project", key) :=
        splitDot_append (by decide : '.' ∉ "project".toList) key
      rw [Fact.reference, lookup_of_splitDot context parted (by simp)] at found
      split at found
      · cases found
      · simpa [Fact.place, factAt?_project, Fact.IsShared] using found
  | path key =>
      have parted : splitDot ("paths." ++ key) = ("paths", key) :=
        splitDot_append (by decide : '.' ∉ "paths".toList) key
      rw [Fact.reference, lookup_of_splitDot context parted (by simp)] at found
      split at found
      · cases found
      · simpa only [Fact.place, factAt?_path, Fact.IsShared, if_true, iff_true] using found
  | env name =>
      have parted : splitDot ("env." ++ name) = ("env", name) :=
        splitDot_append (by decide : '.' ∉ "env".toList) name
      rw [Fact.reference, lookup_of_splitDot context parted (by simp), envValue?] at found
      rw [Fact.place, factAt?_env, Fact.IsShared]
      split at found
      · cases found
      · cases own : context.env.lookup name with
        | none => simp
        | some content => simpa [own] using found
  | moduleId => exact iff_of_true (factAt?_module_of_lookup current rfl rfl rfl rfl found) trivial
  | moduleCategory => exact iff_of_true (factAt?_module_of_lookup current rfl rfl rfl rfl found) trivial
  | moduleVersion => exact iff_of_true (factAt?_module_of_lookup current rfl rfl rfl rfl found) trivial
  | moduleName =>
      rw [Fact.reference, lookup_module context rfl (by rfl) (by rfl), current] at found
      obtain rfl : Value.text descriptor.name = value := by simpa [moduleFact?] using found
      have place : context.factAt? Fact.moduleName.place = some (.text descriptor.displayName) :=
        factAt?_module current "name"
      rw [place, Fact.IsShared, Module.displayName]
      by_cases unnamed : descriptor.name = "" <;> simp [unnamed]
  | parameter name =>
      rw [Fact.reference, lookup_parameterStart] at found
      exact factAt?_parameter_iff current found given
  | framework =>
      have own : context.lookup "framework" = some (.text context.project.framework) := rfl
      rw [Fact.reference, own] at found
      simpa [Fact.place, factAt?_cons, facts, List.lookup_cons, Fact.IsShared, dig] using found
  | item =>
      have own : context.lookup "item" = context.item := by
        have plain : parameterName? "item" = none := rfl
        rw [lookup, splitDot_of_notMem (by decide)]
        simp [plain]
      rw [Fact.reference, own] at found
      simp [Fact.place, factAt?_cons, facts, List.lookup_cons, Fact.IsShared, dig, found]

/-- The size of the pool has the same value both ways. -/
theorem factAt?_place_pool :
    (freshContext.enterAll poolCalls).current = some poolModule
      ∧ (freshContext.enterAll poolCalls).lookup (Fact.parameter "size").reference = some (.int 7)
      ∧ (freshContext.enterAll poolCalls).factAt? (Fact.parameter "size").place = some (.int 7) := by
  have current : (freshContext.enterAll poolCalls).current = some poolModule := rfl
  have found : (freshContext.enterAll poolCalls).lookup (Fact.parameter "size").reference = some (.int 7) := rfl
  refine ⟨current, found, ((factAt?_place_iff current).1 (.parameter "size") (.int 7) found rfl).mpr ?_⟩
  rintro key - same
  have dotted : '.' ∈ "size".toList := by
    rw [same]
    simp
  exact absurd dotted (by decide)

/-- A module without a name, in an environment without variables. -/
def unnamedContext : Context := freshContext.enter { poolModule with name := "" } []

/-- Files see the id in the place of the missing name and no user, and no part without a name of the size. -/
theorem lookup_ne_factAt?_unnamed :
    (unnamedContext.lookup Fact.moduleName.reference = some (.text "")
        ∧ unnamedContext.factAt? Fact.moduleName.place = some (.text "db"))
      ∧ (unnamedContext.lookup (Fact.env "USER").reference = some (.text "user")
        ∧ unnamedContext.factAt? (Fact.env "USER").place = none)
      ∧ unnamedContext.lookup (Fact.parameter "size.").reference = some (.int 7)
        ∧ unnamedContext.factAt? (Fact.parameter "size.").place = none :=
  ⟨⟨rfl, rfl⟩, ⟨rfl, rfl⟩, rfl, rfl⟩

end Context

end Scaffold
