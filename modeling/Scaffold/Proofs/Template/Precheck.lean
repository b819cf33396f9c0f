import Scaffold.Proofs.Template.Composition
import Scaffold.Proofs.Template.Requirements

/-!
# Checking requirements before rendering

A reference between braces is read as a variable (`tokenize_tagOf`), so the tag of a parameter is refused if
the parameter is demanded and has no value (`isRefused_render_tagOf`).  The check before a module is entered
sees the values of the request only; it finds what would be refused, and what the context keeps from before
(`missingRequired_eq`).
-/

namespace Scaffold.Template

variable {context : Context} {destination : Destination} {descriptor : Module} {reference : List Char}
  {parameter : Parameter} {values : Entries} {name : String}

/-! ## Tags -/

/-- The tag of a reference. -/
def tagOf (reference : List Char) : List Char := tagStart ++ reference ++ tagEnd

/-- A reference is made of the characters of its segments and dots. -/
theorem isReferenceChar_of_mem (valid : isReference reference = true) {c : Char} (member : c ∈ reference) :
    c = '.' ∨ isReferenceChar c = true := by
  rw [← Text.joinWith_splitAtChar '.' reference] at member
  refine (Text.mem_joinWith member).imp List.mem_singleton.mp ?_
  rintro ⟨segment, among, within⟩
  have segments := List.all_eq_true.mp (Bool.and_eq_true_iff.mp valid).1 segment among
  exact List.all_eq_true.mp (Bool.and_eq_true_iff.mp segments).2 c within

/-- No character of a reference is blank. -/
theorem isBlank_of_mem (valid : isReference reference = true) {c : Char} (member : c ∈ reference) :
    Text.isBlank c = false := by
  rcases isReferenceChar_of_mem valid member with rfl | inside
  · decide
  · rcases Bool.or_eq_true_iff.mp inside with word | hyphen
    · exact Text.isBlank_of_isWord word
    · rw [beq_iff_eq.mp hyphen]
      decide

/-- A reference starts like a word, so it neither opens nor closes a block. -/
theorem not_blockWord (valid : isReference reference = true) :
    conditionOf? reference = none ∧ (reference == closingWord) = false := by
  have start := (Bool.and_eq_true_iff.mp valid).2
  cases reference with
  | nil => cases start
  | cons c rest =>
      have letter : isReferenceStart c = true := start
      have noHash : ('#' == c) = false := by
        rw [beq_eq_false_iff_ne]
        rintro rfl
        revert letter
        decide
      have noSlash : (c == '/') = false := by
        rw [beq_eq_false_iff_ne]
        rintro rfl
        revert letter
        decide
      constructor
      · simp [conditionOf?, openingWord, List.isPrefixOf, noHash]
      · rw [closingWord, List.cons_beq_cons, noSlash, Bool.false_and]

/-- A reference between braces is read as a variable. -/
theorem tokenize_tagOf (valid : isReference reference = true) :
    tokenize (tagOf reference) = [.variable reference (tagOf reference)] := by
  have unbraced : '\x7d' ∉ reference := by
    intro member
    rcases isReferenceChar_of_mem valid member with dot | inside
    · cases dot
    · revert inside
      decide
  have trimmed : Text.trim reference = reference :=
    Text.trimWhere_eq_self (fun c head => isBlank_of_mem valid (List.mem_of_mem_head? head))
      fun c last => isBlank_of_mem valid (List.mem_of_mem_getLast? last)
  have ends : Text.cutAt? tagEnd (reference ++ tagEnd ++ []) = some (reference, []) :=
    Text.cutAt?_of_notMem unbraced []
  rw [List.append_nil] at ends
  obtain ⟨noCondition, notClosing⟩ := not_blockWord valid
  rw [tagOf, List.append_assoc, tokenize_tag ends, tokenize_nil, tagToken, trimmed, noCondition]
  simp only [notClosing, valid, if_true, Bool.false_eq_true, if_false, List.append_assoc]

/-- The tag of a reference is rendered as a variable. -/
theorem render_tagOf (valid : isReference reference = true) :
    render context destination (tagOf reference)
      = renderLeaf context destination (.variable reference (tagOf reference)) := by
  rw [render_eq, parse, tokenize_tagOf valid, nodesOf_leaves (by simp [Token.isBlockTag])]
  rw [shownLeaves_leaves, List.map_singleton, renderLeaves_singleton]
  rfl

/-! ## Parameters -/

/-- A segment alone refers to a parameter. -/
theorem refersTo_of_isSegment (segment : IsSegment name.toList) :
    RefersTo name [] (parameterReference name []) :=
  ⟨List.forall_mem_singleton.mpr segment, rfl⟩

/-- The tag of a parameter is refused if the parameter is demanded and has no value. -/
theorem isRefused_render_tagOf (segment : IsSegment name.toList) (current : context.current = some descriptor) :
    isRefused (render context destination (tagOf (parameterReference name []))) = true
      ↔ descriptor.Demands name ∧ ¬context.HasValue descriptor name := by
  have refers := refersTo_of_isSegment segment
  rw [render_tagOf refers.isReference, refers.isRefused_variable_iff current, leadsNowhere_iff]
  simp

/-- Whether the tag of a parameter is refused once its module is entered with the values of a request. -/
def refusesTag (context : Context) (destination : Destination) (descriptor : Module) (values : Entries)
    (parameter : Parameter) : Bool :=
  isRefused (render (context.enter descriptor values) destination
    (tagOf (parameterReference parameter.name [])))

/-- The required parameters without a value in the request or a default, in the order of their declarations,
are those whose tag is refused once the module is entered, and those without a default of which the context
keeps a value from before. -/
theorem missingRequired_eq (names : (descriptor.parameters.map Parameter.name).Nodup)
    (segments : ∀ parameter ∈ descriptor.parameters, IsSegment parameter.name.toList)
    (given : values.Named) (known : (context.supplied descriptor.id).Named) :
    descriptor.missingRequired values
      = (descriptor.parameters.filter fun parameter => parameter.isRequired
          && (refusesTag context destination descriptor values parameter
            || (!parameter.hasDefault && context.keeps descriptor values parameter.name))).map Parameter.name := by
  rw [Module.missingRequired]
  refine congrArg (List.map Parameter.name) (List.filter_congr fun parameter declared => ?_)
  have current : (context.enter descriptor values).current = some descriptor := rfl
  have refused : refusesTag context destination descriptor values parameter = true
      ↔ (parameter.isRequired = true ∧ parameter.hasDefault = false)
        ∧ ¬(context.enter descriptor values).HasValue descriptor parameter.name := by
    rw [refusesTag, isRefused_render_tagOf (segments parameter declared) current,
      Module.demands_iff_of_mem names declared]
  rw [Bool.eq_iff_iff]
  simp only [Bool.and_eq_true, Bool.or_eq_true, Bool.not_eq_true', refused]
  by_cases bare : parameter.hasDefault = false
  · rw [Context.hasValue_enter_iff names declared bare given known, Module.isUnset_overlay given, Context.keeps]
    cases found : values.field? parameter.name with
    | none =>
        simp only [Module.isUnset_of_field?_eq_none found, Option.isNone_none, if_true, Bool.true_and]
        cases Module.isUnset (context.supplied descriptor.id) parameter.name <;> simp [bare]
    | some value =>
        simp only [Option.isNone_some, Bool.false_eq_true, if_false, Bool.false_and]
        cases Module.isUnset values parameter.name <;> simp [bare]
  · simp [bare]

/-- Without a value for its session the module is not entered, whatever it was given before. -/
theorem missingRequired_eq_session :
    ((authModule.parameters.map Parameter.name).Nodup
        ∧ (∀ parameter ∈ authModule.parameters, IsSegment parameter.name.toList)
        ∧ Entries.Named [(.text "session", .null)]
        ∧ ((authContext [(.text "secret", .text "x")]).supplied authModule.id).Named)
      ∧ authModule.missingRequired [(.text "session", .null)]
        = (authModule.parameters.filter fun parameter => parameter.isRequired
            && (refusesTag (authContext [(.text "secret", .text "x")]) nowhere authModule
                [(.text "session", .null)] parameter
              || (!parameter.hasDefault
                && (authContext [(.text "secret", .text "x")]).keeps authModule [(.text "session", .null)]
                  parameter.name))).map Parameter.name := by
  have names : (authModule.parameters.map Parameter.name).Nodup := by decide
  have segments : ∀ parameter ∈ authModule.parameters, IsSegment parameter.name.toList := by decide
  have given : Entries.Named [(.text "session", .null)] := Entries.named_nil.insert
  have known : ((authContext [(.text "secret", .text "x")]).supplied authModule.id).Named :=
    Entries.named_nil.insert
  exact ⟨⟨names, segments, given, known⟩, missingRequired_eq names segments given known⟩

/-- A secret from before is asked for again, though it would be filled in. -/
theorem missingRequired_asks_again :
    authModule.missingRequired [(.text "session", .text "s")]
      ≠ (authModule.parameters.filter fun parameter => parameter.isRequired
          && refusesTag (authContext [(.text "secret", .text "x")]) nowhere authModule
            [(.text "session", .text "s")] parameter).map Parameter.name := by
  intro same
  have asked : "secret" ∈ authModule.missingRequired [(.text "session", .text "s")] := by decide
  rw [same] at asked
  obtain ⟨parameter, listed, isSecret⟩ := List.mem_map.mp asked
  have refused := (List.mem_filter.mp listed).2
  rw [refusesTag, isSecret, Bool.and_eq_true, render_tagOf (by decide)] at refused
  exact absurd refused.2 (by decide)

end Scaffold.Template
