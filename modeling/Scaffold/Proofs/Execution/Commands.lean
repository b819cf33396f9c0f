import Scaffold.Execution.Plan
import Scaffold.Proofs.Command.Words
import Scaffold.Proofs.Template.Precheck

/-!
# Commands with a list

A command that refers to a list is filled in with the items and spaces between them, and the line is cut into
words afterwards (`rendered_commandTemplate`).  So an item is one word exactly if it is bare: it is not empty, has
no break in it and nothing that protects (`runCommand_words`).
-/

namespace Scaffold.Execution

open Text Template

variable {tree : Tree} {context : Context} {descriptor : Module} {front back items : List String}
  {name : String} {workingDir : Option String}

/-! ## Command lines -/

/-- The line of words, with a space between each two of them. -/
def commandLine (words : List String) : String := String.intercalate " " words

/-- A command that refers to a parameter between other words. -/
def commandTemplate (front : List String) (name : String) (back : List String) : String :=
  commandLine (front ++ String.ofList (tagOf (parameterReference name [])) :: back)

/-- The command with the items of a list in place of the reference. -/
def filledLine (front items back : List String) : String := commandLine (front ++ commandLine items :: back)

/-- A word that means itself in a command: it is bare and starts no tag. -/
def IsPlainWord (word : String) : Prop := Command.IsBare word.toList ∧ '\x7b' ∉ word.toList

instance (word : String) : Decidable (IsPlainWord word) :=
  inferInstanceAs (Decidable (Command.IsBare word.toList ∧ '\x7b' ∉ word.toList))

/-- The characters of a line. -/
theorem toList_commandLine (words : List String) :
    (commandLine words).toList = joinWith [' '] (words.map String.toList) := by
  rw [commandLine, String.toList_intercalate, joinWith_eq_intercalate]
  rfl

/-- What stands before a word in a line. -/
def ahead (front : List String) : List Char := (front.map String.toList).flatMap (· ++ [' '])

/-- What stands behind a word in a line. -/
def behind (back : List String) : List Char := (back.map String.toList).flatMap ([' '] ++ ·)

/-- A word in a line. -/
theorem toList_commandLine_cons (front : List String) (word : String) (back : List String) :
    (commandLine (front ++ word :: back)).toList = ahead front ++ (word.toList ++ behind back) := by
  rw [toList_commandLine, List.map_append, List.map_cons, joinWith_append_cons]
  rfl

/-- Plain words start no tag in their line. -/
theorem untagged (front back : List String) (plain : ∀ word ∈ front ++ back, IsPlainWord word) :
    '\x7b' ∉ ahead front ∧ '\x7b' ∉ behind back := by
  obtain ⟨first, last⟩ := List.forall_mem_append.mp plain
  constructor
  · simp only [ahead, List.mem_flatMap, List.mem_map, List.mem_append, List.mem_singleton]
    rintro ⟨_, ⟨word, among, rfl⟩, inside | blank⟩
    · exact (first word among).2 inside
    · cases blank
  · simp only [behind, List.mem_flatMap, List.mem_map, List.mem_append, List.mem_singleton]
    rintro ⟨_, ⟨word, among, rfl⟩, blank | inside⟩
    · cases blank
    · exact (last word among).2 inside

/-! ## Filling in -/

/-- The items of a list are filled in with spaces between them. -/
theorem formatValue_texts (items : List String) :
    formatValue ⟨"", some .runCommand⟩ (.texts items) = .ok (commandLine items) := by
  rw [Value.texts, formatValue, mapM_formatItem_text]
  rfl

/-- The tag of a parameter that stands for a list is rendered as the line of the items. -/
theorem render_tagOf_texts (segment : IsSegment name.toList) (current : context.current = some descriptor)
    (value : (context.valuesFor descriptor).field? name = some (.texts items)) :
    render context ⟨"", some .runCommand⟩ (tagOf (parameterReference name []))
      = .ok (commandLine items).toList := by
  have refers := refersTo_of_isSegment segment
  have found : context.lookup (String.ofList (parameterReference name [])) = some (.texts items) := by
    rw [refers.lookup current, value]
    rfl
  have shown : ((some (Value.texts items)).map Value.isNull).getD true = false := rfl
  rw [render_tagOf refers.isReference, renderLeaf, found]
  simp only [shown, formatValue_texts, Bool.false_eq_true, if_false]
  rfl

/-- A command is rendered with the items of the list in place of the reference. -/
theorem rendered_commandTemplate (plain : ∀ word ∈ front ++ back, IsPlainWord word)
    (segment : IsSegment name.toList) (current : context.current = some descriptor)
    (value : (context.valuesFor descriptor).field? name = some (.texts items)) :
    Target.rendered context "" (some .runCommand) (commandTemplate front name back)
      = .ok (filledLine front items back) := by
  obtain ⟨unbraced, unbraced'⟩ := untagged front back plain
  obtain ⟨sound, before⟩ := render_unbraced context unbraced
  obtain ⟨_, after⟩ := render_unbraced context unbraced'
  have tag := render_tagOf_texts segment current value
  have sound' : problems (tagOf (parameterReference name [])) = [] := by
    rw [problems, tokenize_tagOf (refersTo_of_isSegment segment).isReference]
    rfl
  have apart (text : List Char) : ¬((ahead front).getLast? = some '\x7b' ∧ text.head? = some '\x7b') :=
    fun both => unbraced (List.mem_of_getLast? both.1)
  have apart' (text : List Char) :
      ¬(text.getLast? = some '\x7b' ∧ (behind back).head? = some '\x7b') :=
    fun both => unbraced' (List.mem_of_mem_head? both.2)
  have whole : render context ⟨"", some .runCommand⟩ (commandTemplate front name back).toList
      = .ok (filledLine front items back).toList := by
    rw [commandTemplate, filledLine, toList_commandLine_cons, toList_commandLine_cons, String.toList_ofList,
      render_append sound (apart _), render_append sound' (apart' _), before, tag, after]
    rfl
  rw [Target.rendered, renderText, whole, Except.map, String.ofList_toList]
  rfl

/-! ## The words of a command -/

/-- The words that a line is cut into, which the plan of a command is made of. -/
theorem runCommand_of_rendered {command line : String}
    (rendered : Target.rendered context "" (some .runCommand) command = .ok line) :
    Plan.runCommand tree context command workingDir
      = match Command.split line with
        | .error fault => .error (.notWords line fault)
        | .ok [] => .error .emptyCommand
        | .ok words =>
          (Plan.workingFolder tree context workingDir).map fun folder => ⟨[], some (.run words folder)⟩ := by
  simp only [Plan.runCommand, rendered, bind, Except.bind]
  cases Command.split line with
  | error fault => rfl
  | ok words =>
      cases words with
      | nil => rfl
      | cons word words => cases Plan.workingFolder tree context workingDir <;> rfl

/-- The words of a line. -/
theorem split_eq_ok_iff {line : String} {words : List String} : Command.split line = .ok words
    ↔ Command.splitFrom .between [] line.toList = .ok (words.map String.toList) := by
  have back (read : List (List Char)) : (read.map String.ofList).map String.toList = read := by
    simp [Function.comp_def]
  rw [Command.split]
  cases Command.splitFrom .between [] line.toList with
  | error fault => exact iff_of_false (by rintro ⟨⟩) (by rintro ⟨⟩)
  | ok read =>
      constructor
      · rintro ⟨⟩
        rw [back]
      · intro same
        rw [Except.ok.inj same]
        simp [Except.map, Function.comp_def]

/-- The words of a line are the items between the other words exactly if every item is bare. -/
theorem split_filledLine_iff (plain : ∀ word ∈ front ++ back, IsPlainWord word) :
    Command.split (filledLine front items back) = .ok (front ++ items ++ back)
      ↔ ∀ item ∈ items, Command.IsBare item.toList := by
  rw [split_eq_ok_iff, filledLine, toList_commandLine]
  by_cases empty : items = []
  · subst empty
    -- The line of no items is an empty piece, which is no word.
    refine iff_of_true ?_ (by simp)
    have pieces : ∀ piece ∈ (front ++ commandLine [] :: back).map String.toList,
        piece = [] ∨ Command.IsBare piece := by
      simp only [List.forall_mem_map, List.forall_mem_append, List.forall_mem_cons] at plain ⊢
      exact ⟨fun word among => .inr (plain.1 word among).1, .inl rfl,
        fun word among => .inr (plain.2 word among).1⟩
    have shown : ∀ words : List String, (∀ word ∈ words, IsPlainWord word) →
        (words.map String.toList).filter (fun piece => !piece.isEmpty) = words.map String.toList := by
      intro words isPlain
      rw [List.filter_eq_self, List.forall_mem_map]
      exact fun word among => by simpa using (isPlain word among).1.1
    obtain ⟨first, last⟩ := List.forall_mem_append.mp plain
    rw [Command.splitFrom_joinWith pieces, List.map_append, List.map_cons, List.filter_append,
      List.filter_cons_of_neg (by simp [commandLine]), shown front first, shown back last]
    simp
  · have joined : joinWith [' '] ((front ++ commandLine items :: back).map String.toList)
        = joinWith [' '] ((front ++ items ++ back).map String.toList) := by
      rw [List.map_append, List.map_cons, toList_commandLine, joinWith_joined _ _ (by simpa using empty)]
      simp
    rw [joined, Command.splitFrom_joinWith_iff, List.forall_mem_map]
    simp only [List.forall_mem_append] at plain ⊢
    exact ⟨fun bare => bare.1.2, fun bare => ⟨⟨fun word among => (plain.1 word among).1, bare⟩,
      fun word among => (plain.2 word among).1⟩⟩

/-- The command of an action is filled in with the items of a list and cut into words, which are handed over unless
the line has none or cannot be cut.  They are the items between the other words exactly if every item is bare and
there is some word. -/
theorem runCommand_words (plain : ∀ word ∈ front ++ back, IsPlainWord word) (segment : IsSegment name.toList)
    (current : context.current = some descriptor)
    (value : (context.valuesFor descriptor).field? name = some (.texts items)) (skipInstall : Bool) :
    Plan.ofOperation tree context skipInstall (.runCommand (commandTemplate front name back) workingDir)
        = (match Command.split (filledLine front items back) with
          | .error fault => .error (.notWords (filledLine front items back) fault)
          | .ok [] => .error .emptyCommand
          | .ok words => (Plan.workingFolder tree context workingDir).map fun folder =>
              some ⟨[], some (.run words folder)⟩)
      ∧ ∀ folder, Plan.workingFolder tree context workingDir = .ok folder →
          (Plan.ofOperation tree context skipInstall (.runCommand (commandTemplate front name back) workingDir)
              = .ok (some ⟨[], some (.run (front ++ items ++ back) folder)⟩)
            ↔ (∀ item ∈ items, Command.IsBare item.toList) ∧ front ++ items ++ back ≠ []) := by
  rw [Plan.ofOperation, runCommand_of_rendered (rendered_commandTemplate plain segment current value),
    ← split_filledLine_iff plain]
  cases split : Command.split (filledLine front items back) with
  | error fault => exact ⟨rfl, fun folder _ => iff_of_false (by rintro ⟨⟩) (by rintro ⟨⟨⟩, _⟩)⟩
  | ok words =>
      cases words with
      | nil =>
          refine ⟨rfl, fun folder _ => iff_of_false (by rintro ⟨⟩) ?_⟩
          rintro ⟨same, nonempty⟩
          exact nonempty (Except.ok.inj same).symm
      | cons word words =>
          constructor
          · cases Plan.workingFolder tree context workingDir <;> rfl
          · intro folder works
            rw [works]
            constructor
            · intro same
              replace same := Plan.mk.inj (Option.some.inj (Except.ok.inj same))
              have words := (Job.run.inj (Option.some.inj same.2)).1
              exact ⟨congrArg Except.ok words, by rw [← words]; exact List.cons_ne_nil _ _⟩
            · rintro ⟨same, _⟩
              rw [← Except.ok.inj same]
              rfl

/-- A module whose commands name components. -/
def componentModule : Module :=
  ⟨"ui", "", "", .ui, "1.0.0", [], [], [], [⟨"components", "", .null, false⟩], [], none⟩

/-- The context of the module for these components. -/
def componentContext (components : List String) : Context :=
  ⟨⟨"demo", ⟨.relative, ["proj"]⟩, "", "", "", "0.1.0", "MIT"⟩,
    [("ui", [(.text "components", .texts components)])], some componentModule, none, [], none, .none⟩

/-- Components whose names are bare are handed over one by one. -/
theorem runCommand_words_components :
    (∀ word ∈ ["npx", "shadcn", "add"] ++ ["-y"], IsPlainWord word) ∧ IsSegment "components".toList
      ∧ (componentContext ["button", "card"]).current = some componentModule
      ∧ ((componentContext ["button", "card"]).valuesFor componentModule).field? "components"
          = some (.texts ["button", "card"])
      ∧ Plan.ofOperation ⟨[], []⟩ (componentContext ["button", "card"]) false
          (.runCommand "npx shadcn add \x7b\x7bmodule.parameters.components\x7d\x7d -y" none)
        = .ok (some ⟨[], some (.run ["npx", "shadcn", "add", "button", "card", "-y"] "proj")⟩) := by
  have plain : ∀ word ∈ ["npx", "shadcn", "add"] ++ ["-y"], IsPlainWord word := by decide
  have segment : IsSegment "components".toList := by decide
  have value : ((componentContext ["button", "card"]).valuesFor componentModule).field? "components"
      = some (.texts ["button", "card"]) := rfl
  exact ⟨plain, segment, rfl, value,
    ((runCommand_words plain segment rfl value false).2 "proj" rfl).mpr ⟨by decide, by decide⟩⟩

/-- A component whose name has a space in it is handed over as two words. -/
theorem runCommand_splits_item :
    Plan.ofOperation ⟨[], []⟩ (componentContext ["my button"]) false
        (.runCommand "npx add \x7b\x7bmodule.parameters.components\x7d\x7d" none)
      = .ok (some ⟨[], some (.run ["npx", "add", "my", "button"] "proj")⟩)
    ∧ Plan.ofOperation ⟨[], []⟩ (componentContext ["my button"]) false
        (.runCommand "npx add \x7b\x7bmodule.parameters.components\x7d\x7d" none)
      ≠ .ok (some ⟨[], some (.run (["npx", "add"] ++ ["my button"]) "proj")⟩) := by
  have value : ((componentContext ["my button"]).valuesFor componentModule).field? "components"
      = some (.texts ["my button"]) := rfl
  have rendered : Target.rendered (componentContext ["my button"]) "" (some .runCommand)
      (commandTemplate ["npx", "add"] "components" []) = .ok (filledLine ["npx", "add"] ["my button"] []) :=
    rendered_commandTemplate (by decide) (by decide) rfl value
  have cut : Command.split (filledLine ["npx", "add"] ["my button"] []) = .ok ["npx", "add", "my", "button"] := rfl
  have written : commandTemplate ["npx", "add"] "components" []
      = "npx add \x7b\x7bmodule.parameters.components\x7d\x7d" := by decide
  rw [← written, Plan.ofOperation, runCommand_of_rendered rendered, cut]
  refine ⟨rfl, fun same => ?_⟩
  replace same := Plan.mk.inj (Option.some.inj (Except.ok.inj same))
  exact absurd (Job.run.inj (Option.some.inj same.2)).1 (by decide)

end Scaffold.Execution
