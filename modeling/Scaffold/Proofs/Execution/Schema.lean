import Scaffold.Proofs.Execution.Failure
import Scaffold.Proofs.Execution.SchemaText
import Scaffold.Proofs.Merge.Revision
import Scaffold.Proofs.Tree.Retaining

/-!
# Actions that extend a schema

Such an action renders imports and table definitions and writes the schema that has them in the place of the
one it read.  Only the content of one file changes, so a second attempt finds the same target and renders the
same texts: what it does depends on the text that is read back (`attempt_extendSchema_again`).  The schema
keeps its lines, and a definition becomes a block of it if nothing of the schema reads like it
(`attempt_extends`).
-/

namespace Scaffold

/-- What an action that extends a schema is rendered to. -/
structure SchemaAddition where
  target : Target
  imports : List String
  definitions : List String

namespace SchemaAddition

/-- The lines that the schema is to have. -/
def lines (addition : SchemaAddition) : List (List Char) :=
  addition.imports.map fun line => Text.trim line.toList

/-- A schema with the imports and with the first definitions. -/
def extendedBy (addition : SchemaAddition) (text : String) (definitions : List String) : List Char :=
  SchemaText.extend text.toList addition.lines (definitions.map fun definition => Block.core definition.toList)

/-- A schema with the imports and all definitions. -/
def extended (addition : SchemaAddition) (text : String) : String :=
  String.ofList (addition.extendedBy text addition.definitions)

/-- The addition is what an action is rendered to. -/
structure IsRendered (tree : Tree) (context : Context) (path : String) (tables : List SchemaTable)
    (imports : List String) (addition : SchemaAddition) : Prop where
  target : Target.ofTemplate tree context .extendSchema path = .ok addition.target
  imports : Plan.renderedAll context addition.target.label .extendSchema imports = .ok addition.imports
  definitions : Plan.renderedAll context addition.target.label .extendSchema
    (tables.map (·.definition)) = .ok addition.definitions

/-- Everything that is added is found again in the file: the imports are single lines, and the definitions have
no carriage returns. -/
structure IsStable (addition : SchemaAddition) : Prop where
  unbroken : ∀ line ∈ addition.lines, ∀ c ∈ line, Text.isLineEnd c = false
  plain : ∀ definition ∈ addition.definitions, '\r' ∉ Text.trim (Block.core definition.toList)

variable {addition : SchemaAddition} {tree after : Tree} {context : Context} {path text : String}
  {tables : List SchemaTable} {imports : List String}

/-- Texts are rendered to one addition. -/
theorem IsRendered.unique {other : SchemaAddition} (first : addition.IsRendered tree context path tables imports)
    (second : other.IsRendered tree context path tables imports) : addition = other := by
  have target := Except.ok.inj (first.target.symm.trans second.target)
  have lines := first.imports
  have definitions := first.definitions
  rw [target] at lines definitions
  replace lines := Except.ok.inj (lines.symm.trans second.imports)
  replace definitions := Except.ok.inj (definitions.symm.trans second.definitions)
  cases addition
  cases other
  simp_all

/-- A target is the same when nothing but the content of files was changed. -/
theorem IsRendered.congr (same : tree.SameShape after)
    (rendered : addition.IsRendered tree context path tables imports) :
    addition.IsRendered after context path tables imports := by
  refine ⟨?_, rendered.imports, rendered.definitions⟩
  rw [← rendered.target]
  simp only [Target.ofTemplate, Target.inside, same.resolve_eq]

/-- A schema that was extended and read back is extended no further exactly if everything is found again. -/
theorem extended_unified_iff (addition : SchemaAddition) (text : String) :
    addition.extended (Text.unified (addition.extended text)) = Text.unified (addition.extended text)
      ↔ addition.IsStable := by
  have trimmed : ∀ line ∈ addition.lines, Text.trim line = line := by
    intro line member
    obtain ⟨written, _, rfl⟩ := List.mem_map.mp member
    exact Text.trim_trim written.toList
  simp only [extended, extendedBy, Text.unified, String.toList_ofList, String.ofList_inj]
  rw [SchemaText.extend_again_iff trimmed, List.forall_mem_map]
  exact ⟨fun both => ⟨both.1, both.2⟩, fun stable => ⟨stable.unbroken, stable.plain⟩⟩

end SchemaAddition

/-! ## The file -/

namespace Tree

variable {tree : Tree} {path : Path} {text : String}

/-- A file has a text if there is a file and its text can be read. -/
theorem existingText_eq_some_iff : tree.existingText path = .ok (some text)
    ↔ tree.isFile path = .ok true ∧ tree.readText path = .ok text := by
  constructor
  · intro found
    obtain ⟨present, isFile, found⟩ := exists_of_bind_eq_ok found
    cases present with
    | false => cases found
    | true =>
        obtain ⟨read, readable, found⟩ := exists_of_bind_eq_ok found
        obtain rfl := Option.some.inj (Except.ok.inj found)
        exact ⟨eq_ok_of_mapError_eq_ok isFile, eq_ok_of_mapError_eq_ok readable⟩
  · rintro ⟨isFile, readable⟩
    simp only [existingText, isFile, readable, Except.mapError, bind, Except.bind]
    rfl

/-- The text of a file is replaced by another: nothing happens if they are equal, and else nothing but the
content of files changes, so that the new text is read back with unified line ends. -/
theorem WellFormed.exists_merge_replace (wellFormed : tree.WellFormed)
    (read : tree.existingText path = .ok (some text)) (content : String) :
    ∃ after : Tree, tree.merge .replace path content = (.ok (text != content), after)
      ∧ (text = content → after = tree) ∧ after.WellFormed ∧ tree.SameShape after
      ∧ after.existingText path = .ok (some (Text.unified content)) := by
  have settles : tree.merge .replace path content = tree.settle path (some text) (some content) := by
    rw [merge, revise, read]
    rfl
  by_cases equal : text = content
  · subst equal
    have unified := Text.unified_of_notMem (notMem_of_existingText read)
    refine ⟨tree, ?_, fun _ => rfl, wellFormed, ⟨rfl, fun _ => .inl rfl⟩, by rw [unified, read]⟩
    simp [settles, settle]
  · obtain ⟨location, old, located, file⟩ := exists_file_of_existingText read
    obtain ⟨found, stands, formed⟩ := wellFormed.put_located (.file content.toUTF8) located
      (.inr ⟨old, file⟩) fun _ => Node.noConfusion
    have saved := wellFormed.writeBelow_of_file located file content
    refine ⟨tree.put location (.file content.toUTF8), ?_, fun same => absurd same equal, formed,
      sameShape_put file _, ?_⟩
    · simp [settles, settle, equal, saved]
    · exact existingText_of_bytes (bytes?_eq_some_iff.mpr (look_eq_ok_iff.mpr ⟨location, found, stands⟩))

end Tree

/-! ## The action -/

variable {tree : Tree} {context : Context} {path text : String} {tables : List SchemaTable}
  {imports : List String} {plan : Plan} {addition : SchemaAddition}

/-- The plan of the action replaces the schema that is read by an extended one. -/
theorem Plan.exists_of_extendSchema
    (found : Plan.extendSchema tree context path tables imports = .ok plan) :
    ∃ addition text, SchemaAddition.IsRendered tree context path tables imports addition
      ∧ tree.existingText addition.target.path = .ok (some text) := by
  obtain ⟨target, ofPath, found⟩ := exists_of_bind_eq_ok found
  obtain ⟨present, isFile, found⟩ := exists_of_bind_eq_ok found
  cases present with
  | false => cases found
  | true =>
      obtain ⟨text, readable, found⟩ := exists_of_bind_eq_ok found
      obtain ⟨lines, ofImports, found⟩ := exists_of_bind_eq_ok found
      obtain ⟨definitions, ofTables, found⟩ := exists_of_bind_eq_ok found
      exact ⟨⟨target, lines, definitions⟩, text, ⟨ofPath, ofImports, ofTables⟩,
        Tree.existingText_eq_some_iff.mpr
          ⟨eq_ok_of_mapError_eq_ok isFile, eq_ok_of_mapError_eq_ok readable⟩⟩

/-- The action is planned once everything is rendered and the schema is read. -/
theorem SchemaAddition.IsRendered.extendSchema_eq
    (rendered : addition.IsRendered tree context path tables imports)
    (read : tree.existingText addition.target.path = .ok (some text)) :
    Plan.extendSchema tree context path tables imports
      = .ok (.single addition.target (.merge .replace (addition.extended text))) := by
  obtain ⟨isFile, readable⟩ := Tree.existingText_eq_some_iff.mp read
  simp only [Plan.extendSchema, rendered.target, rendered.imports, rendered.definitions, isFile, readable,
    Except.mapError, bind, Except.bind, if_true, SchemaAddition.extended, SchemaAddition.extendedBy,
    SchemaAddition.lines]
  rfl

namespace Execution

variable {options : RunOptions} {workspace done : Workspace} {effect : Effect}

/-- The action replaces the schema by an extended one, and reports whether they differ. -/
theorem exists_attempt_extendSchema (wellFormed : workspace.tree.WellFormed)
    (rendered : addition.IsRendered workspace.tree context path tables imports)
    (read : workspace.tree.existingText addition.target.path = .ok (some text)) (options : RunOptions) :
    ∃ after : Tree, attempt options context workspace (.extendSchema path tables imports)
        = (if text = addition.extended text then .unchanged [addition.target.label]
            else .applied [addition.target.label], { workspace with tree := after })
      ∧ (text = addition.extended text → after = workspace.tree) ∧ after.WellFormed
      ∧ workspace.tree.SameShape after
      ∧ after.existingText addition.target.path = .ok (some (Text.unified (addition.extended text))) := by
  obtain ⟨after, merged, kept, formed, same, readBack⟩ :=
    wellFormed.exists_merge_replace read (addition.extended text)
  refine ⟨after, ?_, kept, formed, same, readBack⟩
  have planned : Plan.ofOperation workspace.tree context options.skipInstall (.extendSchema path tables imports)
      = .ok (some (.single addition.target (.merge .replace (addition.extended text)))) := by
    rw [Plan.ofOperation, rendered.extendSchema_eq read]
    rfl
  have made : (Change.merge .replace (addition.extended text)).makeAt workspace.tree addition.target.path
      = (.ok (text != addition.extended text), after) := merged
  rw [attempt_of_ofOperation planned, carryOut_single made]
  by_cases equal : text = addition.extended text
  · rw [if_pos equal, bne_eq_false_iff_eq.mpr equal]
    rfl
  · rw [if_neg equal, bne_iff_ne.mpr equal]
    rfl

/-- An action that succeeded was rendered, and a schema was read. -/
theorem exists_of_attempt_extendSchema
    (attempted : attempt options context workspace (.extendSchema path tables imports) = (effect, done))
    (success : effect.isSuccess = true) :
    ∃ addition text, SchemaAddition.IsRendered workspace.tree context path tables imports addition
      ∧ workspace.tree.existingText addition.target.path = .ok (some text) := by
  cases found : Plan.extendSchema workspace.tree context path tables imports with
  | ok plan => exact Plan.exists_of_extendSchema found
  | error fault =>
      have planned : workspace.plan context options.skipInstall (.extendSchema path tables imports)
          = ((Plan.extendSchema workspace.tree context path tables imports).map some, workspace) := rfl
      rw [attempt, planned, found] at attempted
      obtain rfl := (Prod.mk.inj attempted).1
      cases success

/-- What a second attempt does if the first one was rendered and read a schema. -/
theorem attempt_of_attempt (wellFormed : workspace.tree.WellFormed)
    (rendered : addition.IsRendered workspace.tree context path tables imports)
    (read : workspace.tree.existingText addition.target.path = .ok (some text))
    (attempted : attempt options context workspace (.extendSchema path tables imports) = (effect, done)) :
    (attempt options context done (.extendSchema path tables imports)
        = (.unchanged [addition.target.label], done) ↔ addition.IsStable)
      ∧ (¬addition.IsStable → ∃ after, attempt options context done (.extendSchema path tables imports)
        = (.applied [addition.target.label], after)) := by
  obtain ⟨between, first, _, formed, same, readBack⟩ :=
    exists_attempt_extendSchema wellFormed rendered read options
  obtain rfl : { workspace with tree := between } = done := (Prod.mk.inj (first.symm.trans attempted)).2
  have stillFormed : ({ workspace with tree := between } : Workspace).tree.WellFormed := formed
  obtain ⟨last, second, kept, _⟩ :=
    exists_attempt_extendSchema stillFormed (rendered.congr same) readBack options
  rw [second]
  have settled := eq_comm.trans (addition.extended_unified_iff text)
  by_cases stable : addition.IsStable
  · have equal := settled.mpr stable
    rw [if_pos equal, kept equal]
    exact ⟨iff_of_true rfl stable, fun unstable => absurd stable unstable⟩
  · rw [if_neg (settled.not.mpr stable)]
    exact ⟨iff_of_false (fun other => Effect.noConfusion (Prod.mk.inj other).1) stable, fun _ => ⟨_, rfl⟩⟩

/-! ## A project with a schema -/

/-- A project with a schema and nothing else. -/
def projectOf (text : String) : Workspace :=
  { offline with
    tree := ⟨[(["proj"], .folder), (["proj", "schema.ts"], .file text.toUTF8)], []⟩ }

/-- The schema of the project. -/
def schemaTarget : Target := ⟨"schema.ts", Tree.pathOf ["proj", "schema.ts"]⟩

theorem wellFormed_projectOf (text : String) : (projectOf text).tree.WellFormed :=
  Tree.wellFormed_of_nodes rfl (by simp [projectOf, Tree.node?])

/-- The schema is read as it was written if it has no carriage returns. -/
theorem existingText_projectOf (plain : '\r' ∉ text.toList) :
    (projectOf text).tree.existingText schemaTarget.path = .ok (some text) := by
  have located : (projectOf text).tree.locate true schemaTarget.path = .ok ["proj", "schema.ts"] :=
    Tree.locate_eq_ok_iff.mpr ⟨by decide, by decide,
      .down rfl (by decide) (by decide) rfl (fun _ => Node.noConfusion)
        (.down rfl (by decide) (by decide) rfl (fun _ => Node.noConfusion) .arrive)⟩
  exact Tree.existingText_of_file located rfl plain

/-- The schema is the target of its name. -/
theorem ofTemplate_projectOf (text : String) :
    Target.ofTemplate (projectOf text).tree demoContext .extendSchema "schema.ts" = .ok schemaTarget := by
  have unlinked : ∀ location target, (projectOf text).tree.node? location ≠ some (.link target) := by
    intro location target found
    have nonempty : location ≠ [] := by
      rintro rfl
      cases found
    have member := Tree.mem_nodes nonempty found
    simp [projectOf] at member
  have followable := Tree.isFollowable_of_unlinked (Tree.isResolved_root (projectOf text).tree) unlinked
  have resolved (location : Location) (straight : ".." ∉ location)
      (proper : (location.any fun part => part.toList.contains '\x00') = false) :
      (projectOf text).tree.resolve (Tree.pathOf location) = .ok location :=
    followable.resolve_pathOf ⟨straight, fun above _ target => unlinked above target⟩ proper
  have found := resolved ["proj", "schema.ts"] (by decide) (by decide)
  have home : (projectOf text).tree.resolve demoContext.project.root = .ok ["proj"] :=
    resolved ["proj"] (by decide) (by decide)
  rw [Target.ofTemplate_unbraced (by decide) (by cbv) rfl]
  exact Target.inside_child home (by cbv) found

/-- An action that extends a schema and succeeds.  Attempted again, it changes nothing exactly if the imports
that it renders are single lines and the definitions have no carriage returns; if not, it changes the schema
again. -/
theorem attempt_extendSchema_again (wellFormed : workspace.tree.WellFormed)
    (attempted : attempt options context workspace (.extendSchema path tables imports) = (effect, done))
    (success : effect.isSuccess = true) :
    ∃ addition, SchemaAddition.IsRendered workspace.tree context path tables imports addition
      ∧ (attempt options context done (.extendSchema path tables imports)
          = (.unchanged [addition.target.label], done) ↔ addition.IsStable)
      ∧ (¬addition.IsStable → ∃ after, attempt options context done (.extendSchema path tables imports)
          = (.applied [addition.target.label], after)) := by
  obtain ⟨addition, text, rendered, read⟩ := exists_of_attempt_extendSchema attempted success
  exact ⟨addition, rendered, attempt_of_attempt wellFormed rendered read attempted⟩

/-- An import and a table that are found again. -/
def usersAddition : SchemaAddition := ⟨schemaTarget, [" import b from 'b';"], ["const users = 1;\n"]⟩

/-- What adds them to any schema. -/
theorem isRendered_usersAddition (text : String) : usersAddition.IsRendered (projectOf text).tree demoContext
    "schema.ts" [⟨"users", "const users = 1;\n"⟩] [" import b from 'b';"] :=
  ⟨ofTemplate_projectOf text, by cbv, by cbv⟩

/-- An action that extends a schema succeeds, whether it changes it or not. -/
theorem isSuccess_of_ite (extended : Prop) [Decidable extended] (labels : List String) :
    (if extended then Effect.unchanged labels else .applied labels).isSuccess = true := by
  split <;> rfl

/-- A schema that is extended by them once. -/
theorem attempt_extendSchema_again_users :
    (projectOf "import a from 'a';\n").tree.WellFormed
      ∧ ∃ effect done, attempt ⟨false, false⟩ demoContext (projectOf "import a from 'a';\n")
          (.extendSchema "schema.ts" [⟨"users", "const users = 1;\n"⟩] [" import b from 'b';"])
            = (effect, done)
        ∧ effect.isSuccess = true
        ∧ attempt ⟨false, false⟩ demoContext done
          (.extendSchema "schema.ts" [⟨"users", "const users = 1;\n"⟩] [" import b from 'b';"])
            = (.unchanged ["schema.ts"], done) := by
  have wellFormed := wellFormed_projectOf "import a from 'a';\n"
  have rendered := isRendered_usersAddition "import a from 'a';\n"
  obtain ⟨after, attempted, _⟩ := exists_attempt_extendSchema wellFormed rendered
    (existingText_projectOf (by decide)) ⟨false, false⟩
  have success := isSuccess_of_ite ("import a from 'a';\n" = usersAddition.extended "import a from 'a';\n")
    ["schema.ts"]
  obtain ⟨addition, isRendered, stable, _⟩ := attempt_extendSchema_again wellFormed attempted success
  obtain rfl := isRendered.unique rendered
  have shown : Text.trim " import b from 'b';".toList = "import b from 'b';".toList := by decide
  refine ⟨wellFormed, _, _, attempted, success, stable.mpr ⟨?_, ?_⟩⟩
  · rw [SchemaAddition.lines, usersAddition, List.map_singleton, shown]
    simp [Text.isLineEnd]
  · rw [usersAddition, List.forall_mem_singleton]
    decide

/-- An import of several lines, and a table. -/
def brokenAddition : SchemaAddition :=
  ⟨schemaTarget, ["import \x7b\n  a,\n\x7d from 'a';"], ["const t = 1;"]⟩

/-- The import is added by the first attempt and again by the second. -/
theorem attempt_extendSchema_repeats :
    ∃ effect done after, attempt ⟨false, false⟩ demoContext (projectOf "")
          (.extendSchema "schema.ts" [⟨"t", "const t = 1;"⟩] ["import \x7b\n  a,\n\x7d from 'a';"])
            = (effect, done)
        ∧ effect.isSuccess = true
        ∧ attempt ⟨false, false⟩ demoContext done
          (.extendSchema "schema.ts" [⟨"t", "const t = 1;"⟩] ["import \x7b\n  a,\n\x7d from 'a';"])
            = (.applied ["schema.ts"], after) := by
  have wellFormed := wellFormed_projectOf ""
  have rendered : brokenAddition.IsRendered (projectOf "").tree demoContext "schema.ts"
      [⟨"t", "const t = 1;"⟩] ["import \x7b\n  a,\n\x7d from 'a';"] :=
    ⟨ofTemplate_projectOf "", by cbv, by cbv⟩
  have read := @existingText_projectOf "" (by decide)
  obtain ⟨done, attempted, _⟩ := exists_attempt_extendSchema wellFormed rendered read ⟨false, false⟩
  have unstable : ¬brokenAddition.IsStable := fun stable =>
    absurd (stable.unbroken _ (List.mem_singleton.mpr rfl) '\n' (by decide)) (by decide)
  obtain ⟨after, again⟩ := (attempt_of_attempt wellFormed rendered read attempted).2 unstable
  exact ⟨_, _, after, attempted, isSuccess_of_ite _ _, again⟩

/-- An action that extends a schema and succeeds.  The schema keeps its lines in order.  When the turn of a
visible definition comes, it becomes a block of the schema if it has no carriage return and occurs nowhere in
the schema, and remains one if it is one; if it occurs anywhere, whatever it is a part of, nothing is added for
it.  A definition with a carriage return is never a block. -/
theorem attempt_extendSchema_contains (wellFormed : workspace.tree.WellFormed)
    (attempted : attempt options context workspace (.extendSchema path tables imports) = (effect, done))
    (success : effect.isSuccess = true) :
    ∃ addition text later, SchemaAddition.IsRendered workspace.tree context path tables imports addition
      ∧ workspace.tree.existingText addition.target.path = .ok (some text)
      ∧ done.tree.existingText addition.target.path = .ok (some later)
      ∧ (Text.lines text.toList).Sublist (Text.lines later.toList)
      ∧ ∀ before definition after, addition.definitions = before ++ definition :: after →
        Text.isAllBlank (Block.core definition.toList) = false →
        ('\r' ∈ Block.core definition.toList → Block.contains later.toList definition.toList = false)
          ∧ ('\r' ∉ Block.core definition.toList →
            Block.contains (addition.extendedBy text before) definition.toList = true
              ∨ ¬SchemaText.Has (addition.extendedBy text before) (Block.core definition.toList) →
            Block.contains later.toList definition.toList = true)
          ∧ (SchemaText.Has (addition.extendedBy text before) (Block.core definition.toList) →
            addition.extendedBy text (before ++ [definition]) = addition.extendedBy text before) := by
  obtain ⟨addition, text, rendered, read⟩ := exists_of_attempt_extendSchema attempted success
  obtain ⟨between, first, _, _, _, readBack⟩ :=
    exists_attempt_extendSchema wellFormed rendered read options
  obtain rfl : { workspace with tree := between } = done := (Prod.mk.inj (first.symm.trans attempted)).2
  refine ⟨addition, text, _, rendered, read, readBack, ?_, ?_⟩
  · rw [Text.unified, String.toList_ofList, Text.lines_unifyLineEnds, SchemaAddition.extended,
      String.toList_ofList]
    exact SchemaText.sublist_lines_extend _ _ _
  · intro before definition after split visible
    refine ⟨fun returns => ?_, fun plain expected => ?_, fun has => ?_⟩
    · have inside : '\r' ∈ definition.toList := by
        obtain ⟨lead, trail, whole, _⟩ :=
          Text.exists_eq_append_trimWhere_append (· == '\n') definition.toList
        rw [whole]
        exact List.mem_append_left _ (List.mem_append_right _ returns)
      exact Block.contains_of_mem inside (Text.notMem_unified _)
    · rw [Text.unified, String.toList_ofList, SchemaAddition.extended, String.toList_ofList,
        SchemaAddition.extendedBy, split, List.map_append, List.map_cons]
      exact SchemaText.contains_extend _ _ _ _ visible plain expected
    · rw [SchemaAddition.extendedBy, List.map_append, SchemaText.extend, List.foldl_append]
      exact SchemaText.withTable_of_has has

/-- A schema that the table is added to. -/
theorem attempt_extendSchema_contains_users :
    (projectOf "const orders = 1;").tree.WellFormed
      ∧ ∃ effect done later, attempt ⟨false, false⟩ demoContext (projectOf "const orders = 1;")
          (.extendSchema "schema.ts" [⟨"users", "const users = 1;\n"⟩] [" import b from 'b';"])
            = (effect, done)
        ∧ effect.isSuccess = true
        ∧ done.tree.existingText schemaTarget.path = .ok (some later)
        ∧ (Text.lines "const orders = 1;".toList).Sublist (Text.lines later.toList)
        ∧ Block.contains later.toList "const users = 1;\n".toList = true := by
  have wellFormed := wellFormed_projectOf "const orders = 1;"
  have rendered := isRendered_usersAddition "const orders = 1;"
  have read := @existingText_projectOf "const orders = 1;" (by decide)
  obtain ⟨after, attempted, _⟩ := exists_attempt_extendSchema wellFormed rendered read ⟨false, false⟩
  have success := isSuccess_of_ite ("const orders = 1;" = usersAddition.extended "const orders = 1;")
    ["schema.ts"]
  obtain ⟨addition, text, later, isRendered, readBefore, readAfter, sublist, blocks⟩ :=
    attempt_extendSchema_contains wellFormed attempted success
  obtain rfl := isRendered.unique rendered
  obtain rfl := Option.some.inj (Except.ok.inj (readBefore.symm.trans read))
  have new : ¬SchemaText.Has (usersAddition.extendedBy "const orders = 1;" [])
      (Block.core "const users = 1;\n".toList) := by
    rw [← SchemaText.has_iff]
    decide +kernel
  refine ⟨wellFormed, _, _, later, attempted, success, readAfter, sublist, ?_⟩
  exact (blocks [] _ [] rfl (by decide)).2.1 (by decide) (.inr new)

/-- A table whose definition another line of the schema starts with. -/
def archiveAddition : SchemaAddition := ⟨schemaTarget, [], ["const archive = 1"]⟩

/-- The table is passed over, though it is no block of the schema. -/
theorem attempt_extendSchema_passes_over :
    ∃ done, attempt ⟨false, false⟩ demoContext (projectOf "const archive = 10;\n")
          (.extendSchema "schema.ts" [⟨"archive", "const archive = 1"⟩] [])
            = (.unchanged ["schema.ts"], done)
        ∧ done.tree.existingText schemaTarget.path = .ok (some "const archive = 10;\n")
        ∧ Block.contains "const archive = 10;\n".toList "const archive = 1".toList = false := by
  have rendered : archiveAddition.IsRendered (projectOf "const archive = 10;\n").tree demoContext
      "schema.ts" [⟨"archive", "const archive = 1"⟩] [] :=
    ⟨ofTemplate_projectOf _, by cbv, by cbv⟩
  have read := @existingText_projectOf "const archive = 10;\n" (by decide)
  obtain ⟨after, attempted, kept, _⟩ :=
    exists_attempt_extendSchema (wellFormed_projectOf _) rendered read ⟨false, false⟩
  have same : "const archive = 10;\n" = archiveAddition.extended "const archive = 10;\n" := by
    decide
  rw [if_pos same, kept same] at attempted
  exact ⟨_, attempted, read, by decide⟩

end Execution

end Scaffold
