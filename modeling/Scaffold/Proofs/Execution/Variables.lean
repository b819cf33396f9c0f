import Scaffold.Proofs.Execution.Failure
import Scaffold.Proofs.Execution.Containment
import Scaffold.Proofs.Merge.Declaring

/-!
# Actions that declare a variable

Such an action renders a name, a content and a comment, and merges the block of the three into its files of
variables.  Every one of them gains the block, whatever links lead there (`gains_of_attempt`).  The block
declares the variable and nothing else if the rendered texts are plain
(`EnvVariable.IsRendered.isSole_block`); if the content has a second line, that line may declare another one
(`attempt_declares_another`).
-/

namespace Scaffold

/-- What an action that declares a variable is rendered to. -/
structure EnvVariable where
  name : String
  content : String
  comment : String

namespace EnvVariable

/-- The text that is merged into the files. -/
def block (declared : EnvVariable) : String :=
  declared.comment ++ declared.name ++ "=" ++ declared.content ++ "\n"

/-- The line that is to declare the variable. -/
def line (declared : EnvVariable) : List Char :=
  EnvLines.lineOf declared.name.toList declared.content.toList

/-- The variable is what texts are rendered to. -/
structure IsRendered (context : Context) (key value : String) (description : Option String)
    (declared : EnvVariable) : Prop where
  name : ∃ text, Target.rendered context "" none key = .ok text ∧ declared.name = Text.trimmed text
  content : Target.rendered context "" none value = .ok declared.content
  comment : Plan.commentLine context description = .ok declared.comment
  nonempty : declared.name.isEmpty = false
  unsigned : declared.name.toList.contains '=' = false

/-- The name can be read back, the content ends on its line, and the comment is nothing but comment
lines. -/
structure IsPlain (declared : EnvVariable) : Prop where
  declarable : EnvLines.IsDeclarable declared.name.toList
  unbroken : ∀ c ∈ Text.trimRight declared.content.toList, Text.isLineEnd c = false
  remarks : EnvLines.entries declared.comment.toList = []

end EnvVariable

/-- Between two trees, the file at a path declares a variable besides what it declared: its keys are the keys
it had and the name.  If it had the name, nothing happened to it; if not, it has one more entry line. -/
def Tree.DeclaresOnly (before after : Tree) (path : Path) (declared : EnvVariable) : Prop :=
  ∃ existing later, before.existingText path = .ok existing ∧ after.existingText path = .ok later
    ∧ EnvLines.DeclaresOnly declared.name.toList declared.line (existing.getD "").toList (later.getD "").toList
    ∧ (declared.name.toList ∈ EnvLines.keys (existing.getD "").toList → after.look path = before.look path)

variable {tree before after : Tree} {context : Context} {key value : String}
  {description path : Option String} {plan : Plan} {root : Path} {target : Target} {declared : EnvVariable}
  {place : Path} {existing : Option String}

/-- A comment is on lines of its own. -/
theorem Plan.completed_commentLine {comment : String}
    (found : Plan.commentLine context description = .ok comment) :
    EnvLines.completed comment.toList = comment.toList := by
  unfold Plan.commentLine at found
  split at found
  next => rw [← Except.ok.inj found]; rfl
  next => rw [← Except.ok.inj found]; rfl
  next text _ =>
    obtain ⟨rendered, _, found⟩ := exists_of_bind_eq_ok found
    rw [← Except.ok.inj found]
    refine EnvLines.completed_of_getLast? ?_
    rw [String.toList_append]
    exact List.getLast?_concat

namespace EnvVariable

/-- Texts are rendered to one variable. -/
theorem IsRendered.unique {other : EnvVariable} (first : declared.IsRendered context key value description)
    (second : other.IsRendered context key value description) : declared = other := by
  obtain ⟨text, ofKey, name⟩ := first.name
  obtain ⟨same, again, otherName⟩ := second.name
  obtain rfl := Except.ok.inj (ofKey.symm.trans again)
  have content := Except.ok.inj (first.content.symm.trans second.content)
  have comment := Except.ok.inj (first.comment.symm.trans second.comment)
  cases declared
  cases other
  simp_all

/-- The block of a plain variable declares it and nothing else, whatever is known. -/
theorem IsRendered.isSole_block (rendered : declared.IsRendered context key value description)
    (plain : declared.IsPlain) (known : List (List Char)) :
    EnvLines.IsSole known declared.name.toList declared.line declared.block.toList := by
  have text : declared.block.toList
      = EnvLines.blockOf declared.comment.toList declared.name.toList declared.content.toList := by
    simp [block, EnvLines.blockOf]
  obtain ⟨written, _, trimmed⟩ := rendered.name
  rw [text]
  refine EnvLines.isSole_block plain.declarable ?_ ?_ ?_ plain.unbroken
    (Plan.completed_commentLine rendered.comment) plain.remarks
  · rw [trimmed, Text.trimmed, String.toList_ofList, Text.trim_trim]
  · simpa using rendered.nonempty
  · simpa using rendered.unsigned

end EnvVariable

namespace Tree

/-- A file that gains a block declares the variable and nothing else exactly if the block does. -/
theorem Gains.declaresOnly_iff (gains : Gains before after place existing declared.block) :
    before.DeclaresOnly after place declared
      ↔ EnvLines.IsSole (EnvLines.keys (existing.getD "").toList) declared.name.toList declared.line
        declared.block.toList := by
  obtain ⟨later, read, same⟩ := gains.exists_later
  rw [← EnvLines.declaresOnly_merged_iff, ← same]
  constructor
  · rintro ⟨_, _, readBefore, readAfter, declares, _⟩
    obtain rfl := Except.ok.inj (readBefore.symm.trans gains.read)
    obtain rfl := Except.ok.inj (readAfter.symm.trans read)
    exact declares
  · intro declares
    refine ⟨existing, later, gains.read, read, declares, fun known => gains.kept ?_⟩
    refine EnvLines.merge?_eq_none_iff.mpr fun given member => ?_
    have among : given ∈ EnvLines.keys (later.getD "").toList := by
      rw [same, EnvLines.mem_keys_merged]
      exact .inr member
    rcases (declares.keys given).mp among with before | rfl
    · exact before
    · exact known

/-- A variable whose name cannot be read back is declared in no file. -/
theorem not_declaresOnly (undeclarable : ¬EnvLines.IsDeclarable declared.name.toList) :
    ¬before.DeclaresOnly after place declared := by
  rintro ⟨_, _, _, _, declares, _⟩
  exact undeclarable (EnvLines.isDeclarable_of_mem_keys ((declares.keys _).mpr (.inr rfl)))

end Tree

/-! ## Where the files are -/

/-- The location of a target holds no double dots. -/
theorem Target.exists_of_inside {written : String} (found : Target.inside tree root written = .ok target) :
    ∃ home location, tree.resolve root = .ok home
      ∧ tree.resolve ((Tree.pathOf home).join (Path.ofText written)) = .ok location
      ∧ target.path = Tree.pathOf location ∧ ".." ∉ location := by
  obtain ⟨home, ofRoot, found⟩ := exists_of_bind_eq_ok found
  obtain ⟨location, ofPath, found⟩ := exists_of_bind_eq_ok found
  replace ofPath := eq_ok_of_mapError_eq_ok ofPath
  split at found
  next => cases found
  next names below =>
    obtain rfl := Except.ok.inj found
    exact ⟨home, location, eq_ok_of_mapError_eq_ok ofRoot, ofPath, rfl,
      Tree.straight_of_resolve (Tree.isAbsolute_join home (Path.ofText written)) ofPath⟩

/-- If there is a file of a name in the root folder, the target of the name is where it stands. -/
theorem Target.exists_file_of_inside {name : String} (wellFormed : tree.WellFormed)
    (straight : ".." ∉ tree.home) (found : Target.inside tree root name = .ok target)
    (single : Path.ofText name = ⟨.relative, [name]⟩) (present : tree.isFile (root.child name) = .ok true) :
    ∃ location content, target.path = Tree.pathOf location ∧ ".." ∉ location
      ∧ tree.node? location = some (.file content) := by
  obtain ⟨home, location, ofRoot, ofPath, targetPath, straightLocation⟩ := Target.exists_of_inside found
  have child : root.child name = ⟨root.root, root.parts ++ [name]⟩ := by
    rw [Path.child, single]
    rfl
  obtain ⟨content, bytes⟩ : ∃ content, tree.bytes? (root.child name) = some content :=
    Option.isSome_iff_exists.mp (Tree.eq_isSome_of_isFile present).symm
  obtain ⟨place, located, stands⟩ := Tree.look_eq_ok_iff.mp (Tree.bytes?_eq_some_iff.mp bytes)
  have leads := (Tree.locate_eq_ok_iff.mp located).2.2
  rw [child] at leads
  obtain ⟨reached, toRoot, onward⟩ := leads.resolves.split
  have start : tree.IsResolved (tree.startOf root) := by
    unfold Tree.startOf
    split
    · exact Tree.isResolved_root tree
    · exact wellFormed.isResolved_home straight
  obtain rfl := Tree.Resolves.eq_of_resolve toRoot ofRoot
  have fromRoot : tree.Resolves [] home ([] ++ home) := (toRoot.isResolved start).resolves
  rw [Tree.join_pathOf single] at ofPath
  have whole : tree.Resolves [] (home ++ [name]) place := fromRoot.append onward
  obtain rfl := Tree.Resolves.eq_of_resolve whole ofPath
  exact ⟨location, content, targetPath, straightLocation, stands⟩

/-! ## The action -/

/-- The name of the file of variables has nothing to render. -/
theorem Target.inside_of_ofTemplate_env
    (found : Target.ofTemplate tree context .addEnvVar ".env" = .ok target) :
    Target.inside tree context.project.root ".env" = .ok target := by
  rwa [Target.ofTemplate_unbraced (by decide) (by cbv) rfl] at found

/-- The plan of the action merges the block of a variable into every target. -/
theorem Plan.exists_of_addEnvVar
    (found : Plan.addEnvVar tree context key value description path = .ok plan) :
    ∃ declared targets, EnvVariable.IsRendered context key value description declared
      ∧ Plan.envTargets tree context path = .ok targets
      ∧ plan = ⟨targets.map fun target => ⟨target, .merge .lineAppendDedup declared.block⟩, none⟩ := by
  obtain ⟨text, ofKey, found⟩ := exists_of_bind_eq_ok found
  dsimp only at found
  split at found
  next => cases found
  next proper =>
    obtain ⟨content, ofValue, found⟩ := exists_of_bind_eq_ok found
    obtain ⟨comment, ofDescription, found⟩ := exists_of_bind_eq_ok found
    obtain ⟨targets, named, found⟩ := exists_of_bind_eq_ok found
    obtain ⟨nonempty, unsigned⟩ := Bool.or_eq_false_iff.mp (Bool.not_eq_true _ ▸ proper)
    exact ⟨⟨Text.trimmed text, content, comment⟩, targets,
      ⟨⟨text, ofKey, rfl⟩, ofValue, ofDescription, nonempty, unsigned⟩, named, (Except.ok.inj found).symm⟩

/-- The targets of the action are one file, or the file of examples and the file of variables. -/
theorem Plan.targets_cases {targets : List Target} (found : Plan.envTargets tree context path = .ok targets) :
    (∃ target, targets = [target])
      ∨ ∃ sample actual, targets = [sample, actual] ∧ sample.IsInside tree context.project.root
        ∧ Target.inside tree context.project.root ".env" = .ok actual
        ∧ tree.isFile (context.project.root.child ".env") = .ok true := by
  cases path with
  | some written =>
      obtain ⟨target, _, found⟩ := exists_of_bind_eq_ok found
      exact .inl ⟨target, (Except.ok.inj found).symm⟩
  | none =>
      obtain ⟨sample, ofSample, found⟩ := exists_of_bind_eq_ok found
      obtain ⟨present, isFile, found⟩ := exists_of_bind_eq_ok found
      cases present with
      | false => exact .inl ⟨sample, (Except.ok.inj found).symm⟩
      | true =>
          obtain ⟨actual, ofActual, found⟩ := exists_of_bind_eq_ok found
          exact .inr ⟨sample, actual, (Except.ok.inj found).symm, Target.isInside_of_ofTemplate ofSample,
            Target.inside_of_ofTemplate_env ofActual, eq_ok_of_mapError_eq_ok isFile⟩

namespace Execution

variable {options : RunOptions} {workspace done : Workspace} {effect : Effect}

/-- Edits were made, and then the job was launched, if a plan was carried out with success. -/
theorem launched_of_carryOut (carried : workspace.carryOut plan = (effect, done))
    (success : effect.isSuccess = true) :
    ∃ touched edited, workspace.editAll plan.edits = (.ok touched, edited)
      ∧ edited.launch plan.job = (.ok (), done) := by
  unfold Workspace.carryOut at carried
  split at carried
  next =>
    obtain rfl := (Prod.mk.inj carried).1
    cases success
  next touched edited edits =>
    split at carried
    next =>
      obtain rfl := (Prod.mk.inj carried).1
      cases success
    next left launched =>
      obtain rfl := (Prod.mk.inj carried).2
      exact ⟨touched, edited, edits, launched⟩

/-- An action that is never passed over and succeeds was planned: the edits of its plan were made, and then its job
was launched. -/
theorem exists_of_attempt {operation : Operation} {planned : Except ActionFault Plan}
    (attempted : attempt options context workspace operation = (effect, done)) (success : effect.isSuccess = true)
    (always : workspace.plan context options.skipInstall operation = (planned.map some, workspace)) :
    ∃ plan touched edited, planned = .ok plan ∧ workspace.editAll plan.edits = (.ok touched, edited)
      ∧ edited.launch plan.job = (.ok (), done) ∧ done.tree = edited.tree := by
  rw [attempt, always] at attempted
  cases planned with
  | error fault =>
      obtain rfl := (Prod.mk.inj attempted).1
      cases success
  | ok plan =>
      obtain ⟨touched, edited, edits, launched⟩ := launched_of_carryOut attempted success
      have files := edited.tree_launch plan.job
      rw [launched] at files
      exact ⟨plan, touched, edited, rfl, edits, launched, files⟩

/-- An action that succeeds has merged the block of its variable into every target: each of them gains the
block, whatever the others are. -/
theorem gains_of_attempt (wellFormed : workspace.tree.WellFormed) (straight : ".." ∉ workspace.tree.home)
    (attempted : attempt options context workspace (.addEnvVar key value description path) = (effect, done))
    (success : effect.isSuccess = true) :
    ∃ declared targets, EnvVariable.IsRendered context key value description declared
      ∧ Plan.envTargets workspace.tree context path = .ok targets
      ∧ ∀ target ∈ targets, ∃ existing,
          workspace.tree.Gains done.tree target.path existing declared.block := by
  obtain ⟨plan, touched, edited, found, made, _, sameTree⟩ := exists_of_attempt attempted success rfl
  obtain ⟨declared, targets, rendered, named, rfl⟩ := Plan.exists_of_addEnvVar found
  refine ⟨declared, targets, rendered, named, ?_⟩
  rw [sameTree]
  rcases Plan.targets_cases named with ⟨target, rfl⟩ | ⟨sample, actual, rfl, ⟨written, inside⟩, there, isFile⟩
  · obtain ⟨_, between, _, merged, _, onward⟩ := Workspace.editAll_cons_ok made
    obtain rfl := (Prod.mk.inj onward).2
    rintro target' member
    obtain rfl := List.mem_singleton.mp member
    exact wellFormed.exists_gains merged
  · obtain ⟨_, between, _, first, _, made⟩ := Workspace.editAll_cons_ok made
    obtain ⟨_, last, _, second, _, onward⟩ := Workspace.editAll_cons_ok made
    obtain rfl := (Prod.mk.inj onward).2
    obtain ⟨_, place, _, _, samplePath, straightSample⟩ := Target.exists_of_inside inside
    obtain ⟨location, content, actualPath, straightActual, stands⟩ :=
      Target.exists_file_of_inside wellFormed straight there (by cbv) isFile
    rw [actualPath] at second
    have both := wellFormed.gains_in_turn (by rw [samplePath]; exact straightSample) straightActual stands
      first second
    rw [← actualPath] at both
    simpa using both

/-- An action that declares a variable and succeeds.  In each of its files it declares the variable and
nothing else exactly if, beyond the keys that the file has, the block does; it does so in every file if the
rendered texts are plain, and in none if the name cannot be read back. -/
theorem attempt_declares (wellFormed : workspace.tree.WellFormed) (straight : ".." ∉ workspace.tree.home)
    (attempted : attempt options context workspace (.addEnvVar key value description path) = (effect, done))
    (success : effect.isSuccess = true) :
    ∃ declared targets, EnvVariable.IsRendered context key value description declared
      ∧ Plan.envTargets workspace.tree context path = .ok targets
      ∧ ∀ target ∈ targets,
        (∃ existing, workspace.tree.existingText target.path = .ok existing
            ∧ (workspace.tree.DeclaresOnly done.tree target.path declared
              ↔ EnvLines.IsSole (EnvLines.keys (existing.getD "").toList) declared.name.toList declared.line
                declared.block.toList))
          ∧ (declared.IsPlain → workspace.tree.DeclaresOnly done.tree target.path declared)
          ∧ (¬EnvLines.IsDeclarable declared.name.toList →
            ¬workspace.tree.DeclaresOnly done.tree target.path declared) := by
  obtain ⟨declared, targets, rendered, named, gained⟩ :=
    gains_of_attempt wellFormed straight attempted success
  refine ⟨declared, targets, rendered, named, fun target member => ?_⟩
  obtain ⟨existing, gains⟩ := gained target member
  exact ⟨⟨existing, gains.read, gains.declaresOnly_iff⟩,
    fun plain => gains.declaresOnly_iff.mpr (rendered.isSole_block plain _), Tree.not_declaresOnly⟩

/-- The file of example variables in the project. -/
def sampleTarget : Target := ⟨".env.example", Tree.pathOf ["proj", ".env.example"]⟩

/-- In an empty project variables are declared in the file of examples. -/
theorem envTargets_offline : Plan.envTargets offline.tree demoContext none = .ok [sampleTarget] := by
  have folder : ∀ target, offline.tree.node? ([] ++ ["proj"]) ≠ some (.link target) :=
    fun _ linked => Node.noConfusion (Option.some.inj linked)
  have home : offline.tree.resolve demoContext.project.root = .ok ["proj"] :=
    Tree.Resolves.resolve_eq (.down (by decide) folder .arrive) (by decide)
  have found : offline.tree.resolve (Tree.pathOf ["proj", ".env.example"])
      = .ok ["proj", ".env.example"] := by
    refine Tree.Resolves.resolve_eq ?_ (by decide)
    exact .down (by decide) folder
      (.down (by decide) (fun _ linked => Option.some_ne_none _ linked.symm) .arrive)
  have named : Target.ofTemplate offline.tree demoContext .addEnvVar ".env.example" = .ok sampleTarget := by
    rw [Target.ofTemplate_unbraced (by decide) (by cbv) rfl]
    exact Target.inside_child home (by cbv) found
  have absent : offline.tree.isFile (demoContext.project.root.child ".env") = .ok false := by
    have located : offline.tree.locate true (demoContext.project.root.child ".env") = .ok ["proj", ".env"] :=
      Tree.locate_eq_ok_iff.mpr ⟨by decide, by decide,
        .down rfl (by decide) (by decide) rfl (fun _ => Node.noConfusion)
          (.missing rfl (by decide) (by decide) rfl)⟩
    rw [Tree.isFile, Tree.test, Tree.look, located]
    rfl
  simp only [Plan.envTargets, named, absent, Except.mapError, bind, Except.bind]
  rfl

/-- The file is not there. -/
theorem locate_sampleTarget : offline.tree.locate true sampleTarget.path = .ok ["proj", ".env.example"] :=
  Tree.locate_eq_ok_iff.mpr ⟨by decide, by decide,
    .down rfl (by decide) (by decide) rfl (fun _ => Node.noConfusion)
      (.missing rfl (by decide) (by decide) rfl)⟩

/-- There a variable is declared in a new file if its block is all new. -/
theorem attempt_offline {lines : List Char}
    (rendered : EnvVariable.IsRendered demoContext key value description declared)
    (merged : EnvLines.merge? [] declared.block.toList = some lines) :
    attempt ⟨false, false⟩ demoContext offline (.addEnvVar key value description none)
      = (.applied [".env.example"],
        { offline with
          tree := offline.tree.put ["proj", ".env.example"] (.file (String.ofList lines).toUTF8) }) := by
  obtain ⟨text, ofKey, name⟩ := rendered.name
  have planned : Plan.addEnvVar offline.tree demoContext key value description none
      = .ok (.single sampleTarget (.merge .lineAppendDedup declared.block)) := by
    have proper : ((Text.trimmed text).isEmpty || (Text.trimmed text).toList.contains '=') = false := by
      rw [← name, rendered.nonempty, rendered.unsigned]
      rfl
    simp only [Plan.addEnvVar, ofKey, rendered.content, rendered.comment, envTargets_offline, bind,
      Except.bind, proper, Bool.false_eq_true, if_false]
    rw [← name]
    rfl
  have parent : offline.tree.look sampleTarget.path.parent = .ok .folder :=
    Tree.look_parent locate_sampleTarget (by decide)
  have ruled : mergedText? .lineAppendDedup sampleTarget.path none declared.block
      = .ok (some (String.ofList lines)) :=
    congrArg (fun found => Except.ok (Option.map String.ofList found)) merged
  have revised : (offline.tree.revise sampleTarget.path fun existing =>
        mergedText? .lineAppendDedup sampleTarget.path existing declared.block)
      = (.ok true, offline.tree.put ["proj", ".env.example"] (.file (String.ofList lines).toUTF8)) :=
    Tree.revise_of_absent parent locate_sampleTarget rfl ruled
  have made : (Change.merge .lineAppendDedup declared.block).makeAt offline.tree sampleTarget.path
      = (.ok true, offline.tree.put ["proj", ".env.example"] (.file (String.ofList lines).toUTF8)) := revised
  have operation : Plan.ofOperation offline.tree demoContext false (.addEnvVar key value description none)
      = .ok (some (.single sampleTarget (.merge .lineAppendDedup declared.block))) := by
    rw [Plan.ofOperation, planned]
    rfl
  rw [attempt_of_ofOperation operation]
  exact carryOut_single made

/-- A variable and what it is rendered to. -/
def portVariable : EnvVariable := ⟨"PORT", "3000", "# Port of the server
"⟩

/-- A variable that is declared in a new file. -/
theorem attempt_declares_port : offline.tree.WellFormed ∧ ".." ∉ offline.tree.home
    ∧ ∃ effect done, attempt ⟨false, false⟩ demoContext offline
          (.addEnvVar " PORT" "3000" (some "Port of the server") none) = (effect, done)
        ∧ effect.isSuccess = true
        ∧ offline.tree.DeclaresOnly done.tree sampleTarget.path portVariable := by
  have wellFormed : offline.tree.WellFormed := Tree.wellFormed_of_nodes rfl (by simp [offline, Tree.node?])
  have described : Target.rendered demoContext "" none "Port of the server" = .ok "Port of the server" :=
    Target.rendered_unbraced _ _ _ (by decide)
  have comment : Plan.commentLine demoContext (some "Port of the server") = .ok portVariable.comment := by
    rw [Plan.commentLine, described]
    · rfl
    · decide
  have rendered : portVariable.IsRendered demoContext " PORT" "3000" (some "Port of the server") :=
    ⟨⟨" PORT", Target.rendered_unbraced _ _ _ (by decide), by cbv⟩, Target.rendered_unbraced _ _ _ (by decide),
      comment, by decide, by decide⟩
  have merged : EnvLines.merge? [] portVariable.block.toList
      = some "# Port of the server\nPORT=3000\n".toList := by decide
  have attempted := attempt_offline rendered merged
  obtain ⟨declared, targets, isDeclared, named, declares⟩ :=
    attempt_declares wellFormed (by decide) attempted rfl
  obtain rfl := isDeclared.unique rendered
  obtain rfl := Except.ok.inj (named.symm.trans envTargets_offline)
  have shown : Text.trimRight portVariable.content.toList = "3000".toList := by decide
  have plain : portVariable.IsPlain :=
    ⟨⟨by simp [portVariable, Text.isLineEnd], by decide⟩, by rw [shown]; simp [Text.isLineEnd],
      by decide⟩
  exact ⟨wellFormed, by decide, _, _, attempted, rfl, (declares _ (by simp)).2.1 plain⟩

/-- A variable whose content has a second line. -/
def brokenVariable : EnvVariable := ⟨"PORT", "3000\nDEBUG=1", ""⟩

/-- The second line declares another variable, and the action succeeds. -/
theorem attempt_declares_another :
    ∃ effect done, attempt ⟨false, false⟩ demoContext offline
          (.addEnvVar "PORT" "3000\nDEBUG=1" none none) = (effect, done)
        ∧ effect.isSuccess = true
        ∧ offline.tree.existingText sampleTarget.path = .ok none
        ∧ done.tree.existingText sampleTarget.path = .ok (some "PORT=3000\nDEBUG=1\n")
        ∧ EnvLines.keys "PORT=3000\nDEBUG=1\n".toList = ["PORT".toList, "DEBUG".toList]
        ∧ ¬offline.tree.DeclaresOnly done.tree sampleTarget.path brokenVariable := by
  have rendered : brokenVariable.IsRendered demoContext "PORT" "3000\nDEBUG=1" none :=
    ⟨⟨"PORT", Target.rendered_unbraced _ _ _ (by decide), by cbv⟩, Target.rendered_unbraced _ _ _ (by decide),
      rfl, by decide, by decide⟩
  have merged : EnvLines.merge? [] brokenVariable.block.toList = some "PORT=3000\nDEBUG=1\n".toList := by
    decide
  have attempted := attempt_offline rendered merged
  have before : offline.tree.existingText sampleTarget.path = .ok none := by
    rw [Tree.existingText, Tree.isFile, Tree.test, Tree.look, locate_sampleTarget]
    rfl
  have keys : EnvLines.keys "PORT=3000\nDEBUG=1\n".toList = ["PORT".toList, "DEBUG".toList] := by
    decide
  have stored : (offline.tree.put ["proj", ".env.example"] (.file "PORT=3000\nDEBUG=1\n".toUTF8)).bytes?
      sampleTarget.path = some "PORT=3000\nDEBUG=1\n".toUTF8 := by
    refine Tree.bytes?_eq_some_iff.mpr (Tree.look_eq_ok_iff.mpr ⟨["proj", ".env.example"],
      Tree.locate_eq_ok_iff.mpr ⟨by decide, by decide, ?_⟩, rfl⟩)
    exact .down rfl (by decide) (by decide) rfl (fun _ => Node.noConfusion)
      (.down rfl (by decide) (by decide) rfl (fun _ => Node.noConfusion) .arrive)
  have after := Tree.existingText_of_bytes stored
  rw [Text.unified_of_notMem (by decide)] at after
  refine ⟨_, _, attempted, rfl, before, after, keys, ?_⟩
  rintro ⟨existing, later, readBefore, readAfter, declares, _⟩
  obtain rfl := Except.ok.inj (readBefore.symm.trans before)
  obtain rfl := Except.ok.inj (readAfter.symm.trans after)
  have debug := (declares.keys "DEBUG".toList).mp (by rw [Option.getD_some, keys]; decide)
  revert debug
  decide

end Execution

end Scaffold
