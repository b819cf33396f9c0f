import Mathlib
import Scaffold.Proofs.Execution.Failure
import Scaffold.Proofs.Json.Characters
import Scaffold.Proofs.Merge.Structured
import Scaffold.Proofs.Template.Rendering
import Scaffold.Proofs.Tree.Resolved

/-!
# Two ways to merge an object

An object gets into a structured file as a text that is merged, or as data.  Both ways make the same
change, and so a file that is created as a structured one and an object that is merged into it are one
action (`structured_merges_agree`).  A merge that fails keeps every file, unless its fault shows only when the
file is open.  It keeps the whole tree unless the file cannot be written: by then folders above it may be made
(`structured_merges_make_folders`).
-/

namespace Scaffold

variable {tree left : Tree} {path : Path} {text : String} {data : Entries} {fault : MergeFault}

/-! ## The text of an object -/

/-- The text of an object is read as a structured file that holds it: it is not blank. -/
theorem parseStructured_of_parse (parsed : Json.parse text.toList = .ok (.mapping data)) :
    parseStructured text = .ok data := by
  have visible : Text.isAllBlank text.toList = false := by
    rw [← Bool.not_eq_true]
    intro blank
    exact Json.parse_ne_ok_of_isAllBlank blank parsed
  simp only [parseStructured, visible, parsed, Bool.false_eq_true, if_false]

/-- What becomes of a structured file is the same for an object and for its text. -/
theorem mergedText?_structured (parsed : Json.parse text.toList = .ok (.mapping data))
    (existing : Option String) :
    mergedText? .structured path existing text = (do
      let current ← parseNamed path.text (existing.getD "")
      match MergeMode.ofName? MergeMode.deep.name with
      | none => throw (.unknownMode path.text MergeMode.deep.name)
      | some mode => return some (← dumpMerged (mode.combine current data))) := by
  have incoming : parseNamed (path.text ++ " (rendered content)") text = .ok data :=
    parseNamed_eq_ok_iff.mpr (parseStructured_of_parse parsed)
  rw [mergedText?, MergeMode.ofName?_name]
  cases parseNamed path.text (existing.getD "") with
  | error fault => rfl
  | ok current =>
      simp only [incoming, bind, Except.bind]
      rfl

/-- An object and its text are merged into a structured file alike. -/
theorem Tree.merge_structured_of_parse (parsed : Json.parse text.toList = .ok (.mapping data)) :
    tree.merge .structured path text = tree.mergeData path data MergeMode.deep.name := by
  rw [merge, mergeData]
  congr 1
  funext existing
  exact mergedText?_structured parsed existing

/-! ## Rendering for two kinds of actions -/

namespace Template

variable {context : Context} {first second : Destination}

/-- A value is written alike for destinations that agree on how lists are written. -/
theorem formatValue_congr (same : first.quotesItems = second.quotesItems) :
    formatValue first = formatValue second := by
  funext value
  cases value with
  | list items => simp only [formatValue, same]
  | scalar content => rfl
  | mapping entries => rfl

/-- A template is rendered alike for destinations that agree on how lists are written. -/
theorem renderText_congr (same : first.quotesItems = second.quotesItems) (template : String) :
    renderText context first template = renderText context second template := by
  have leaf : renderLeaf context first = renderLeaf context second := by
    funext leaf
    cases leaf with
    | text raw => rfl
    | «variable» reference raw => simp only [renderLeaf, formatValue_congr same]
  have leaves : ∀ leaves, renderLeaves context first leaves = renderLeaves context second leaves := by
    intro leaves
    induction leaves with
    | nil => rfl
    | cons here rest inductionHypothesis => rw [renderLeaves, renderLeaves, leaf, inductionHypothesis]
  rw [renderText, renderText, render_eq, render_eq, leaves]

end Template

variable {context : Context} {options : RunOptions} {target : Target} {label written content : String}
  {source : FileSource} {payload : JsonPayload} {overwrite : Bool} {strategy : Option MergeStrategy}
  {workspace : Workspace} {first second : ActionKind}

namespace Target

/-- Templates are rendered alike for all kinds of actions but commands. -/
theorem rendered_congr_kind (noCommand : first ≠ .runCommand ∧ second ≠ .runCommand) (template : String) :
    rendered context label (some first) template = rendered context label (some second) template := by
  have plain : ∀ kind : ActionKind, kind ≠ .runCommand →
      (⟨label, some kind⟩ : Template.Destination).quotesItems
        = Template.sourceSuffixes.contains (Path.ofText label).suffix := by
    intro kind other
    rw [Template.Destination.quotesItems, bne_iff_ne.mpr (by simpa using other), Bool.true_and]
  rw [rendered, rendered,
    Template.renderText_congr ((plain first noCommand.1).trans (plain second noCommand.2).symm)]

/-- A template names the same target for all kinds of actions but commands. -/
theorem ofTemplate_congr_kind (noCommand : first ≠ .runCommand ∧ second ≠ .runCommand) (template : String) :
    ofTemplate tree context first template = ofTemplate tree context second template := by
  rw [ofTemplate, ofTemplate, rendered_congr_kind noCommand]

end Target

/-- The text that creates a file serves as a payload as well, if it is the text of an object. -/
theorem Plan.jsonEntries_of_rendered
    (filled : Target.rendered context label (some .createFile) content = .ok text)
    (parsed : Json.parse text.toList = .ok (.mapping data)) :
    jsonEntries context label (.template content) = .ok data := by
  have merging : Target.rendered context label (some .mergeJson) content = .ok text :=
    (Target.rendered_congr_kind (by decide) content).trans filled
  simp only [jsonEntries, merging, bind, Except.bind, parsed]
  rfl

/-! ## Actions -/

namespace Workspace

variable {change other : Change}

/-- Plans that change one file alike are carried out alike. -/
theorem carryOut_single_congr
    (same : change.makeAt workspace.tree target.path = other.makeAt workspace.tree target.path) :
    workspace.carryOut (.single target change) = workspace.carryOut (.single target other) := by
  have edits : workspace.edit ⟨target, change⟩ = workspace.edit ⟨target, other⟩ := by
    rw [edit, edit]
    dsimp only
    rw [same]
  rw [carryOut, carryOut, Plan.single, Plan.single, editAll, editAll, edits]

end Workspace

namespace Execution

/-- A source supplies a content: it is the content, or the next rendering answers with it and does nothing else. -/
def Supplies (workspace : Workspace) (context : Context) : FileSource → String → Prop
  | .content written, content => written = content
  | .template file, content =>
    workspace.renderings 0 workspace.tree (.ofName context file) = ⟨.ok content, workspace.tree, id⟩

/-- The workspace when a source was read: a template file takes a rendering. -/
def past (workspace : Workspace) : FileSource → Workspace
  | .content _ => workspace
  | .template _ => { workspace with renderings := workspace.renderings.later 1 }

/-- A file is created from a content that its source supplies. -/
theorem plan_createFile (supplies : Supplies workspace context source content)
    (named : Target.ofTemplate workspace.tree context .createFile written = .ok target) (skipInstall : Bool) :
    workspace.plan context skipInstall (.createFile written source overwrite strategy)
      = ((Plan.creation context target content overwrite strategy).map some, past workspace source) := by
  cases source with
  | content text =>
      obtain rfl : text = content := supplies
      simp only [Workspace.plan, Plan.ofOperation, Plan.createFile, named]
      rfl
  | template file =>
      have rendered : workspace.renderings 0 workspace.tree (.ofName context file)
          = ⟨.ok content, workspace.tree, id⟩ := supplies
      simp only [Workspace.plan, Workspace.render, named, rendered]
      rfl

/-- A structured file that is created from the text of an object is changed as if the object were merged
into it. -/
theorem attempt_createFile_eq_attempt_mergeJson
    (named : Target.ofTemplate workspace.tree context .mergeJson written = .ok target)
    (structured : Plan.creationStrategy target.label overwrite strategy = .structured)
    (supplies : Supplies workspace context source content)
    (filled : Target.rendered context target.label (some .createFile) content = .ok text)
    (parsed : Json.parse text.toList = .ok (.mapping data))
    (stands : Plan.jsonEntries context target.label payload = .ok data) :
    attempt options context workspace (.createFile written source overwrite strategy)
      = attempt options context (past workspace source) (.mergeJson written payload) := by
  have files : (past workspace source).tree = workspace.tree := by cases source <;> rfl
  have creates : workspace.plan context options.skipInstall (.createFile written source overwrite strategy)
      = (.ok (some (.single target (.merge .structured text))), past workspace source) := by
    have creating : Target.ofTemplate workspace.tree context .createFile written = .ok target :=
      (Target.ofTemplate_congr_kind (by decide) written).trans named
    rw [plan_createFile supplies creating, Plan.creation, filled, structured]
    rfl
  have merges : Plan.ofOperation (past workspace source).tree context options.skipInstall (.mergeJson written payload)
      = .ok (some (.single target (.mergeData data .deep))) := by
    simp only [Plan.ofOperation, Plan.mergeJson, files, named, stands, bind, Except.bind]
    rfl
  rw [attempt_of_ofOperation merges, attempt, creates]
  exact Workspace.carryOut_single_congr (Tree.merge_structured_of_parse parsed)

/-- The two ways to merge an object into a structured file agree: they succeed in the same cases, with the
same answer and the same tree, and fail alike.  A merge that fails before the file is open keeps every file, and it
keeps the tree unless the file could not be written; it never changes another file.  So an action that creates a
structured file from a text, and one that merges the object of that text, have the same effect. -/
theorem structured_merges_agree (parsed : Json.parse text.toList = .ok (.mapping data)) :
    tree.merge .structured path text = tree.mergeData path data MergeMode.deep.name
      ∧ (∀ fault left, tree.merge .structured path text = (.error fault, left) →
        tree.Revises path left
          ∧ (¬fault.isLate → tree.AddsFolders left ∧ ((∀ error, fault ≠ .file error) → left = tree)))
      ∧ ∀ options context workspace written target source content payload overwrite strategy,
        Target.ofTemplate workspace.tree context .mergeJson written = .ok target →
        Plan.creationStrategy target.label overwrite strategy = .structured →
        Supplies workspace context source content →
        Target.rendered context target.label (some .createFile) content = .ok text →
        Plan.jsonEntries context target.label payload = .ok data →
        attempt options context workspace (.createFile written source overwrite strategy)
          = attempt options context (past workspace source) (.mergeJson written payload) := by
  refine ⟨Tree.merge_structured_of_parse parsed, fun fault left failed => ⟨?_, fun early => ⟨?_, fun saved => ?_⟩⟩, ?_⟩
  · have revises := Tree.revises_revise tree path fun existing => mergedText? .structured path existing text
    have leaves := congrArg Prod.snd failed
    rw [Tree.merge] at leaves
    rwa [leaves] at revises
  · exact (Tree.addsFolders_or_empties_of_revise failed).resolve_right fun empties => early empties.isLate
  · exact (Tree.eq_of_revise_error failed saved).resolve_right fun empties => early empties.isLate
  · intro options context workspace written target source content payload overwrite strategy named
      structured supplies filled stands
    exact attempt_createFile_eq_attempt_mergeJson named structured supplies filled parsed stands

/-- The text of a manifest with a script. -/
def devScript : String := "\x7b\"scripts\": \x7b\"dev\": \"vite\"\x7d\x7d\n"

/-- The object of this text. -/
def devEntries : Entries := [(.text "scripts", .mapping [(.text "dev", .text "vite")])]

/-- In an empty project the manifest is the target of its name. -/
theorem ofTemplate_offline : Target.ofTemplate offline.tree demoContext .mergeJson "package.json"
    = .ok ⟨"package.json", Tree.pathOf ["proj", "package.json"]⟩ := by
  have unlinked : ∀ location target, offline.tree.node? location ≠ some (.link target) := by
    intro location target found
    have nonempty : location ≠ [] := by
      rintro rfl
      cases found
    have member := Tree.mem_nodes nonempty found
    simp [offline] at member
  have followable := Tree.isFollowable_of_unlinked (Tree.isResolved_root offline.tree) unlinked
  have found : offline.tree.resolve (Tree.pathOf ["proj", "package.json"]) = .ok ["proj", "package.json"] :=
    followable.resolve_pathOf ⟨by decide, fun above _ target => unlinked above target⟩ (by decide)
  have home : offline.tree.resolve demoContext.project.root = .ok ["proj"] := by cbv
  rw [Target.ofTemplate_unbraced (by decide) (by cbv) rfl]
  exact Target.inside_child home (by cbv) found

/-- A manifest that is created in an empty project, and one that the script is merged into. -/
theorem structured_merges_agree_manifest :
    Json.parse devScript.toList = .ok (.mapping devEntries)
      ∧ offline.tree.merge .structured ⟨.relative, ["proj", "package.json"]⟩ devScript
        = offline.tree.mergeData ⟨.relative, ["proj", "package.json"]⟩ devEntries MergeMode.deep.name
      ∧ attempt ⟨false, false⟩ demoContext offline
          (.createFile "package.json" (.content devScript) false none)
        = attempt ⟨false, false⟩ demoContext offline (.mergeJson "package.json" (.template devScript)) := by
  have parsed : Json.parse devScript.toList = .ok (.mapping devEntries) := by cbv
  obtain ⟨merges, _, actions⟩ := @structured_merges_agree offline.tree ⟨.relative, ["proj", "package.json"]⟩
    devScript devEntries parsed
  have filled : Target.rendered demoContext "package.json" (some .createFile) devScript = .ok devScript :=
    Target.rendered_untagged _ _ _ (by decide)
  have structured : Plan.creationStrategy "package.json" false none = .structured := by decide
  have stands := Plan.jsonEntries_of_rendered filled parsed
  exact ⟨parsed, merges, actions ⟨false, false⟩ demoContext offline "package.json"
    ⟨"package.json", Tree.pathOf ["proj", "package.json"]⟩ (.content devScript) devScript
    (.template devScript) false none ofTemplate_offline structured rfl filled stands⟩

/-- A project in which a file takes the place of a folder. -/
def occupied : Tree := ⟨[(["proj"], .folder), (["proj", "f"], .file ⟨#[]⟩)], []⟩

/-- A path that leads through a new folder, and then into the file. -/
def throughFile : Path := ⟨.relative, ["proj", "new", "..", "f", "x.json"]⟩

/-- The new folder is made before the file is in the way, and both ways to merge leave it behind. -/
theorem structured_merges_make_folders :
    ∃ fault left, Json.parse "\x7b\x7d".toList = .ok (.mapping [])
      ∧ occupied.merge .structured throughFile "\x7b\x7d" = (.error fault, left)
      ∧ occupied.mergeData throughFile [] MergeMode.deep.name = (.error fault, left)
      ∧ occupied.node? ["proj", "new"] = none
      ∧ left.node? ["proj", "new"] = some .folder := by
  have parsed : Json.parse "\x7b\x7d".toList = .ok (.mapping []) := by cbv
  have made : occupied.makeFolders throughFile.parent
      = (.error ⟨.alreadyExists, "proj/new/../f"⟩, occupied.put ["proj", "new"] .folder) := by cbv
  have absent : occupied.existingText throughFile = .ok none := by
    rw [Tree.existingText, Tree.isFile, Tree.test, Tree.look, Tree.locate_eq_walk (by decide) (by decide)]
    cbv
  have merged : occupied.merge .structured throughFile "\x7b\x7d"
      = (.error (.file ⟨.alreadyExists, "proj/new/../f"⟩), occupied.put ["proj", "new"] .folder) := by
    have settled : mergedText? .structured throughFile none "\x7b\x7d" = .ok (some "\x7b\x7d\n") := by cbv
    rw [Tree.merge, Tree.revise, absent]
    dsimp only
    rw [settled]
    dsimp only [Tree.settle]
    rw [if_neg (by simp), Tree.writeBelow, made]
  refine ⟨_, _, parsed, merged, ?_, rfl, Tree.node?_put_self (List.cons_ne_nil _ _)⟩
  rw [← Tree.merge_structured_of_parse parsed, merged]

end Execution

end Scaffold
