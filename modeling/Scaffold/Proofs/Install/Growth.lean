import Scaffold.Proofs.Execution.Accounting
import Scaffold.Proofs.Execution.Containment
import Scaffold.Proofs.Execution.Targets
import Scaffold.Proofs.Install.Result
import Scaffold.Proofs.Merge.Blocks
import Scaffold.Proofs.Merge.Revision

/-!
# Installations that do not settle

A request that is installed again changes no more than the state file if all that its blueprints do is done
already.  A block is appended unless the file contains it.  Reading a file unifies its line ends, so a block
with a carriage return is never found, and every run appends it once more (`AppendsReturn.lengthens`).  So
`installTimes_grows` says of a module that appends one that every further installation makes its file longer.
-/

namespace Scaffold

namespace Tree

variable {tree : Tree} {path : Path} {location : Location} {content : ByteArray} {text block : String}

/-- The file at a path was written in its place, and its text is longer than it was. -/
structure Lengthens (tree : Tree) (path : Path) (text : String) (after : Tree) : Prop where
  place : ∃ location content, tree.locate true path = .ok location
    ∧ after = tree.put location (.file content)
  wellFormed : after.WellFormed
  longer : ∃ later, after.existingText path = .ok (some later) ∧ text.length < later.length

/-- A block with a carriage return makes every file longer that it is appended to. -/
theorem merge_append_lengthens (wellFormed : tree.WellFormed)
    (found : tree.existingText path = .ok (some text)) (returns : '\r' ∈ block.toList) :
    ∃ left, tree.merge .append path block = (.ok true, left) ∧ tree.Lengthens path text left := by
  obtain ⟨location, content, located, file⟩ := exists_file_of_existingText found
  have absent := notMem_of_existingText found
  obtain ⟨tail, nonempty, appended⟩ := Block.exists_tail text.toList (List.ne_nil_of_mem returns)
  have ruled : mergedText? .append path (some text) block
      = .ok (some (String.ofList (text.toList ++ tail))) := by
    simp only [mergedText?, Block.contains_of_mem returns absent, appended]
    rfl
  have longer : ∀ {more : List Char}, more ≠ [] →
      text.length < (String.ofList (text.toList ++ more)).length := by
    intro more some
    simpa [String.length_ofList] using List.length_pos_iff.mpr some
  have differs : ¬(some text == some (String.ofList (text.toList ++ tail))) = true := by
    intro same
    exact Nat.ne_of_lt (longer nonempty) (congrArg String.length (Option.some.inj (beq_iff_eq.mp same)))
  obtain ⟨again, stands, stillFormed⟩ := wellFormed.put_located
    (.file (String.ofList (text.toList ++ tail)).toUTF8) located (.inr ⟨content, file⟩)
    fun _ => Node.noConfusion
  have written := existingText_of_bytes
    (bytes?_eq_some_iff.mpr (look_eq_ok_iff.mpr ⟨location, again, stands⟩))
  refine ⟨_, ?_, ⟨_, _, located, rfl⟩, stillFormed, _, written, ?_⟩
  · rw [merge, revise, found]
    dsimp only
    rw [ruled]
    dsimp only [settle]
    rw [if_neg differs, wellFormed.writeBelow_of_file located file]
  · rw [Text.unified, String.toList_ofList, Text.unifyLineEnds_append absent]
    exact longer (Text.unifyLineEnds_ne_nil nonempty)

end Tree

namespace Execution

variable {tree after : Tree} {context : Context} {path content : String} {target : Target}
  {block text : String}

/-- An action that appends a block with a carriage return to a file which is no file of variables. -/
structure AppendsReturn (tree : Tree) (context : Context) (path content : String) (target : Target)
    (block : String) : Prop where
  wellFormed : tree.WellFormed
  followable : tree.IsFollowable
  named : Target.ofTemplate tree context .appendToFile path = .ok target
  plain : MergeStrategy.isEnvFile (Path.ofText target.label) = false
  rendered : Target.rendered context target.label (some .appendToFile) content = .ok block
  returns : '\r' ∈ block.toList

/-- Where paths take the same way a block is appended to the same file. -/
theorem AppendsReturn.congr (appends : AppendsReturn tree context path content target block)
    (same : tree.SameLinks after) (wellFormed : after.WellFormed) :
    AppendsReturn after context path content target block :=
  { appends with
    wellFormed
    followable := appends.followable.congr same
    named := (Target.ofTemplate_congr appends.followable same).trans appends.named }

/-- An action that appends a block with a carriage return succeeds and makes its file longer. -/
theorem AppendsReturn.lengthens (options : RunOptions) (workspace : Workspace)
    (appends : AppendsReturn workspace.tree context path content target block)
    (found : workspace.tree.existingText target.path = .ok (some text)) :
    (run options context [.always (.appendToFile path content)] workspace).1.isSuccess = true
      ∧ workspace.tree.Lengthens target.path text
          (run options context [.always (.appendToFile path content)] workspace).2.tree
      ∧ workspace.tree.SameLinks
          (run options context [.always (.appendToFile path content)] workspace).2.tree := by
  obtain ⟨left, merged, lengthens⟩ :=
    Tree.merge_append_lengthens appends.wellFormed found appends.returns
  have planned : Plan.ofOperation workspace.tree context options.skipInstall (.appendToFile path content)
      = .ok (some (.single target (.merge .append block))) := by
    simp [Plan.ofOperation, Plan.appendToFile, appends.named, appends.rendered, appends.plain, bind,
      Except.bind, pure, Except.pure, Except.map]
  have attempted : attempt options context workspace (.appendToFile path content)
      = workspace.carryOut (.single target (.merge .append block)) := by
    exact attempt_of_ofOperation planned
  obtain ⟨outcomes, files⟩ := run_always (attempted.trans (carryOut_single merged))
  have made : (Change.merge .append block).makeAt workspace.tree target.path = (.ok true, left) := merged
  have sameLinks := (Change.revises_of_makeAt made).sameLinks (appends.followable.start _)
  refine ⟨(isSuccess_run ..).mpr fun outcome member => ?_, files ▸ lengthens, files ▸ sameLinks⟩
  rw [outcomes] at member
  obtain rfl := List.mem_singleton.mp member
  exact Workspace.isSuccess_effectOf [(target.label, true)]

end Execution

end Scaffold

namespace Scaffold.Install

open Execution (AppendsReturn)

variable {config : Config} {registry : Registry} {requested : List String}
  {values : List (String × Entries)} {session : Session} {context : Context} {report : InstallReport}
  {now : String} {descriptor : Module} {tree after : Tree} {target : Target}
  {path content block text : String}

/-! ## One installation -/

/-- Remembering an installation changes the state file, if any. -/
theorem revises_remember (config : Config) (now : String) (registry : Registry) (report : InstallReport)
    (session : Session) :
    session.workspace.tree.Revises config.statePath
      (remember config now registry report session).2.workspace.tree := by
  rcases tree_remember config now registry report session with same | ⟨value, saved⟩
  · rw [same]
    exact .kept (.refl _)
  · rw [saved]
    exact Tree.revises_saveJson _ _ _

/-- Remembering an installation keeps every node in a folder. -/
theorem wellFormed_remember (wellFormed : session.workspace.tree.WellFormed) :
    (remember config now registry report session).2.workspace.tree.WellFormed := by
  rcases tree_remember config now registry report session with same | ⟨value, saved⟩
  · rwa [same]
  · rw [saved]
    exact wellFormed.saveJson _ _

/-- A request for one module that lacks no value runs its blueprint. -/
theorem carriedOut_single (config : Config) (session : Session)
    (only : registry.ordered requested = [descriptor])
    (complete : descriptor.missingRequired (given values descriptor.id) = []) :
    ∃ shown,
      carriedOut config registry requested values session
        = ([(descriptor.id, .ran (runModule config descriptor (given values descriptor.id)
              (opened registry requested session)).1)],
          (runModule config descriptor (given values descriptor.id)
            (opened registry requested session)).2.tell shown) := by
  have free : blockers [] descriptor = [] := blockers_eq_nil_iff.mpr fun _ => nofun
  have tried : installModule config values [] descriptor (opened registry requested session)
      = (.ran (runModule config descriptor (given values descriptor.id)
            (opened registry requested session)).1,
          (runModule config descriptor (given values descriptor.id)
            (opened registry requested session)).2) := by
    unfold given at complete
    simp only [installModule, free, complete]
    rfl
  rw [carriedOut, only, installEach, tried]
  dsimp only
  split
  · exact ⟨_, rfl⟩
  · exact ⟨_, rfl⟩

/-! ## Blocks that are appended again -/

/-- A request for one module, whose blueprint appends a block with a carriage return to a file that is not
the state file. -/
structure IsAppending (config : Config) (registry : Registry) (requested : List String)
    (values : List (String × Entries)) (context : Context) (tree : Tree) (descriptor : Module)
    (path content : String) (target : Target) (block : String) : Prop where
  resolved : (registry.resolve requested).isOk = true
  only : registry.ordered requested = [descriptor]
  complete : descriptor.missingRequired (given values descriptor.id) = []
  blueprint : descriptor.blueprint = [.always (.appendToFile path content)]
  appends : AppendsReturn tree (context.enter descriptor (given values descriptor.id)) path content target
    block
  apart : tree.resolve target.path ≠ tree.resolve config.statePath

namespace IsAppending

/-- Where paths take the same way the request appends to the same file. -/
theorem congr
    (appending : IsAppending config registry requested values context tree descriptor path content target
      block)
    (same : tree.SameLinks after) (wellFormed : after.WellFormed) :
    IsAppending config registry requested values context after descriptor path content target block :=
  { appending with
    appends := appending.appends.congr same wellFormed
    apart := by
      rw [appending.appends.followable.resolve_congr same, appending.appends.followable.resolve_congr same]
      exact appending.apart }

variable
  (appending : IsAppending config registry requested values session.context session.workspace.tree descriptor
    path content target block)
  (found : session.workspace.tree.existingText target.path = .ok (some text))

include appending found

/-- The module is installed, and makes its file longer. -/
theorem lengthens :
    ∃ report, report.isSuccess = true
      ∧ (carriedOut config registry requested values session).1 = [(descriptor.id, .ran report)]
      ∧ session.workspace.tree.Lengthens target.path text
          (carriedOut config registry requested values session).2.workspace.tree
      ∧ session.workspace.tree.SameLinks
          (carriedOut config registry requested values session).2.workspace.tree := by
  obtain ⟨shown, carried⟩ := carriedOut_single config session appending.only appending.complete
  let started := (opened registry requested session).workspace.tell
    (Shown.sectionHeading ("Installing " ++ descriptor.displayName))
  obtain ⟨success, lengthens, same⟩ :=
    AppendsReturn.lengthens ⟨config.skipInstall, config.verbose⟩ started appending.appends found
  rw [← appending.blueprint] at success lengthens same
  rw [carried]
  exact ⟨_, success, rfl, lengthens, same⟩

/-- The installation makes the file longer, and would again. -/
theorem grows (now : String) :
    ∃ later,
      IsAppending config registry requested values session.context
          (run config registry now requested values session).2.workspace.tree descriptor path content target
          block
        ∧ (run config registry now requested values session).2.workspace.tree.existingText target.path
            = .ok (some later)
        ∧ text.length < later.length := by
  obtain ⟨report, _, _, ⟨_, wellFormed, later, read, longer⟩, same⟩ := appending.lengthens found
  have again := appending.congr same wellFormed
  rw [(run_of_isOk appending.resolved).2]
  have revises := revises_remember config now registry (reported config registry requested values session)
    (carriedOut config registry requested values session).2
  obtain ⟨location, content, located, file⟩ := Tree.exists_file_of_existingText read
  have stands := Tree.look_eq_ok_iff.mpr ⟨location, located, file⟩
  have still := revises.look_of_apart again.appends.followable again.apart stands
  refine ⟨later, again.congr (revises.sameLinks (again.appends.followable.start _))
    (wellFormed_remember wellFormed), ?_, longer⟩
  rw [Tree.existingText_congr (still.trans stands.symm), read]

end IsAppending

/-! ## Installing again and again -/

/-- A session in which a request is installed again and again, each time from the same context. -/
def installTimes (console : Console) (config : Config) (registry : Registry) (times : Nat → String)
    (requested : List String) (values : List (String × Entries)) (session : Session) : Nat → Session
  | 0 => session
  | count + 1 =>
    let before := installTimes console config registry times requested values session count
    { session with workspace :=
      (Attended.left (Attended.run console config registry (times count) requested values before)).workspace }

/-- All that installations show is shown, and templates keep the values that they are handed. -/
structure AreShown (console : Console) (config : Config) (registry : Registry) (times : Nat → String)
    (requested : List String) (values : List (String × Entries)) (session : Session) : Prop where
  keeps : session.workspace.renderings.KeepContext
  shows : ∀ count, console.Shows
    (run config registry (times count) requested values
      (installTimes console config registry times requested values session count)).2.workspace.shown

variable {console : Console} {times : Nat → String}

/-- Every installation starts from the same context. -/
theorem context_installTimes (console : Console) (times : Nat → String) (count : Nat) :
    (installTimes console config registry times requested values session count).context = session.context := by
  cases count <;> rfl

namespace AreShown

variable (shown : AreShown console config registry times requested values session)

include shown

/-- An installation whose lines are shown does what it does without a console, if it finds renderings that are left
of those at the start. -/
theorem does (count : Nat)
    (left : session.workspace.renderings.Leaves
      (installTimes console config registry times requested values session count).workspace.renderings) :
    Attended.DoesIn console (Attended.run console config registry (times count) requested values)
        (run config registry (times count) requested values)
        (installTimes console config registry times requested values session count)
      ∧ (installTimes console config registry times requested values session (count + 1)).workspace
        = (run config registry (times count) requested values
            (installTimes console config registry times requested values session count)).2.workspace := by
  have done : Attended.DoesIn console _ _ _ := Attended.does_run config registry (times count) requested values
    (installTimes console config registry times requested values session count) (shown.keeps.of_leaves left)
  exact ⟨done, by rw [installTimes, done.of_shows (shown.shows count), Attended.left_ended]⟩

/-- Every installation finds renderings that are left. -/
theorem leaves (count : Nat) :
    session.workspace.renderings.Leaves
      (installTimes console config registry times requested values session count).workspace.renderings := by
  induction count with
  | zero => exact .refl _
  | succ count inductionHypothesis =>
      obtain ⟨done, same⟩ := shown.does count inductionHypothesis
      rw [same]
      exact inductionHypothesis.trans done.continues.left

/-- Every installation leaves what it leaves without a console. -/
theorem workspace_eq (count : Nat) :
    (installTimes console config registry times requested values session (count + 1)).workspace
      = (run config registry (times count) requested values
          (installTimes console config registry times requested values session count)).2.workspace :=
  (shown.does count (shown.leaves count)).2

end AreShown

/-- A block with a carriage return is appended by every installation: after any number of them the file has
grown by at least that number of characters. -/
theorem installTimes_grows (shown : AreShown console config registry times requested values session)
    (appending : IsAppending config registry requested values session.context session.workspace.tree
      descriptor path content target block)
    (found : session.workspace.tree.existingText target.path = .ok (some text)) (count : Nat) :
    ∃ later,
      (installTimes console config registry times requested values session count).workspace.tree.existingText
          target.path = .ok (some later)
        ∧ text.length + count ≤ later.length := by
  suffices grown : ∃ later,
      IsAppending config registry requested values session.context
          (installTimes console config registry times requested values session count).workspace.tree descriptor
          path content target block
        ∧ (installTimes console config registry times requested values session count).workspace.tree.existingText
          target.path = .ok (some later)
        ∧ text.length + count ≤ later.length by
    obtain ⟨later, _, read, long⟩ := grown
    exact ⟨later, read, long⟩
  induction count with
  | zero => exact ⟨text, appending, found, Nat.le_refl _⟩
  | succ count inductionHypothesis =>
      obtain ⟨before, still, read, long⟩ := inductionHypothesis
      rw [← context_installTimes console times count] at still
      obtain ⟨later, again, reread, longer⟩ := still.grows read (times count)
      rw [context_installTimes, ← shown.workspace_eq] at again
      rw [← shown.workspace_eq] at reread
      exact ⟨later, again, reread, Nat.lt_of_le_of_lt long longer⟩

/-- A project with notes, and with the folder of the state file. -/
def docsTree : Tree :=
  ⟨[(["proj"], .folder), (["proj", ".stackforge"], .folder),
    (["proj", "NOTES.md"], .file "one\n".toUTF8)], []⟩

/-- The file of the notes. -/
def docsTarget : Target := ⟨"NOTES.md", ⟨.root, ["proj", "NOTES.md"]⟩⟩

/-- A module that appends a line to the notes. -/
def docsModule : Module :=
  ⟨"docs", "", "", .other, "", [], [], [], [], [.always (.appendToFile "NOTES.md" "two\r\n")], none⟩

/-- The registry of this module. -/
def docs : Registry := (Registry.empty.registerAll [docsModule]).1

/-- No node of the project is a link. -/
theorem unlinked_docsTree (location : Location) (target : String) :
    docsTree.node? location ≠ some (.link target) := by
  intro linked
  have nonempty : location ≠ [] := by
    rintro rfl
    cases linked
  have member := Tree.mem_nodes nonempty linked
  simp [docsTree] at member

/-- So paths can be followed in it. -/
theorem isFollowable_docsTree : docsTree.IsFollowable :=
  Tree.isFollowable_of_unlinked (Tree.isResolved_root docsTree) unlinked_docsTree

/-- The notes are where their path says. -/
theorem locate_docsTarget : docsTree.locate true docsTarget.path = .ok ["proj", "NOTES.md"] := by
  rw [Tree.locate_eq_ok_iff]
  exact ⟨by decide, by decide,
    .down rfl (by decide) (by decide) rfl (fun _ => Node.noConfusion)
      (.down rfl (by decide) (by decide) rfl (fun _ => Node.noConfusion) .arrive)⟩

/-- The notes hold one line. -/
theorem existingText_docsTarget : docsTree.existingText docsTarget.path = .ok (some "one\n") :=
  Tree.existingText_of_file locate_docsTarget rfl (by decide)

/-- The path of the notes is resolved to them. -/
theorem resolve_docsTarget : docsTree.resolve docsTarget.path = .ok ["proj", "NOTES.md"] :=
  isFollowable_docsTree.resolve_pathOf
    ⟨by decide, fun above _ target => unlinked_docsTree above target⟩ (by decide)

/-- In every context of the project the notes are the target of their name. -/
theorem ofTemplate_docsTarget {context : Context} (root : context.project.root = ⟨.relative, ["proj"]⟩) :
    Target.ofTemplate docsTree context .appendToFile "NOTES.md" = .ok docsTarget := by
  have home : docsTree.resolve context.project.root = .ok ["proj"] := by
    rw [root]
    cbv
  rw [Target.ofTemplate_unbraced (by decide) (by cbv) rfl]
  exact Target.inside_child home (by cbv) resolve_docsTarget

/-- The notes are no file of variables. -/
theorem plain_docsTarget : MergeStrategy.isEnvFile (Path.ofText docsTarget.label) = false := by cbv

/-- The path of the state file is resolved to its place in the project. -/
theorem resolve_statePath_docsTree :
    docsTree.resolve projConfig.statePath = .ok ["proj", ".stackforge", "install-state.json"] := by
  have straight : docsTree.IsResolved ["proj", ".stackforge", "install-state.json"] :=
    ⟨by decide, fun above _ target => unlinked_docsTree above target⟩
  have resolves : docsTree.Resolves [] ["proj", ".stackforge", "install-state.json"]
      ([] ++ ["proj", ".stackforge", "install-state.json"]) := straight.resolves
  rw [statePath_projConfig]
  exact isFollowable_docsTree.resolve_of_resolves (by decide) resolves

/-- Every node of the project stands in a folder. -/
theorem wellFormed_docsTree : docsTree.WellFormed :=
  Tree.wellFormed_of_nodes rfl
    (List.forall_mem_cons.mpr ⟨rfl, List.forall_mem_cons.mpr ⟨rfl, List.forall_mem_singleton.mpr rfl⟩⟩)

/-- The module appends a line with a carriage return to the notes. -/
theorem isAppending_docs :
    IsAppending projConfig docs ["docs"] [] (sessionIn docsTree).context (sessionIn docsTree).workspace.tree
      docsModule "NOTES.md" "two\r\n" docsTarget "two\r\n" where
  resolved := by cbv
  only := by cbv
  complete := by cbv
  blueprint := rfl
  appends :=
    { wellFormed := wellFormed_docsTree
      followable := isFollowable_docsTree
      named := ofTemplate_docsTarget rfl
      plain := plain_docsTarget
      rendered := Target.rendered_unbraced _ _ _ (by decide)
      returns := by decide }
  apart := by
    change docsTree.resolve docsTarget.path ≠ docsTree.resolve projConfig.statePath
    rw [resolve_docsTarget, resolve_statePath_docsTree]
    decide

/-- All that their installations show is shown on an open console. -/
theorem areShown_docsTree (registry : Registry) (requested : List String) :
    AreShown openConsole projConfig registry (fun _ => "now") requested [] (sessionIn docsTree) :=
  ⟨Renderings.keepContext_none, fun _ => shows_openConsole _⟩

/-- Whatever the notes hold, there is no state file, and it can be made. -/
theorem stateFile_docsTree (content : ByteArray) :
    (docsTree.put ["proj", "NOTES.md"] (.file content)).pathExists projConfig.statePath = .ok false
      ∧ (docsTree.put ["proj", "NOTES.md"] (.file content)).IsWritable projConfig.statePath := by
  have located : (docsTree.put ["proj", "NOTES.md"] (.file content)).locate true projConfig.statePath
      = .ok ["proj", ".stackforge", "install-state.json"] := by
    rw [(locate_statePath _).1]
    exact (Tree.Leads.down rfl (by decide) (by decide) rfl (fun _ => Node.noConfusion)
      (.down rfl (by decide) (by decide) rfl (fun _ => Node.noConfusion)
        (.missing rfl (by decide) (by decide) rfl))).walk
  have free : (docsTree.put ["proj", "NOTES.md"] (.file content)).node?
      ["proj", ".stackforge", "install-state.json"] = none := rfl
  constructor
  · simp [Tree.pathExists, Tree.test, Tree.look, located, free, bind, Except.bind]
  · have parent := Tree.look_parent located (parts_statePath_ne_nil projConfig)
    refine ⟨_, Tree.makeFolders_of_look parent, fun saved =>
      ⟨(docsTree.put ["proj", "NOTES.md"] (.file content)).put
        ["proj", ".stackforge", "install-state.json"] (.file saved), ?_⟩⟩
    rw [Tree.write, located]
    simp only [free]

/-- A module that runs with success and writes the notes is installed. -/
theorem run_of_put {result : Report} {content : ByteArray} (resolved : (registry.resolve requested).isOk = true)
    (outcomes : (carriedOut projConfig registry requested [] (sessionIn docsTree)).1
      = [(descriptor.id, .ran result)])
    (success : result.isSuccess = true)
    (left : (carriedOut projConfig registry requested [] (sessionIn docsTree)).2.workspace.tree
      = docsTree.put ["proj", "NOTES.md"] (.file content)) :
    ∃ report after, Attended.run openConsole projConfig registry now requested [] (sessionIn docsTree)
        = .ok report after
      ∧ report.isSuccess = true := by
  obtain ⟨absent, writable⟩ := stateFile_docsTree content
  rw [← left] at absent writable
  have held : (carriedOut projConfig registry requested [] (sessionIn docsTree)).2.context.HoldsJson :=
    holdsJson_carriedOut nothing_given (nothing_supplied docsTree)
  have remembered : (remember projConfig now registry (reported projConfig registry requested [] (sessionIn docsTree))
      (carriedOut projConfig registry requested [] (sessionIn docsTree)).2).1 = .ok () :=
    remember_of_isUsable (.inl absent) (fun _ => writable) held fun _ => whole_of_absent absent held
  have answer : (run projConfig registry now requested [] (sessionIn docsTree)).1
      = .ok (reported projConfig registry requested [] (sessionIn docsTree)) := by
    rw [(run_of_isOk resolved).1, remembered]
    rfl
  have attended := (Attended.does_run projConfig registry now requested [] (sessionIn docsTree)
    Renderings.keepContext_none).of_shows (shows_openConsole _)
  refine ⟨_, _, attended.trans (Attended.ended_of_ok answer), ?_⟩
  simp [reported, outcomes, InstallReport.isSuccess, InstallReport.isAborted, resolved, InstallReport.failed,
    InstallReport.skipped, ModuleOutcomes.idsWhere, ModuleOutcome.isFailed, ModuleOutcome.isSkipped, success]

/-- The module can be installed. -/
theorem run_docs :
    ∃ report after, Attended.run openConsole projConfig docs "now" ["docs"] [] (sessionIn docsTree)
        = .ok report after
      ∧ report.isSuccess = true := by
  obtain ⟨result, success, outcomes, ⟨⟨location, content, located, left⟩, _, _⟩, _⟩ :=
    isAppending_docs.lengthens existingText_docsTarget
  obtain rfl := Except.ok.inj (locate_docsTarget.symm.trans located)
  exact run_of_put isAppending_docs.resolved outcomes success left

/-- The first installation succeeds, and the second one leaves another text than the first. -/
theorem install_twice_differs :
    ∃ report after first second,
      Attended.run openConsole projConfig docs "now" ["docs"] [] (sessionIn docsTree) = .ok report after
        ∧ report.isSuccess = true
        ∧ (installTimes openConsole projConfig docs (fun _ => "now") ["docs"] [] (sessionIn docsTree)
            1).workspace.tree.existingText docsTarget.path = .ok (some first)
        ∧ (installTimes openConsole projConfig docs (fun _ => "now") ["docs"] [] (sessionIn docsTree)
            2).workspace.tree.existingText docsTarget.path = .ok (some second)
        ∧ first ≠ second := by
  obtain ⟨report, after, answer, success⟩ := run_docs
  have shown := areShown_docsTree docs ["docs"]
  let once := installTimes openConsole projConfig docs (fun _ => "now") ["docs"] [] (sessionIn docsTree) 1
  obtain ⟨first, still, read, _⟩ := isAppending_docs.grows existingText_docsTarget "now"
  have same : once.workspace = _ := shown.workspace_eq 0
  have again : IsAppending projConfig docs ["docs"] [] once.context once.workspace.tree docsModule "NOTES.md"
    "two\r\n" docsTarget "two\r\n" := by rw [same]; exact still
  have there : once.workspace.tree.existingText docsTarget.path = .ok (some first) := by rw [same]; exact read
  obtain ⟨second, _, reread, longer⟩ := again.grows there "now"
  have later : (installTimes openConsole projConfig docs (fun _ => "now") ["docs"] [] (sessionIn docsTree)
      2).workspace.tree.existingText docsTarget.path = .ok (some second) := by
    rw [shown.workspace_eq 1]
    exact reread
  exact ⟨report, after, first, second, answer, success, there, later,
    fun same => Nat.ne_of_lt longer (congrArg _ same)⟩

end Scaffold.Install
