import Scaffold.Proofs.Command.History
import Scaffold.Proofs.Execution.Variables
import Scaffold.Proofs.Merge.Overlay
import Scaffold.Proofs.Merge.Repeating
import Scaffold.Proofs.Text.Search

/-!
# Actions that install packages

A package is requested by its name, with or without a version behind it, and a request that is written down is read
as it was meant (`PackageRequest.ofText_text`).  Of requests for one package the last one counts.  They are merged
into a section of the manifest, which keeps everything else (`PackageRequest.recorded_deepMerge`), and then handed
over to the package manager, all of them and in order (`attempt_installPackages`).
-/

namespace Scaffold

/-- A package that is wanted, in some version or any. -/
structure PackageRequest where
  name : String
  version : Option String

namespace PackageRequest

/-- A request as it is written. -/
def text (request : PackageRequest) : String :=
  match request.version with
  | none => request.name
  | some version => request.name ++ "@" ++ version

/-- The version that is recorded for a request. -/
def wanted (request : PackageRequest) : String := request.version.getD "latest"

/-- A request that can be read back: its name has no `@` behind its first character, and nothing is blank around
it. -/
structure IsProper (request : PackageRequest) : Prop where
  named : request.name ≠ ""
  single : '@' ∉ request.name.toList.tail
  versioned : request.version ≠ some ""
  bare : Text.trim request.text.toList = request.text.toList

/-- The version that the last request for a package wants. -/
def lastWanted? (requests : List PackageRequest) (name : String) : Option String :=
  ((requests.filter fun request => request.name == name).getLast?).map wanted

variable {request : PackageRequest} {requests : List PackageRequest}

/-! ## Reading requests -/

/-- The characters of a request. -/
theorem toList_text (request : PackageRequest) :
    request.text.toList
      = Text.joinWith ['@'] (request.name.toList :: request.version.toList.map String.toList) := by
  rw [text]
  cases request.version with
  | none => rfl
  | some version => simp [Text.joinWith]

/-- The characters behind the name are those of the version, and there are some just if there is one. -/
theorem version_eq (proper : request.IsProper) :
    (if (Text.joinWith ['@'] (request.version.toList.map String.toList)).isEmpty then PackageSpec.latest
      else String.ofList (Text.joinWith ['@'] (request.version.toList.map String.toList))) = request.wanted := by
  have versioned := proper.versioned
  rw [wanted]
  cases found : request.version with
  | none => rfl
  | some version =>
      have nonempty : version ≠ "" := fun same => versioned (by rw [found, same])
      simp [Text.joinWith, nonempty]

/-- A request is read as its name and the version it wants. -/
theorem ofText_text (proper : request.IsProper) :
    PackageSpec.ofText request.text = ⟨request.name, request.wanted⟩ := by
  obtain ⟨c, rest, chars⟩ := List.exists_cons_of_ne_nil (mt String.toList_eq_nil_iff.mp proper.named)
  have single : '@' ∉ rest := by
    have absent := proper.single
    rwa [chars] at absent
  have name : String.ofList (c :: rest) = request.name := by rw [← chars, String.ofList_toList]
  rw [← version_eq proper, PackageSpec.ofText, proper.bare, toList_text, chars]
  generalize request.version.toList.map String.toList = more
  have apart : Text.joinWith ['@'] ((c :: rest) :: more) = c :: Text.joinWith ['@'] (rest :: more) := by
    cases more <;> rfl
  by_cases atSign : c = '@'
  · subst atSign
    rw [apart]
    simp only [Text.partitionAt_joinWith single]
    rw [List.singleton_append, name]
  · have absent : '@' ∉ c :: rest := by simp [single, Ne.symm atSign]
    dsimp only
    split
    next written =>
      rw [apart] at written
      exact absurd (List.cons.inj written).1 atSign
    next =>
      rw [Text.partitionAt_joinWith absent]
      dsimp only
      rw [List.nil_append, name]

/-! ## Versions -/

/-- The keys of recorded versions are distinct texts. -/
theorem named_versions (packages : List String) : (Plan.versions packages).Named :=
  Entries.named_nil.overlay (by simp [Entries.keys])

/-- A document can hold recorded versions. -/
theorem isDocument_versions (packages : List String) : Json.IsDocument (.mapping (Plan.versions packages)) := by
  refine .mapping (named_versions packages) fun entry member => ?_
  obtain ⟨source, among, same⟩ := Entries.mem_overlay member
  obtain ⟨written, _, rfl⟩ := List.mem_map.mp (by simpa using among)
  rw [← same]
  exact .scalar trivial

/-- Of the requests for a package the last one counts. -/
theorem field?_versions (proper : ∀ request ∈ requests, request.IsProper) (name : String) :
    (Plan.versions (requests.map text)).field? name = (lastWanted? requests name).map Value.text := by
  have read : (requests.map text).map (fun written =>
        let package := PackageSpec.ofText written
        ((.text package.name, .text package.version) : Scalar × Value))
      = requests.map fun request => (.text request.name, .text request.wanted) := by
    rw [List.map_map]
    refine List.map_congr_left fun request member => ?_
    simp only [Function.comp_apply, ofText_text (proper request member)]
  have sameName : (fun entry : Scalar × Value => entry.1 == .text name)
        ∘ (fun request : PackageRequest => (.text request.name, .text request.wanted))
      = fun request => request.name == name := by
    funext request
    rw [Bool.eq_iff_iff]
    simp
  rw [Plan.versions, read, Entries.field?, Entries.ofPairs, Entries.get?_overlay_of_texts (by simp [Entries.keys]),
    List.filter_map, sameName, List.getLast?_map, lastWanted?, Entries.get?_nil, Option.or_none, Option.map_map,
    Option.map_map]
  rfl

/-- Between two objects of a manifest requests were recorded in a section: a requested package has the version that
the last request for it wants, and everything else is kept. -/
structure Recorded (field : String) (requests : List PackageRequest) (before after : Entries) : Prop where
  requested : ∃ versions : Entries, after.field? field = some (.mapping versions) ∧ ∀ name, versions.field? name
    = ((lastWanted? requests name).map Value.text).or ((entriesOf (before.field? field)).field? name)
  kept : ∀ other, other ≠ field → after.field? other = before.field? other

/-- Requests are recorded by the deep merge of their versions. -/
theorem recorded_deepMerge (proper : ∀ request ∈ requests, request.IsProper) (field : String) (current : Entries) :
    Recorded field requests current
      (deepMerge current [(.text field, .mapping (Plan.versions (requests.map text)))]) := by
  have single : deepMerge current [(.text field, .mapping (Plan.versions (requests.map text)))]
      = current.insert (.text field) (.mapping
        (deepMerge (entriesOf (current.field? field)) (Plan.versions (requests.map text)))) := by
    rw [deepMerge_cons, mergeOver_mapping]
    rfl
  rw [single]
  refine ⟨⟨_, (Entries.get?_insert ..).trans (if_pos rfl), fun name => ?_⟩,
    fun other differs => (Entries.get?_insert ..).trans (if_neg differs)⟩
  have version := field?_versions proper name
  rw [Entries.field?] at version
  rw [Entries.field?, get?_deepMerge_of_named (named_versions _), version]
  cases lastWanted? requests name with
  | none => rfl
  | some wanted => exact congrArg some (mergeOver_other _ nofun)

/-- Where versions of requests were merged into a manifest, the requests are recorded. -/
theorem exists_recorded {tree left : Tree} {path : Path} {field : String} {changed : Bool}
    (wellFormed : tree.WellFormed) (proper : ∀ request ∈ requests, request.IsProper)
    (merged : tree.mergeData path [(.text field, .mapping (Plan.versions (requests.map text)))] MergeMode.deep.name
      = (.ok changed, left)) :
    ∃ before after, tree.HasObject path before ∧ left.HasObject path after
      ∧ Recorded field requests before after := by
  obtain ⟨mode, before, sameName, has, form, _, written⟩ := Tree.exists_of_mergeData wellFormed merged
  obtain rfl : mode = .deep := by
    cases mode with
    | deep => rfl
    | shallow => exact absurd sameName (by decide)
    | replace => exact absurd sameName (by decide)
  have data : Json.IsDocument (.mapping [(.text field, .mapping (Plan.versions (requests.map text)))]) :=
    (Value.consists_empty _).insert (isDocument_versions _)
  have together : Json.IsDocument (.mapping (deepMerge before
      [(.text field, .mapping (Plan.versions (requests.map text)))])) := by
    obtain ⟨_, mended, document, same⟩ :=
      exists_of_hasForm_deepMerge has.isReading (.inr (data.mono fun _ _ => trivial)) form
    rw [same]
    exact data.lays.deepMerge document
  exact ⟨before, _, has, ⟨_, written, parseStructured_printed together⟩, recorded_deepMerge proper field before⟩

end PackageRequest

/-! ## The action -/

/-- The section of the manifest that packages are recorded in. -/
def packageSection (dev : Bool) : String := if dev then "devDependencies" else "dependencies"

/-- The packages are the last words of the command that installs them. -/
theorem PackageManager.suffix_installWords (manager : PackageManager) (packages : List String) (dev : Bool) :
    packages <:+ manager.installWords packages dev := by
  rw [installWords]
  exact ⟨_, rfl⟩

variable {context : Context} {packages texts : List String} {dev skipInstall : Bool} {plan : Plan}

/-- The plan of the action records the packages and hands them over to the package manager. -/
theorem Plan.eq_of_installPackages (rendered : renderedAll context "" .installPackages packages = .ok texts)
    (found : installPackages context skipInstall packages dev = .ok plan) :
    plan = ⟨[⟨Target.packageManifest context.project.root,
        .mergeData [(.text (packageSection dev), .mapping (versions texts))] .deep⟩],
      if skipInstall then none else some (.install texts dev context.project.root.text)⟩ := by
  rw [installPackages, rendered] at found
  exact (Except.ok.inj found).symm

namespace Execution

variable {options : RunOptions} {workspace done : Workspace} {effect : Effect} {folder : String}
  {requests : List PackageRequest}

/-- Where packages were installed, one command was launched, which ends with them. -/
theorem launches_install (launched : workspace.launch (some (.install packages dev folder)) = (.ok (), done)) :
    ∃ manager : PackageManager, done.runner.launches = workspace.runner.launches
      ++ [⟨manager.installWords packages dev, folder, workspace.runner.config.timeout⟩] := by
  have performs := Runner.Call.performs workspace.runner workspace.tree (.install packages folder dev true)
  rw [Runner.Call.perform] at performs
  rw [Workspace.launch, Job.launch] at launched
  cases installed : workspace.runner.install workspace.tree packages folder dev true with
  | mk answer runner =>
      rw [installed] at performs launched
      obtain ⟨answered, rfl⟩ := Prod.mk.inj launched
      cases performs with
      | rejected => cases answered
      | @launched launch _ _ _ asks launches =>
          obtain ⟨words, same⟩ := Runner.Call.words?_of_launch? asks
          obtain ⟨manager, _, sameWords⟩ := Option.map_eq_some_iff.mp words
          have single : launch
              = ⟨manager.installWords packages dev, folder, workspace.runner.config.timeout⟩ := by
            rw [sameWords]
            exact same
          exact ⟨manager, single ▸ launches.launches⟩

/-- An action that installs packages and succeeds has recorded them in the section of the manifest, which is a new
file or held an object, and has launched the package manager once with all of them, unless installing is turned
off. -/
theorem attempt_installPackages (wellFormed : workspace.tree.WellFormed)
    (rendered : Plan.renderedAll context "" .installPackages packages = .ok (requests.map PackageRequest.text))
    (proper : ∀ request ∈ requests, request.IsProper)
    (attempted : attempt options context workspace (.installPackages packages dev) = (effect, done))
    (success : effect.isSuccess = true) :
    let manifest := (Target.packageManifest context.project.root).path
    (∃ before after, workspace.tree.HasObject manifest before ∧ done.tree.HasObject manifest after
        ∧ PackageRequest.Recorded (packageSection dev) requests before after)
      ∧ if options.skipInstall then done.runner.launches = workspace.runner.launches
        else ∃ launch : Launch, done.runner.launches = workspace.runner.launches ++ [launch]
          ∧ launch.folder = context.project.root.text
          ∧ (∃ manager : PackageManager, launch.words = manager.installWords (requests.map PackageRequest.text) dev)
          ∧ requests.map PackageRequest.text <:+ launch.words := by
  obtain ⟨plan, touched, edited, found, made, launched, files⟩ := exists_of_attempt attempted success rfl
  obtain rfl := Plan.eq_of_installPackages rendered found
  obtain ⟨_, between, _, merged, sameRunner, onward⟩ := Workspace.editAll_cons_ok made
  obtain rfl := (Prod.mk.inj onward).2
  refine ⟨files ▸ PackageRequest.exists_recorded wellFormed proper merged, ?_⟩
  cases skips : options.skipInstall with
  | true =>
      rw [skips] at launched
      obtain rfl := (Prod.mk.inj launched).2
      exact congrArg Runner.launches sameRunner
  | false =>
      rw [skips] at launched
      obtain ⟨manager, launches⟩ := launches_install launched
      rw [sameRunner] at launches
      exact ⟨_, launches, rfl, ⟨manager, rfl⟩, manager.suffix_installWords _ dev⟩

/-- A workspace with nothing but the folder of the project, in which commands succeed. -/
def online : Workspace := { offline with runner := .start ⟨some .npm, 60⟩ false [] }

/-- Requests for two packages, one of them twice. -/
def demoRequests : List PackageRequest :=
  [⟨"@types/node", some "20"⟩, ⟨"zod", none⟩, ⟨"zod", some "npm:zod@3"⟩]

/-- The manifest in which they are recorded. -/
def demoManifest : String :=
  "\x7b\n  \"dependencies\": \x7b\n    \"@types/node\": \"20\",\n    \"zod\": \"npm:zod@3\"\n  \x7d\n\x7d\n"

/-- In the workspace the requests can be recorded. -/
theorem recorded_online :
    (Change.mergeData [(.text "dependencies", .mapping (Plan.versions (demoRequests.map PackageRequest.text)))]
        .deep).makeAt online.tree (Target.packageManifest demoContext.project.root).path
      = (.ok true, online.tree.put ["proj", "package.json"] (.file demoManifest.toUTF8)) := by
  have located : online.tree.locate true ⟨.relative, ["proj", "package.json"]⟩
      = .ok ["proj", "package.json"] := by
    rw [Tree.locate_eq_ok_iff]
    exact ⟨by decide, by decide,
      .down rfl (by decide) (by decide) rfl (fun _ => Node.noConfusion)
        (.missing rfl (by decide) (by decide) rfl)⟩
  exact Tree.revise_of_absent (look_proj rfl rfl) located rfl (by cbv)

/-- The package manager succeeds wherever it is launched. -/
theorem launch_online (tree : Tree) (home : tree.home = []) (stands : tree.node? ["proj"] = some .folder)
    (packages : List String) :
    ∃ done, ({ online with tree } : Workspace).launch (some (.install packages false "proj")) = (.ok (), done) := by
  have path : Path.ofText "proj" = ⟨.relative, ["proj"]⟩ := by cbv
  have folder : tree.isFolder (Path.ofText "proj") = .ok true := by
    rw [path, Tree.isFolder, Tree.test, look_proj home stands]
  simp only [Workspace.launch, Job.launch, Runner.install, Runner.packageManager, online, Runner.start, Runner.run,
    PackageManager.installWords, folder]
  exact ⟨_, rfl⟩

/-- Of two requests for a package the last one is recorded, and both are handed over to the package manager. -/
theorem attempt_installPackages_twice :
    online.tree.WellFormed
      ∧ Plan.renderedAll demoContext "" .installPackages ["@types/node@20", "zod", "zod@npm:zod@3"]
        = .ok (demoRequests.map PackageRequest.text)
      ∧ (∀ request ∈ demoRequests, request.IsProper)
      ∧ ∃ effect done, attempt ⟨false, false⟩ demoContext online
          (.installPackages ["@types/node@20", "zod", "zod@npm:zod@3"] false) = (effect, done)
        ∧ effect.isSuccess = true
        ∧ ∃ (after versions : Entries) (launch : Launch),
          done.tree.HasObject (Target.packageManifest demoContext.project.root).path after
            ∧ after.field? "dependencies" = some (.mapping versions)
            ∧ versions.field? "zod" = some (.text "npm:zod@3")
            ∧ done.runner.launches = [launch]
            ∧ ["@types/node@20", "zod", "zod@npm:zod@3"] <:+ launch.words := by
  have wellFormed : online.tree.WellFormed :=
    Tree.wellFormed_of_nodes rfl (by simp [online, offline, Tree.node?])
  have rendered : Plan.renderedAll demoContext "" .installPackages ["@types/node@20", "zod", "zod@npm:zod@3"]
      = .ok (demoRequests.map PackageRequest.text) := by cbv
  have proper : ∀ request ∈ demoRequests, request.IsProper := by
    simp only [demoRequests, List.forall_mem_cons]
    exact ⟨⟨by decide, by decide, by decide, by decide⟩,
      ⟨by decide, by decide, by decide, by decide⟩,
      ⟨by decide, by decide, by decide, by decide⟩, List.forall_mem_nil _⟩
  have planned : Plan.ofOperation online.tree demoContext false
        (.installPackages ["@types/node@20", "zod", "zod@npm:zod@3"] false)
      = .ok (some ⟨[⟨Target.packageManifest demoContext.project.root, .mergeData
          [(.text "dependencies", .mapping (Plan.versions (demoRequests.map PackageRequest.text)))] .deep⟩],
        some (.install (demoRequests.map PackageRequest.text) false "proj")⟩) := by
    rw [Plan.ofOperation, Plan.installPackages, rendered]
    rfl
  obtain ⟨done, launched⟩ := launch_online
    (online.tree.put ["proj", "package.json"] (.file demoManifest.toUTF8)) rfl rfl
    (demoRequests.map PackageRequest.text)
  have attempted : attempt ⟨false, false⟩ demoContext online
      (.installPackages ["@types/node@20", "zod", "zod@npm:zod@3"] false)
        = (.applied ["package.json"], done) := by
    rw [attempt_of_ofOperation planned]
    exact carryOut_of_launched recorded_online launched
  obtain ⟨⟨before, after, _, has, recorded⟩, launch, launches, _, _, ends⟩ :=
    attempt_installPackages wellFormed rendered proper attempted rfl
  obtain ⟨versions, stands, version⟩ := recorded.requested
  exact ⟨wellFormed, rendered, proper, _, _, attempted, rfl, after, versions, launch, has, stands, version "zod",
    launches, ends⟩

end Execution

end Scaffold
