import Scaffold.Host.Libraries
import Scaffold.Proofs.Computation
import Scaffold.Proofs.Tree.Walk

/-!
# Loading folders of manifests

A folder of manifests is loaded up to the first file that gives no module.  What stops the loading is a fault that is
reported (`RegistryFault`) exactly if that file is legible: it is a file of characters, and its text is read or is no
document (`isReported_ofFolder_iff`), whichever library reads documents and checks manifests.  The files are chosen
by their names alone (`mem_manifestNames_iff`), so a folder with the name of a manifest is not legible either.
-/

namespace Scaffold

namespace Registry

variable {documents : Documents} {schema : Schema} {tree : Tree} {file folder : Path} {location : Location}
  {names : List String}

/-- What is loaded is there, or the fault about it is reported. -/
def IsReported {Result : Type} (outcome : Except LoadFault Result) : Prop :=
  (∃ result, outcome = .ok result) ∨ ∃ fault, outcome = .error (.registry fault)

/-- A file of characters.  If its text is not read, then because it is no document. -/
def IsLegible (documents : Documents) (tree : Tree) (file : Path) : Prop :=
  ∃ content text, tree.look file = .ok (.file content) ∧ Text.decode content = .ok text
    ∧ ∀ fault, documents (String.ofList (Text.unifyLineEnds text.toList)) = .error fault →
      ∃ reason, fault = .malformed reason

/-! ## One file -/

/-- A file of characters is read as its characters, the line ends unified. -/
theorem readText_of_decode {content : ByteArray} {text : String} (found : tree.look file = .ok (.file content))
    (decoded : Text.decode content = .ok text) :
    tree.readText file = .ok (String.ofList (Text.unifyLineEnds text.toList)) := by
  simp only [Tree.readText, Tree.read, found, decoded, Except.mapError, bind, Except.bind]
  rfl

/-- A fault is reported exactly if it is one of the registry, whatever was to be loaded. -/
theorem isReported_error_iff {Result : Type} {fault : LoadFault} :
    IsReported (.error fault : Except LoadFault Result) ↔ ∃ reported, fault = .registry reported := by
  constructor
  · rintro (⟨_, ⟨⟩⟩ | ⟨reported, found⟩)
    exact ⟨reported, Except.error.inj found⟩
  · rintro ⟨reported, rfl⟩
    exact .inr ⟨reported, rfl⟩

/-- Loading in two parts is reported if the first part is, and the second one behind it. -/
theorem isReported_bind_iff {Middle Result : Type} {first : Except LoadFault Middle}
    {next : Middle → Except LoadFault Result} : IsReported (first >>= next)
      ↔ IsReported first ∧ ∀ middle, first = .ok middle → IsReported (next middle) := by
  cases first with
  | error fault =>
      refine Iff.trans ?_ (and_iff_left (by rintro _ ⟨⟩)).symm
      exact isReported_error_iff.trans isReported_error_iff.symm
  | ok middle =>
      refine ⟨fun reported => ⟨.inl ⟨middle, rfl⟩, ?_⟩, fun reported => reported.2 middle rfl⟩
      rintro _ ⟨⟩
      exact reported

/-- What fails in another wording is reported exactly if it does not fail, or in the wording of the registry. -/
theorem isReported_mapError_iff {Fault Result : Type} {computed : Except Fault Result} {wording : Fault → LoadFault} :
    IsReported (computed.mapError wording)
      ↔ ∀ fault, computed = .error fault → ∃ reported, wording fault = .registry reported := by
  cases computed with
  | ok result => exact iff_of_true (.inl ⟨result, rfl⟩) (by rintro _ ⟨⟩)
  | error fault =>
      refine isReported_error_iff.trans ⟨?_, fun all => all fault rfl⟩
      rintro reported _ ⟨⟩
      exact reported

/-- The value of a document is reported exactly if nothing goes wrong but that the text is none. -/
theorem isReported_ofDocument_iff (malformed : String → RegistryFault) (text : String) :
    IsReported ((documents text).mapError (LoadFault.ofDocument malformed))
      ↔ ∀ fault, documents text = .error fault → ∃ reason, fault = .malformed reason := by
  rw [isReported_mapError_iff]
  refine forall₂_congr fun fault _ => ?_
  cases fault with
  | malformed reason => exact iff_of_true ⟨malformed reason, rfl⟩ ⟨reason, rfl⟩
  | value | raised => exact iff_of_false (by rintro ⟨_, ⟨⟩⟩) (by rintro ⟨_, ⟨⟩⟩)

/-- The text of a file is reported exactly if it is a file of characters. -/
theorem isReported_readText_iff : IsReported ((tree.readText file).mapError .unreadable)
    ↔ ∃ text, tree.readText file = .ok text := by
  rw [isReported_mapError_iff]
  cases tree.readText file with
  | ok text => exact iff_of_true (by rintro _ ⟨⟩) ⟨text, rfl⟩
  | error failure =>
      refine iff_of_false (fun all => ?_) (by rintro ⟨_, ⟨⟩⟩)
      obtain ⟨_, ⟨⟩⟩ := all failure rfl

/-- A file is legible exactly if it has a text that is read or is no document. -/
theorem isLegible_iff : IsLegible documents tree file ↔ ∃ text, tree.readText file = .ok text
    ∧ ∀ fault, documents text = .error fault → ∃ reason, fault = .malformed reason := by
  constructor
  · rintro ⟨content, text, found, decoded, valued⟩
    exact ⟨_, readText_of_decode found decoded, valued⟩
  · rintro ⟨text, readable, valued⟩
    obtain ⟨content, decoded, found, decodes, rfl⟩ := Tree.readText_eq_ok readable
    exact ⟨content, decoded, found, decodes, valued⟩

/-- The module of a file is there, or the fault about it is reported, exactly if the file is legible. -/
theorem isReported_readManifest_iff (documents : Documents) (schema : Schema) (tree : Tree) (file : Path) :
    IsReported (readManifest documents schema tree file) ↔ IsLegible documents tree file := by
  rw [readManifest, isReported_bind_iff, isReported_readText_iff, isLegible_iff]
  constructor
  · rintro ⟨⟨text, readable⟩, reported⟩
    have valued := (isReported_bind_iff.mp (reported text (by rw [readable]; rfl))).1
    exact ⟨text, readable, (isReported_ofDocument_iff _ _).mp valued⟩
  · rintro ⟨text, readable, valued⟩
    refine ⟨⟨text, readable⟩, fun other same => ?_⟩
    obtain rfl : text = other := Except.ok.inj (readable.symm.trans (eq_ok_of_mapError_eq_ok same))
    refine isReported_bind_iff.mpr ⟨(isReported_ofDocument_iff _ _).mpr valued, fun data _ => ?_⟩
    exact isReported_mapError_iff.mpr fun fault _ => ⟨_, rfl⟩

/-! ## The files of a folder -/

/-- The manifests below a location are the entries there whose names end as those of manifests. -/
theorem mem_manifestNames_iff : names ∈ manifestNames tree location
    ↔ names ≠ [] ∧ isManifest ⟨.relative, names⟩ = true ∧ ∃ node, (location ++ names, node) ∈ tree.nodes := by
  have below (entry : Location × Node) : (location.isPrefixOf entry.1 && location.length < entry.1.length) = true
      ↔ ∃ rest, entry.1 = location ++ rest ∧ rest ≠ [] := by
    rw [Bool.and_eq_true, List.isPrefixOf_iff_prefix, decide_eq_true_iff]
    constructor
    · rintro ⟨⟨rest, whole⟩, longer⟩
      refine ⟨rest, whole.symm, ?_⟩
      rintro rfl
      rw [← whole, List.append_nil] at longer
      exact absurd longer (Nat.lt_irrefl _)
    · rintro ⟨rest, whole, nonempty⟩
      rw [whole, List.length_append]
      exact ⟨List.prefix_append _ _, Nat.lt_add_of_pos_right (List.length_pos_iff.mpr nonempty)⟩
  have found : names ∈ (tree.descendants location).map (·.1)
      ↔ names ≠ [] ∧ ∃ node, (location ++ names, node) ∈ tree.nodes := by
    simp only [Tree.descendants, List.mem_map, List.mem_filterMap]
    constructor
    · rintro ⟨⟨found, node⟩, ⟨⟨whole, stands⟩, member, entry⟩, rfl⟩
      split at entry
      next inside =>
        obtain ⟨rest, rfl, nonempty⟩ := (below (whole, stands)).mp inside
        rw [List.drop_left, Option.some.injEq, Prod.mk.injEq] at entry
        obtain ⟨rfl, rfl⟩ := entry
        exact ⟨nonempty, stands, member⟩
      next => cases entry
    · rintro ⟨nonempty, node, member⟩
      refine ⟨(names, node), ⟨_, member, ?_⟩, rfl⟩
      rw [if_pos ((below (location ++ names, node)).mpr ⟨names, rfl, nonempty⟩)]
      simp
  rw [manifestNames, List.mem_mergeSort, List.mem_filter, found, and_right_comm, and_assoc]

/-- The manifest files of a folder are the manifests below it. -/
theorem manifestFiles_eq (isFolder : tree.look folder = .ok .folder) (place : tree.locate true folder = .ok location) :
    manifestFiles tree folder
      = .ok ((manifestNames tree location).map fun names => ⟨folder.root, folder.parts ++ names⟩) := by
  have tested : tree.isFolder folder = .ok true := by rw [Tree.isFolder, Tree.test, isFolder]
  rw [manifestFiles, tested, place]
  rfl

/-- Files are loaded one after the other up to the first that gives no module, and reported exactly if that one is. -/
theorem isReported_readManifests_iff (documents : Documents) (schema : Schema) (tree : Tree) (registry : Registry)
    (files : List Path) :
    IsReported (readManifests documents schema tree registry files).1
      ↔ ∀ before file after, files = before ++ file :: after →
        (∀ earlier ∈ before, ∃ descriptor, readManifest documents schema tree earlier = .ok descriptor) →
        IsLegible documents tree file := by
  induction files generalizing registry with
  | nil => exact iff_of_true (.inl ⟨registry, rfl⟩) (by simp)
  | cons file rest inductionHypothesis =>
      have legible := isReported_readManifest_iff documents schema tree file
      cases read : readManifest documents schema tree file with
      | error fault =>
          rw [read, isReported_error_iff] at legible
          rw [readManifests, read]
          refine isReported_error_iff.trans (legible.trans ⟨fun here => ?_, ?_⟩)
          -- Nothing behind a file without a module is read, so the file in question is this one.
          · rintro before other after whole loaded
            cases before with
            | nil => exact (List.cons.inj whole).1 ▸ here
            | cons first before =>
                obtain ⟨descriptor, found⟩ := loaded first List.mem_cons_self
                rw [← (List.cons.inj whole).1, read] at found
                cases found
          · exact fun all => all [] file rest rfl (List.forall_mem_nil _)
      | ok descriptor =>
          have here : IsLegible documents tree file := legible.mp (.inl ⟨descriptor, read⟩)
          rw [readManifests, read]
          refine (inductionHypothesis (registry.register descriptor)).trans ⟨fun all => ?_, fun all => ?_⟩
          · rintro before other after whole loaded
            cases before with
            | nil => exact (List.cons.inj whole).1 ▸ here
            | cons first before =>
                exact all before other after (List.cons.inj whole).2 fun earlier member =>
                  loaded earlier (List.mem_cons_of_mem _ member)
          · rintro before other after rfl loaded
            exact all (file :: before) other after rfl (List.forall_mem_cons.mpr ⟨⟨descriptor, read⟩, loaded⟩)

/-- The manifest files of a folder are found, or it is reported that there is none, unless a name is too long. -/
theorem isReported_manifestFiles_iff (tree : Tree) (folder : Path) :
    IsReported (manifestFiles tree folder) ↔ tree.look folder ≠ .error .nameTooLong := by
  have tested : IsReported ((tree.isFolder folder).mapError fun error => .unreadable (.file error))
      ↔ tree.look folder ≠ .error .nameTooLong := by
    rw [isReported_mapError_iff, Tree.isFolder, Tree.test]
    cases tree.look folder with
    | ok node => exact iff_of_true (by rintro _ ⟨⟩) (by rintro ⟨⟩)
    | error cause => cases cause <;> simp
  rw [manifestFiles, isReported_bind_iff, tested]
  refine and_iff_left fun isFolder _ => ?_
  split
  · exact .inl ⟨_, rfl⟩
  · exact .inr ⟨_, rfl⟩

/-- The loading of a folder is reported if every entry below it that ends as a manifest is legible. -/
theorem isReported_ofFolder (isFolder : tree.look folder = .ok .folder) (place : tree.locate true folder = .ok location)
    (legible : ∀ names node, (location ++ names, node) ∈ tree.nodes → isManifest ⟨.relative, names⟩ = true →
      IsLegible documents tree ⟨folder.root, folder.parts ++ names⟩) :
    IsReported (ofFolder documents schema tree folder).1 := by
  rw [ofFolder, manifestFiles_eq isFolder place]
  refine (isReported_readManifests_iff documents schema tree empty _).mpr fun before file after whole _ => ?_
  have among : file ∈ (manifestNames tree location).map fun names => ⟨folder.root, folder.parts ++ names⟩ := by
    rw [whole]
    exact List.mem_append_right before List.mem_cons_self
  obtain ⟨names, member, rfl⟩ := List.mem_map.mp among
  obtain ⟨_, manifest, node, stands⟩ := mem_manifestNames_iff.mp member
  exact legible names node stands manifest

/-- The registry of a folder is there, or the fault about it is reported, exactly if no name on the way to the folder is
too long and the first manifest file that gives no module, if there is one, is legible. -/
theorem isReported_ofFolder_iff (documents : Documents) (schema : Schema) (tree : Tree) (folder : Path) :
    ((∃ registry, (ofFolder documents schema tree folder).1 = .ok registry)
        ∨ ∃ fault, (ofFolder documents schema tree folder).1 = .error (.registry fault))
      ↔ tree.look folder ≠ .error .nameTooLong
        ∧ ∀ before file after, manifestFiles tree folder = .ok (before ++ file :: after) →
          (∀ earlier ∈ before, ∃ descriptor, readManifest documents schema tree earlier = .ok descriptor) →
          IsLegible documents tree file := by
  change IsReported (ofFolder documents schema tree folder).1 ↔ _
  have found := isReported_manifestFiles_iff tree folder
  rw [ofFolder]
  cases listed : manifestFiles tree folder with
  | error fault =>
      rw [listed] at found
      refine (isReported_error_iff.trans (isReported_error_iff.symm.trans found)).trans (and_iff_left ?_).symm
      rintro _ _ _ ⟨⟩
  | ok files =>
      rw [listed] at found
      simp only [Except.ok.injEq]
      exact (isReported_readManifests_iff documents schema tree empty files).trans
        (and_iff_right (found.mp (.inl ⟨files, rfl⟩))).symm

/-- A folder with a manifest whose only byte starts no character. -/
def brokenFolder : Tree :=
  ⟨[(["modules"], .folder), (["modules", "a.yaml"], .file ⟨#[0xff]⟩)], []⟩

/-- The paths of that folder and of its manifest lead there. -/
theorem locate_brokenFolder :
    brokenFolder.locate true ⟨.relative, ["modules"]⟩ = .ok ["modules"]
      ∧ brokenFolder.locate true ⟨.relative, ["modules", "a.yaml"]⟩ = .ok ["modules", "a.yaml"] := by
  rw [Tree.locate_eq_walk (by decide) (by decide), Tree.locate_eq_walk (by decide) (by decide)]
  simp [Tree.walk, Tree.node?, brokenFolder, Tree.startOf, Path.isAbsolute, Tree.maxName]
  decide

/-- The loading of that folder ends with a fault that is not reported. -/
theorem ofFolder_unreported :
    (ofFolder Host.Yaml.documents Host.schema brokenFolder ⟨.relative, ["modules"]⟩).1
      = .error (.unreadable (.encoding ⟨0xff, 0, 1, .startByte⟩)) := by
  obtain ⟨ofFolder, ofFile⟩ := locate_brokenFolder
  have names : manifestNames brokenFolder ["modules"] = [["a.yaml"]] := by decide +kernel
  have files : manifestFiles brokenFolder ⟨.relative, ["modules"]⟩ = .ok [⟨.relative, ["modules", "a.yaml"]⟩] := by
    rw [manifestFiles_eq (Tree.look_eq_ok_iff.mpr ⟨_, ofFolder, rfl⟩) ofFolder, names]
    rfl
  have decoded : Text.decode ⟨#[0xff]⟩ = .error ⟨0xff, 0, 1, .startByte⟩ := by decide +kernel
  have text : brokenFolder.readText ⟨.relative, ["modules", "a.yaml"]⟩
      = .error (.encoding ⟨0xff, 0, 1, .startByte⟩) := by
    rw [Tree.readText, Tree.read, Tree.look_eq_ok_iff.mpr ⟨_, ofFile, rfl⟩]
    simp only [decoded, Except.mapError, bind, Except.bind]
  rw [Registry.ofFolder, files]
  simp only [readManifests, readManifest, text, Except.mapError, bind, Except.bind]

end Registry

namespace CommandLine

open Registry (IsReported)

/-- A context is refused for its project or for its files. -/
theorem ne_load_of_contextOf {world : World} {arguments : Arguments} {tree : Tree} {root : Path} {crash : Crash}
    (refused : contextOf world arguments tree root = .error crash) (fault : LoadFault) : crash ≠ .load fault := by
  rcases eq_error_or_of_bind_eq_error refused with ofProject | ⟨project, _, refused⟩
  · obtain ⟨_, _, rfl⟩ := exists_of_mapError_eq_error ofProject
    exact Crash.noConfusion
  · rcases eq_error_or_of_bind_eq_error refused with ofLayout | ⟨_, _, ⟨⟩⟩
    obtain ⟨_, _, rfl⟩ := exists_of_mapError_eq_error ofLayout
    exact Crash.noConfusion

/-- An installation does not end in how its registry was loaded. -/
theorem ending_install_ne (world : World) (arguments : Arguments) (config : Config) (registry : Registry)
    (workspace : Workspace) (fault : LoadFault) :
    (install world arguments config registry workspace).ending ≠ .crash (.load fault) := by
  intro ends
  simp only [install] at ends
  split at ends
  · rw [endingOf] at ends
    split at ends <;> cases ends
  · split at ends
    · cases ends
    · split at ends
      · next refused => exact ne_load_of_contextOf refused fault (Ending.crash.inj ends)
      · split at ends
        · cases ends
        · split at ends <;> cases ends

/-- Nor does what is shown before an ending that is no crash. -/
theorem ending_showing_ne {world : World} {workspace : Workspace} {lines : List Shown} {ending : Ending}
    {fault : LoadFault} (other : ending ≠ .crash (.load fault)) :
    (showing world workspace lines ending).ending ≠ .crash (.load fault) := by
  rw [showing]
  split
  · rintro ⟨⟩
  · exact other

/-- A command line crashes on its registry exactly if the loading is not reported. -/
theorem serve_crashes_iff (world : World) (arguments : Arguments) (config : Config) :
    (∃ fault, (serve world arguments config).ending = .crash (.load fault))
      ↔ ¬IsReported (loadRegistry world (sourceOf arguments config)).1 := by
  rw [serve]
  generalize loadRegistry world (sourceOf arguments config) = loading
  obtain ⟨outcome, shown⟩ := loading
  cases outcome with
  | ok registry =>
      refine iff_of_false ?_ fun unreported => unreported (.inl ⟨registry, rfl⟩)
      rintro ⟨fault, ends⟩
      simp only at ends
      split at ends
      · exact ending_showing_ne (by rintro ⟨⟩) ends
      · split at ends
        · cases ends
        · exact ending_install_ne _ _ _ _ _ fault ends
  | error fault =>
      rw [Registry.isReported_error_iff]
      cases fault with
      | registry fault =>
          refine iff_of_false ?_ fun unreported => unreported ⟨fault, rfl⟩
          rintro ⟨other, ends⟩
          exact ending_showing_ne (by rintro ⟨⟩) ends
      | unreadable | document | longNumber | noRequest =>
          exact iff_of_true ⟨_, rfl⟩ (by rintro ⟨_, ⟨⟩⟩)

end CommandLine

end Scaffold
