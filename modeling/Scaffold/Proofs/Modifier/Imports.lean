import Scaffold.Proofs.Modifier.Requests
import Scaffold.Proofs.Computation
import Mathlib.Data.Bool.AllAny

/-!
# Laws of adding imports

A run reads its requests, takes them in order and inserts what is left to say (`run_eq_ok_iff`).  The new content
meets every wish, and it lists what was asked for first of each source that it did not list before
(`firstList?_added`).  So adding the same imports again changes nothing exactly if the requests cohere: those
whose source the content did not list name nothing that the first of them does not name (`run_again_iff`).
-/

namespace Scaffold.ImportAdd

open Scaffold.Text ImportStatement

variable {source content output : List Char} {request : Request} {requests : List Request}

/-! ## Reading requests -/

/-- What one value asks for. -/
def Request.ofValue? : Value → Option Request
  | .mapping entries => (Request.ofEntries [] entries).toOption
  | _ => none

/-- The requests of a run. -/
def requests? (arguments : Entries) : Option (List Request) :=
  match (argument? arguments ["imports", "importsToAdd"]).getD (.list []) with
  | .list values => values.mapM Request.ofValue?
  | _ => none

/-- The content decides only which fault a request has. -/
theorem Request.toOption_ofEntries (content : List Char) (entries : Entries) :
    (Request.ofEntries content entries).toOption = (Request.ofEntries [] entries).toOption := by
  unfold Request.ofEntries
  split
  · next source _ =>
    cases source.isEmpty with
    | true => rfl
    | false =>
        cases (filled? entries ["default"]).mapM nameOf with
        | error fault => rfl
        | ok default =>
            cases (filled? entries ["namespace"]).mapM nameOf with
            | error fault => rfl
            | ok whole =>
                cases filled? entries ["named"] with
                | none => rfl
                | some value =>
                    cases names : namesOf? value with
                    | none =>
                        simp [names]
                        rfl
                    | some texts => simp [names]
  · rfl

/-- Requests are applied in order if all of them can be read. -/
theorem applyAll_eq_ok_iff {pending : List String} {values : List Value} {result : List Char × List String} :
    applyAll content pending values = .ok result
      ↔ ∃ requests, values.mapM Request.ofValue? = some requests
        ∧ requests.foldl advance (content, pending) = result := by
  induction values generalizing content pending with
  | nil => simp [applyAll]
  | cons value rest inductionHypothesis =>
      rw [List.mapM_cons]
      cases value with
      | mapping entries =>
          have given := Request.toOption_ofEntries content entries
          rw [applyAll]
          cases asked : Request.ofEntries content entries with
          | error fault =>
              rw [asked] at given
              simp only [Request.ofValue?, ← given]
              refine iff_of_false (by rintro ⟨⟩) ?_
              rintro ⟨requests, read, _⟩
              cases read
          | ok request =>
              rw [asked] at given
              simp only [Request.ofValue?, ← given]
              refine inductionHypothesis.trans ?_
              constructor
              · rintro ⟨requests, read, applied⟩
                exact ⟨request :: requests, by rw [read]; rfl, applied⟩
              · rintro ⟨requests, read, applied⟩
                obtain ⟨_, same, onward⟩ := Option.bind_eq_some_iff.mp read
                obtain rfl := Option.some.inj same
                obtain ⟨others, read', whole⟩ := Option.bind_eq_some_iff.mp onward
                obtain rfl := Option.some.inj whole
                exact ⟨others, read', applied⟩
      | _ =>
          refine iff_of_false (by rintro ⟨⟩) ?_
          rintro ⟨requests, read, _⟩
          cases read

/-- The content with the imports of all requests. -/
def added (content : List Char) (requests : List Request) : List Char :=
  let state := requests.foldl advance (content, [])
  insert state.1 (state.2.map String.toList)

/-- A run succeeds if its requests can be read, and adds what they ask for. -/
theorem run_eq_ok_iff {content output : String} {arguments : Entries} : run content arguments = .ok output
    ↔ ∃ requests, requests? arguments = some requests ∧ added content.toList requests = output.toList := by
  rw [run, requests?]
  generalize (argument? arguments ["imports", "importsToAdd"]).getD (.list []) = given
  cases given with
  | list values =>
      simp only [addAll]
      constructor
      · intro done
        obtain ⟨⟨changed, statements⟩, applied, written⟩ := exists_of_bind_eq_ok done
        obtain ⟨requests, read, state⟩ := applyAll_eq_ok_iff.mp applied
        refine ⟨requests, read, ?_⟩
        rw [added, state, ← Except.ok.inj written, String.toList_ofList]
      · rintro ⟨requests, read, written⟩
        have applied : applyAll content.toList [] values = .ok (requests.foldl advance (content.toList, [])) :=
          applyAll_eq_ok_iff.mpr ⟨requests, read, rfl⟩
        rw [applied, ← String.ofList_toList (s := output), ← written]
        rfl
  | _ =>
      refine iff_of_false (by rintro ⟨⟩) ?_
      rintro ⟨requests, read, _⟩
      cases read

/-! ## The new content -/

/-- What the requests make of a plain content that has no statement yet. -/
theorem advances_added (plain : ∀ request ∈ requests, request.IsPlain) (lines : HasPlainLines content) :
    ∃ changed statements, Advances content [] requests changed statements
      ∧ (∀ statement ∈ statements.map String.toList, ∀ c ∈ statement, isLineEnd c = false)
      ∧ added content requests = ImportStatement.insert changed (statements.map String.toList) := by
  have advances := advances_foldl plain lines []
  refine ⟨_, _, advances, ?_, rfl⟩
  rw [List.forall_mem_map]
  exact fun statement member => (advances.single statement member).resolve_left List.not_mem_nil

/-- A plain content stays plain. -/
theorem hasPlainLines_added (plain : ∀ request ∈ requests, request.IsPlain) (lines : HasPlainLines content) :
    HasPlainLines (added content requests) := by
  obtain ⟨changed, statements, advances, single, whole⟩ := advances_added plain lines
  rw [whole]
  exact (bodies_insert advances.lines single).1

/-- Every wish of a request is met by the new content. -/
theorem met_added (plain : ∀ request ∈ requests, request.IsPlain) (lines : HasPlainLines content)
    (member : request ∈ requests) {wish : Wish} (wished : wish ∈ request.wishes) :
    wish.met (added content requests) = true := by
  obtain ⟨changed, statements, advances, _, whole⟩ := advances_added plain lines
  have isPlain := Request.isPlain_of_mem_wishes (plain request member) wished
  rw [whole]
  rcases advances.wishes request member wish wished with met | brought
  · exact wish.met_insert isPlain advances.lines met _
  · exact wish.met_of_mem isPlain (List.mem_map_of_mem brought) changed

/-- The new content lists of a source what the old one listed and more, or what was asked for first. -/
theorem firstList?_added (plain : ∀ request ∈ requests, request.IsPlain) (lines : HasPlainLines content)
    (namable : IsNamable source) : ∃ first, Longer (firstList? source content) first
      ∧ (∀ request ∈ requests, request.source.toList = source → ∀ list, first = some list →
        ∀ name ∈ request.named, name.toList ∈ list.present)
      ∧ firstList? source (added content requests)
        = first.or ((firstNaming? source requests).map Request.list) := by
  obtain ⟨changed, statements, advances, single, whole⟩ := advances_added plain lines
  obtain ⟨_, before, gap, after, changedLines, insertedLines, blank⟩ := bodies_insert advances.lines single
  have longer := advances.longer source
  refine ⟨firstList? source changed, longer, fun request member same list listed => ?_, ?_⟩
  · exact advances.named request member list (same ▸ listed)
  have empty : gap.findSome? (NameList.read? source) = none := by
    rw [List.findSome?_eq_none_iff]
    intro line member
    rw [blank line member]
    rfl
  have brought := advances.listing source namable
  rw [List.findSome?_nil, Option.none_or] at brought
  rw [whole, firstList?_eq, firstList?_eq, insertedLines, changedLines]
  simp only [List.findSome?_append, List.findSome?_map, Function.comp_def, empty, brought, Option.none_or]
  rw [firstList?_eq source changed, changedLines, List.findSome?_append] at longer
  cases listed : firstList? source content with
  | none =>
      rw [listed] at longer
      obtain ⟨ahead, behind⟩ := Option.or_eq_none_iff.mp longer
      simp [ahead, behind]
  | some list =>
      rw [listed] at longer
      obtain ⟨more, found, _⟩ := longer
      simp [found]

/-- A request that a content meets changes nothing. -/
theorem Request.apply_settled (met : ∀ wish ∈ request.wishes, wish.met content = true)
    (named : request.named = [] ∨ ∃ list, firstList? request.source.toList content = some list
        ∧ ∀ name ∈ request.named, name.toList ∈ list.present) : request.apply content = (content, []) := by
  refine Prod.ext ?_ ?_
  · by_cases empty : request.named = []
    · simp [Request.apply, empty]
    · obtain ⟨list, listed, known⟩ := named.resolve_left empty
      have edited := extendFirst?_of_present listed (List.forall_mem_map.mpr known)
      simp [Request.apply, empty, edited, flatten_linesWithEnds]
  · have unmet : (request.wishes.filter fun wish => !wish.met content) = [] := by
      rw [List.filter_eq_nil_iff]
      intro wish member
      simp [met wish member]
    rw [Request.apply_statements, unmet, List.map_nil, List.nil_append, Request.listing, if_pos]
    rcases named with empty | ⟨list, listed, _⟩
    · simp [empty]
    · simp [listed]

/-- Requests that a content meets change nothing. -/
theorem foldl_advance_settled (settled : ∀ request ∈ requests, request.apply content = (content, [])) :
    requests.foldl advance (content, []) = (content, []) := by
  induction requests with
  | nil => rfl
  | cons request requests inductionHypothesis =>
      obtain ⟨first, others⟩ := List.forall_mem_cons.mp settled
      have stays : advance (content, []) request = (content, []) := by
        rw [advance, first]
        rfl
      rw [List.foldl_cons, stays, inductionHypothesis others]

/-! ## Adding the same again -/

/-- Requests cohere in a content: those whose source it does not list name nothing that the first of them does
not name. -/
def Coherent (content : List Char) (requests : List Request) : Prop :=
  ∀ request ∈ requests, firstList? request.source.toList content = none →
    ∀ first ∈ firstNaming? request.source.toList requests, ∀ name ∈ request.named, name ∈ first.named

instance (content : List Char) (requests : List Request) : Decidable (Coherent content requests) :=
  inferInstanceAs (Decidable (∀ request ∈ requests, firstList? request.source.toList content = none →
    ∀ first ∈ firstNaming? request.source.toList requests, ∀ name ∈ request.named, name ∈ first.named))

/-- What was added is not added again exactly if the requests cohere. -/
theorem added_again_iff (plain : ∀ request ∈ requests, request.IsPlain) (lines : HasPlainLines content) :
    added (added content requests) requests = added content requests ↔ Coherent content requests := by
  have again := hasPlainLines_added plain lines
  constructor
  · intro same request member unlisted first naming name among
    replace naming := Option.mem_def.mp naming
    -- The second run finds the list of the first request and adds what it lacks.
    have namable := (plain request member).source
    obtain ⟨_, longer, _, listed⟩ := firstList?_added plain lines namable
    rw [unlisted] at longer
    rw [show _ = none from longer, Option.none_or, naming, Option.map_some] at listed
    obtain ⟨more, longer', present, listed'⟩ := firstList?_added plain again namable
    rw [listed] at longer'
    obtain ⟨list, rfl, _⟩ := longer'
    rw [same, listed, Option.some_or] at listed'
    have known := present request member rfl list rfl name among
    rw [← Option.some.inj listed',
      Request.present_list (plain first (List.mem_of_find?_eq_some naming))] at known
    obtain ⟨other, isNamed, written⟩ := List.mem_map.mp known
    rwa [← String.toList_inj.mp written]
  · intro coherent
    -- Every request finds all it asks for, in the old lists or in the new statements.
    have settled : ∀ request ∈ requests,
        request.apply (added content requests) = (added content requests, []) := by
      intro request member
      have namable := (plain request member).source
      refine Request.apply_settled (fun wish wished => met_added plain lines member wished) ?_
      refine or_iff_not_imp_left.mpr fun nonempty => ?_
      obtain ⟨first, longer, present, listed⟩ := firstList?_added plain lines namable
      cases first with
      | some list => exact ⟨list, listed, present request member rfl list rfl⟩
      | none =>
          have unlisted : firstList? request.source.toList content = none := by
            have unlisted := longer.isSome_eq
            simpa using unlisted.symm
          obtain ⟨naming, found⟩ : ∃ naming, firstNaming? request.source.toList requests = some naming := by
            rw [← Option.isSome_iff_exists, firstNaming?, List.find?_isSome]
            exact ⟨request, member, by simpa using nonempty⟩
          rw [found] at listed
          refine ⟨naming.list, listed, fun name among => ?_⟩
          rw [Request.present_list (plain naming (List.mem_of_find?_eq_some found))]
          exact List.mem_map_of_mem (coherent request member unlisted naming found name among)
    rw [added, foldl_advance_settled settled]
    rfl

/-- Adding the same imports again to a plain content changes nothing exactly if the requests cohere. -/
theorem run_again_iff {content output : String} {arguments : Entries}
    (done : run content arguments = .ok output) :
    ∃ requests, requests? arguments = some requests
      ∧ (HasPlainLines content.toList → (∀ request ∈ requests, request.IsPlain) →
        (run output arguments = .ok output ↔ Coherent content.toList requests)) := by
  obtain ⟨requests, asked, written⟩ := run_eq_ok_iff.mp done
  refine ⟨requests, asked, fun lines plain => ?_⟩
  rw [run_eq_ok_iff, ← added_again_iff plain lines, ← written]
  constructor
  · rintro ⟨others, asked', written'⟩
    obtain rfl : requests = others := Option.some.inj (asked.symm.trans asked')
    exact written'
  · exact fun same => ⟨requests, asked, same⟩

/-- Arguments that ask for more of one source and for something of another. -/
def pageArguments : Entries :=
  [(.text "imports", .list [
    .record [("module", .text "react"), ("default", .text "React"), ("named", .texts ["useState"])],
    .record [("module", .text "zod"), ("named", .texts ["z"])]])]

/-- What these arguments ask for. -/
def pageRequests : List Request := [⟨"react", some "React", none, ["useState"]⟩, ⟨"zod", none, none, ["z"]⟩]

/-- Names are added to the list of a page and statements behind it, and nothing more by the second run. -/
theorem run_again_page :
    run "import \x7b useRef \x7d from 'react';\n" pageArguments = .ok
        "import \x7b useRef, useState \x7d from 'react';\nimport React from 'react';\nimport \x7b z \x7d from 'zod';\n"
      ∧ run
        "import \x7b useRef, useState \x7d from 'react';\nimport React from 'react';\nimport \x7b z \x7d from 'zod';\n"
        pageArguments = .ok
        "import \x7b useRef, useState \x7d from 'react';\nimport React from 'react';\nimport \x7b z \x7d from 'zod';\n" := by
  have asked : requests? pageArguments = some pageRequests := rfl
  have lines : HasPlainLines "import \x7b useRef \x7d from 'react';\n".toList :=
    .cons (@IsLine.intro "import \x7b useRef \x7d from 'react';".toList _ (unbroken_of_all rfl) (.inl rfl)) .nil
  have namable : IsNamable "react".toList ∧ IsNamable "zod".toList :=
    ⟨List.all_iff_forall_prop.mp rfl, List.all_iff_forall_prop.mp rfl⟩
  have bindable : IsBindable "React".toList := List.all_iff_forall_prop.mp rfl
  have hook : IsListable "useState".toList :=
    ⟨⟨by decide, by decide, by decide⟩, List.all_iff_forall_prop.mp rfl⟩
  have schema : IsListable "z".toList :=
    ⟨⟨by decide, by decide, by decide⟩, List.all_iff_forall_prop.mp rfl⟩
  have plain : ∀ request ∈ pageRequests, request.IsPlain := by
    simp only [pageRequests, List.forall_mem_cons]
    refine ⟨⟨namable.1, ?_, nofun, by simpa using hook⟩, ⟨namable.2, nofun, nofun, by simpa using schema⟩,
      nofun⟩
    rintro _ ⟨⟩
    exact ⟨bindable, by decide⟩
  have coherent : Coherent "import \x7b useRef \x7d from 'react';\n".toList pageRequests := by decide +kernel
  have done : run "import \x7b useRef \x7d from 'react';\n" pageArguments = .ok
      "import \x7b useRef, useState \x7d from 'react';\nimport React from 'react';\nimport \x7b z \x7d from 'zod';\n" :=
    run_eq_ok_iff.mpr ⟨_, asked, by decide +kernel⟩
  obtain ⟨requests, asked', again⟩ := run_again_iff done
  obtain rfl : pageRequests = requests := Option.some.inj (asked.symm.trans asked')
  exact ⟨done, (again lines plain).mpr coherent⟩

/-- Arguments that ask for names of one source apart from each other. -/
def splitArguments : Entries :=
  [(.text "imports", .list [
    .record [("module", .text "react"), ("named", .texts ["useState"])],
    .record [("module", .text "react"), ("named", .texts ["useEffect"])]])]

/-- Names that are asked for apart from each other are added once more by the second run. -/
theorem run_repeats :
    run "" splitArguments = .ok
        "import \x7b useState \x7d from 'react';\nimport \x7b useEffect \x7d from 'react';\n"
      ∧ run "import \x7b useState \x7d from 'react';\nimport \x7b useEffect \x7d from 'react';\n" splitArguments
        = .ok "import \x7b useState, useEffect \x7d from 'react';\nimport \x7b useEffect \x7d from 'react';\n" := by
  constructor
  · exact run_eq_ok_iff.mpr ⟨_, rfl, by decide⟩
  · exact run_eq_ok_iff.mpr ⟨_, rfl, by decide +kernel⟩

end Scaffold.ImportAdd
