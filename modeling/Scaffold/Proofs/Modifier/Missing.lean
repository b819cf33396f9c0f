import Scaffold.Proofs.Modifier.Imports
import Scaffold.Proofs.Modifier.Statements
import Mathlib.Data.List.Flatten
import Mathlib.Data.List.Nodup

/-!
# Adding what is missing

A run takes some of what its requests ask for to be missing (`missing`), which it finds out line by line.  Behind the
run the content imports what it did and exactly that (`imported_added`).  So it imports everything that was listed
once, and nothing twice, exactly if what the run takes to be missing is what the content does not import when it is
read statement by statement (`run_imports_once_iff`).
-/

namespace Scaffold.ImportAdd

open Scaffold.Text ImportStatement

variable {content : List Char} {wish : Wish} {request : Request} {requests : List Request}
  {pending statements : List String}

/-! ## What requests list -/

/-- What is bound where a wish is met. -/
def Wish.bindings : Wish → List Binding
  | .default name source => [⟨name.toList, source.toList⟩]
  | .whole name source => [⟨name.toList, source.toList⟩]
  | .any _ => []

/-- What a request lists. -/
def Request.bindings (request : Request) : List Binding :=
  request.wishes.flatMap Wish.bindings ++ request.named.map fun name => ⟨name.toList, request.source.toList⟩

/-- Whether the first line of a content that lists names of a source has a name. -/
def lists (content source name : List Char) : Bool :=
  (firstList? source content).any fun list => list.present.contains name

/-- What a request takes to be missing from a content. -/
def Request.missing (request : Request) (content : List Char) : List Binding :=
  (request.wishes.filter fun wish => !wish.met content).flatMap Wish.bindings
    ++ (request.named.filter fun name => !lists content request.source.toList name.toList).map
      fun name => ⟨name.toList, request.source.toList⟩

/-- What requests take to be missing, each from the content that those before it leave. -/
def missing (content : List Char) : List Request → List Binding
  | [] => []
  | request :: rest => request.missing content ++ missing (request.apply content).1 rest

/-- A request takes nothing to be missing that it does not list. -/
theorem Request.missing_sublist (request : Request) (content : List Char) :
    (request.missing content).Sublist request.bindings :=
  (List.filter_sublist.flatMap _).append (List.filter_sublist.map _)

/-- Nothing is taken to be missing that is not listed. -/
theorem missing_sublist (content : List Char) (requests : List Request) :
    (missing content requests).Sublist (requests.flatMap Request.bindings) := by
  induction requests generalizing content with
  | nil => exact .slnil
  | cons request rest inductionHypothesis =>
      exact (request.missing_sublist content).append (inductionHypothesis _)

/-- The requests whose names are identifiers and whose source can be quoted. -/
structure Request.IsWritable (request : Request) : Prop where
  source : IsQuotable request.source.toList
  default : ∀ name, request.default = some name → IsIdentifier name.toList
  whole : ∀ name, request.whole = some name → IsIdentifier name.toList
  named : ∀ name ∈ request.named, IsIdentifier name.toList

/-! ## What statements bring -/

/-- What a new statement imports. -/
def brings (statement : String) : List Binding := importedBy [statement.toList]

/-- The statement for a wish imports what is wished for. -/
theorem Request.imports_wish (writable : request.IsWritable) (member : wish ∈ request.wishes) :
    Imports wish.statement.toList wish.bindings := by
  rw [Request.wishes, List.mem_append, List.mem_append] at member
  rcases member with (default | whole) | any
  · obtain ⟨name, given, rfl⟩ := Option.map_eq_some_iff.mp (Option.mem_toList.mp default)
    exact imports_defaultStatement (writable.default name given) writable.source
  · obtain ⟨name, given, rfl⟩ := Option.map_eq_some_iff.mp (Option.mem_toList.mp whole)
    exact imports_wholeStatement (writable.whole name given) writable.source
  · split at any
    · rw [List.mem_singleton.mp any]
      exact imports_bareStatement writable.source
    · cases any

/-- The statement for the names of a request imports them. -/
theorem Request.imports_named (writable : request.IsWritable) :
    Imports (namedStatement request.named request.source).toList
      (request.named.map fun name => ⟨name.toList, request.source.toList⟩) :=
  imports_namedStatement writable.named writable.source

/-- The statements that a request brings are lines that are read for themselves. -/
theorem Request.imports_statements (writable : request.IsWritable) (content : List Char) :
    ∀ statement ∈ (request.apply content).2, Imports statement.toList (brings statement) := by
  intro statement member
  rw [request.apply_statements, List.mem_append] at member
  rcases member with wished | listing
  · obtain ⟨wish, unmet, rfl⟩ := List.mem_map.mp wished
    have imports := Request.imports_wish writable (List.mem_filter.mp unmet).1
    rwa [brings, imports.importedBy]
  · rw [Request.listing] at listing
    split at listing
    · cases listing
    · rw [List.mem_singleton.mp listing, brings, (Request.imports_named writable).importedBy]
      exact Request.imports_named writable

/-- The statements that a request brings import what it wishes for in vain, and its names if none are listed. -/
theorem Request.flatMap_brings (writable : request.IsWritable) (content : List Char) :
    (request.apply content).2.flatMap brings
      = (request.wishes.filter fun wish => !wish.met content).flatMap Wish.bindings
        ++ (request.listing content).flatMap brings := by
  rw [request.apply_statements, List.flatMap_append, List.flatMap_map]
  refine congrArg (· ++ _) (List.flatMap_congr fun wish unmet => ?_)
  exact (Request.imports_wish writable (List.mem_filter.mp unmet).1).importedBy

/-- The statements that a request brings import nothing that it does not list. -/
theorem Request.flatMap_brings_sublist (writable : request.IsWritable) (content : List Char) :
    ((request.apply content).2.flatMap brings).Sublist request.bindings := by
  rw [Request.flatMap_brings writable]
  refine (List.filter_sublist.flatMap _).append ?_
  rw [Request.listing]
  split
  · exact List.nil_sublist _
  · rw [List.flatMap_singleton, brings, (Request.imports_named writable).importedBy]

/-- Behind a request the content and the statements that it brings import what the content did and what was missing. -/
theorem Request.imported_apply (writable : request.IsWritable) (content : List Char) :
    (imported (request.apply content).1 ++ (request.apply content).2.flatMap brings).Perm
      (imported content ++ request.missing content) := by
  rw [Request.flatMap_brings writable, Request.missing]
  by_cases empty : request.named = []
  · have same : (request.apply content).1 = content := by simp [Request.apply, empty]
    have none : request.listing content = [] := by simp [Request.listing, empty]
    rw [same, none, empty]
    simp
  cases found : extendFirst? request.source.toList (request.named.map String.toList) (linesWithEnds content) with
  | none =>
      have same : (request.apply content).1 = content := by simp [Request.apply, empty, found]
      have unlisted := isSome_extendFirst? request.source.toList content (request.named.map String.toList)
      rw [found, Option.isSome_none, eq_comm, Option.isSome_eq_false_iff, Option.isNone_iff_eq_none] at unlisted
      have listing : request.listing content = [namedStatement request.named request.source] := by
        simp [Request.listing, empty, unlisted]
      have all : (request.named.filter fun name => !lists content request.source.toList name.toList) = request.named :=
        List.filter_eq_self.mpr fun name _ => by simp [lists, unlisted]
      rw [same, listing, all, List.flatMap_singleton, brings, (Request.imports_named writable).importedBy]
  | some edited =>
      have changed : (request.apply content).1 = edited.flatten := by simp [Request.apply, empty, found]
      obtain ⟨list, first, perm⟩ := imported_extended writable.source (List.forall_mem_map.mpr writable.named) found
      have none : request.listing content = [] := by simp [Request.listing, first]
      have missing : (request.named.map String.toList).filter (fun name => !list.present.contains name)
          = (request.named.filter fun name => !lists content request.source.toList name.toList).map String.toList := by
        rw [List.filter_map]
        simp [lists, first, Function.comp_def]
      rw [missing, List.map_map] at perm
      rw [changed, none, List.flatMap_nil, List.append_nil]
      refine (perm.append_right _).trans ?_
      rw [List.append_assoc]
      exact List.perm_append_comm.append_left _

/-- New statements bring what they do besides those so far, if nothing is brought twice. -/
theorem flatMap_addNew (once : (pending.flatMap brings ++ statements.flatMap brings).Nodup) :
    (addNew pending statements).flatMap brings = pending.flatMap brings ++ statements.flatMap brings := by
  induction statements generalizing pending with
  | nil => rw [List.flatMap_nil, List.append_nil]; rfl
  | cons statement rest inductionHypothesis =>
      rw [addNew, List.foldl_cons, ← addNew, List.flatMap_cons]
      rw [List.flatMap_cons, ← List.append_assoc] at once
      split
      · next known =>
        -- What is brought again can only be nothing.
        have nothing : brings statement = [] := by
          rw [List.eq_nil_iff_forall_not_mem]
          intro binding member
          have before := List.mem_flatMap.mpr ⟨statement, List.contains_iff_mem.mp known, member⟩
          exact (List.nodup_append.mp (List.nodup_append.mp once).1).2.2 binding before binding member rfl
        rw [nothing, List.append_nil] at once
        rw [nothing, List.nil_append, inductionHypothesis once]
      · have longer : (pending ++ [statement]).flatMap brings = pending.flatMap brings ++ brings statement := by
          rw [List.flatMap_append, List.flatMap_singleton]
        rw [← longer] at once
        rw [inductionHypothesis once, longer, List.append_assoc]

/-! ## What a run adds -/

/-- Requests leave a content and statements that together import what there was before and what was missing. -/
theorem imported_foldl (content : List Char) (writable : ∀ request ∈ requests, request.IsWritable)
    (alone : ∀ statement ∈ pending, Imports statement.toList (brings statement))
    (once : (pending.flatMap brings ++ requests.flatMap Request.bindings).Nodup) :
    (∀ statement ∈ (requests.foldl advance (content, pending)).2, Imports statement.toList (brings statement))
      ∧ (imported (requests.foldl advance (content, pending)).1
          ++ (requests.foldl advance (content, pending)).2.flatMap brings).Perm
        (imported content ++ pending.flatMap brings ++ missing content requests) := by
  induction requests generalizing content pending with
  | nil => exact ⟨alone, by simp [missing]⟩
  | cons request rest inductionHypothesis =>
      obtain ⟨first, others⟩ := List.forall_mem_cons.mp writable
      have brought := Request.flatMap_brings_sublist first content
      rw [List.flatMap_cons, ← List.append_assoc] at once
      have added : (addNew pending (request.apply content).2).flatMap brings
          = pending.flatMap brings ++ (request.apply content).2.flatMap brings :=
        flatMap_addNew ((List.nodup_append.mp once).1.sublist (brought.append_left _))
      have alone' : ∀ statement ∈ addNew pending (request.apply content).2,
          Imports statement.toList (brings statement) := fun statement member =>
        (mem_addNew.mp member).elim (alone statement) (Request.imports_statements first content statement)
      obtain ⟨lines, later⟩ := inductionHypothesis (request.apply content).1 others alone' (by
        rw [added]
        exact once.sublist ((brought.append_left _).append_right _))
      refine ⟨lines, later.trans ?_⟩
      have here := Request.imported_apply first content
      rw [added, missing]
      rw [List.perm_iff_count] at here ⊢
      intro binding
      have counts := here binding
      simp only [List.count_append] at counts ⊢
      omega

/-- Behind a run the content imports what it did and what was missing. -/
theorem imported_added (writable : ∀ request ∈ requests, request.IsWritable)
    (once : (requests.flatMap Request.bindings).Nodup) (content : List Char) :
    (imported (added content requests)).Perm (imported content ++ missing content requests) := by
  obtain ⟨alone, perm⟩ := imported_foldl content writable (List.forall_mem_nil _) (by simpa using once)
  rw [List.flatMap_nil, List.append_nil] at perm
  have lines : ∀ statement ∈ (requests.foldl advance (content, [])).2.map String.toList,
      Imports statement (importedBy [statement]) := List.forall_mem_map.mpr alone
  have inserted := imported_insert (requests.foldl advance (content, [])).1
    (fun statement member => (lines statement member).unbroken) fun statement member => (lines statement member).closed
  rw [importedBy_of_closed fun statement member => (lines statement member).closed, List.flatMap_map] at inserted
  exact inserted.trans perm

/-- Nothing is added twice and nothing listed is left out exactly if what is added was missing. -/
theorem count_append_iff {before listed missing : List Binding} (unique : before.Nodup) (once : listed.Nodup)
    (among : missing.Sublist listed) :
    ((∀ binding ∈ listed, (before ++ missing).count binding = 1) ∧ (before ++ missing).Nodup)
      ↔ ∀ binding ∈ listed, (binding ∈ missing ↔ binding ∉ before) := by
  have onceMissing := once.sublist among
  constructor
  · rintro ⟨counts, _⟩ binding member
    have total := counts binding member
    rw [List.count_append] at total
    rw [← List.count_pos_iff, ← List.count_pos_iff]
    omega
  · intro right
    refine ⟨fun binding member => ?_, List.nodup_append.mpr ⟨unique, onceMissing, ?_⟩⟩
    · rw [List.count_append]
      by_cases known : binding ∈ before
      · have absent : binding ∉ missing := fun added => (right binding member).mp added known
        rw [List.count_eq_one_of_mem unique known, List.count_eq_zero.mpr absent]
      · rw [List.count_eq_zero.mpr known, List.count_eq_one_of_mem onceMissing ((right binding member).mpr known)]
    · rintro binding known _ added rfl
      exact (right binding (among.subset added)).mp added known

/-- A run adds what is missing: every listed name is imported once, and none twice, exactly if what it takes to be
missing is what the content does not import. -/
theorem run_imports_once_iff {content : String} {arguments : Entries} (asked : requests? arguments = some requests)
    (writable : ∀ request ∈ requests, request.IsWritable) (once : (requests.flatMap Request.bindings).Nodup)
    (unique : (imported content.toList).Nodup) :
    ∃ output, run content arguments = .ok output
      ∧ (((∀ binding ∈ requests.flatMap Request.bindings, (imported output.toList).count binding = 1)
          ∧ (imported output.toList).Nodup)
        ↔ ∀ binding ∈ requests.flatMap Request.bindings,
          (binding ∈ missing content.toList requests ↔ binding ∉ imported content.toList)) := by
  have perm := imported_added writable once content.toList
  refine ⟨String.ofList (added content.toList requests),
    run_eq_ok_iff.mpr ⟨requests, asked, String.toList_ofList.symm⟩, ?_⟩
  rw [String.toList_ofList, ← count_append_iff unique once (missing_sublist content.toList requests)]
  exact and_congr (forall₂_congr fun binding _ => by rw [perm.count_eq]) perm.nodup_iff

/-- Arguments that list names of two sources. -/
def moduleArguments : Entries :=
  [(.text "imports", .list [
    .record [("module", .text "react"), ("default", .text "React"), ("named", .texts ["useState"])],
    .record [("module", .text "path"), ("namespace", .text "path")]])]

/-- What these arguments ask for. -/
def moduleRequests : List Request := [⟨"react", some "React", none, ["useState"]⟩, ⟨"path", none, some "path", []⟩]

/-- A module that imports from both sources, from one of them in several lines. -/
def moduleText : String := "import \x7b useRef \x7d from 'react';\nimport \x7b\n  join,\n\x7d from 'path';\n"

/-- The module with these imports. -/
def moduleOutput : String :=
  "import \x7b useRef, useState \x7d from 'react';\nimport \x7b\n  join,\n\x7d from 'path';\n"
    ++ "import React from 'react';\nimport * as path from 'path';\n"

/-- A name is added to the list of one source, and statements stand behind that of the other. -/
theorem run_imports_once_module : run moduleText moduleArguments = .ok moduleOutput
    ∧ (∀ binding ∈ moduleRequests.flatMap Request.bindings, (imported moduleOutput.toList).count binding = 1)
    ∧ (imported moduleOutput.toList).Nodup := by
  have writable : ∀ request ∈ moduleRequests, request.IsWritable := by
    have quotable {source : String} (nonempty : source.toList ≠ [])
        (plain : source.toList.all (fun c => !isQuote c) = true)
        (unbroken : source.toList.all (fun c => !isLineEnd c) = true) : IsQuotable source.toList :=
      ⟨nonempty, by simpa using plain, unbroken_of_all unbroken⟩
    have identifier (name : String) (nonempty : name.toList ≠ []) (all : name.toList.all isNameChar = true) :
        IsIdentifier name.toList := isIdentifier_of_all nonempty all
    simp only [moduleRequests, List.forall_mem_cons]
    refine ⟨⟨quotable (by decide) rfl rfl, ?_, nofun, ?_⟩, ⟨quotable (by decide) rfl rfl, nofun, ?_, nofun⟩, nofun⟩
    · rintro _ ⟨⟩
      exact identifier _ (by decide) (by decide)
    · simpa using identifier "useState" (by decide) (by decide)
    · rintro _ ⟨⟩
      exact identifier _ (by decide) (by decide)
  obtain ⟨output, done, iff⟩ := run_imports_once_iff (show requests? moduleArguments = some moduleRequests from rfl)
    writable (by decide) (show (imported moduleText.toList).Nodup by decide +kernel)
  have text : run moduleText moduleArguments = .ok moduleOutput :=
    run_eq_ok_iff.mpr ⟨moduleRequests, rfl, by decide +kernel⟩
  obtain rfl := Except.ok.inj (text.symm.trans done)
  exact ⟨text, iff.mpr (by decide +kernel)⟩

/-- A name that is listed in several lines is imported once more. -/
theorem run_imports_twice :
    imported "import \x7b\n  useState,\n\x7d from 'react';\n".toList = [⟨"useState".toList, "react".toList⟩]
      ∧ run "import \x7b\n  useState,\n\x7d from 'react';\n" [(.text "imports", .list [
          .record [("module", .text "react"), ("named", .texts ["useState"])]])]
        = .ok "import \x7b\n  useState,\n\x7d from 'react';\nimport \x7b useState \x7d from 'react';\n"
      ∧ (imported
          "import \x7b\n  useState,\n\x7d from 'react';\nimport \x7b useState \x7d from 'react';\n".toList).count
        ⟨"useState".toList, "react".toList⟩ = 2 :=
  ⟨by decide +kernel, run_eq_ok_iff.mpr ⟨[⟨"react", none, none, ["useState"]⟩], rfl, by decide +kernel⟩,
    by decide +kernel⟩

end Scaffold.ImportAdd
