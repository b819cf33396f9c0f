import Scaffold.Modifier.ImportStatement
import Scaffold.Proofs.Text.Pattern
import Scaffold.Proofs.Text.Trimming
import Mathlib.Data.List.Basic
import Mathlib.Data.List.Induction

/-!
# Scanning for import statements

Behind lines an import statement may be open (`IsOpen`), or one may have ended with the last of them (`IsEnded`).  Both
are said of the lines alone.  A scan knows them of the lines that it has read: whether a statement is open, and behind
which line the last one ended (`Reached`).  This holds behind one more line, whether a statement ends with it
(`Reached.ended`) or not (`Reached.unended`), and so behind any number of lines (`Reached.scanned`).

So new statements are placed right behind the last statement that has ended, or behind a directive or at the start if
there is none (`insertIndex_cases`), and never inside a statement (`insertIndex_isOutside`).
-/

namespace Scaffold.ImportStatement

open Scaffold.Text

variable {line first : List Char} {lines before behind : List (List Char)} {inside : Bool} {start index : Nat}

/-! ## Open and ended statements -/

/-- Whether a line ends with a source, and with it the statement that is open. -/
def ends (line : List Char) : Bool := endsWithSource false (trim line)

/-- Whether a line starts a statement that goes on in the following lines. -/
def leavesOpen (line : List Char) : Bool := startsImport (trim line) && !isComplete (trim line)

/-- A statement is open behind lines: one of them leaves it open, and none behind that one ends it. -/
def IsOpen (lines : List (List Char)) : Prop :=
  ∃ before line behind, lines = before ++ line :: behind ∧ leavesOpen line = true
    ∧ ∀ later ∈ behind, ends later = false

/-- Lines that are one statement: a complete one in a line, which may only name a source, or a line that leaves it open
and those up to the first that ends it. -/
inductive IsStatement : List (List Char) → Prop where
  | single {line : List Char} (starts : startsImport (trim line) = true)
      (complete : isComplete (trim line) = true) : IsStatement [line]
  | several {first last : List Char} {between : List (List Char)} (opening : leavesOpen first = true)
      (unended : ∀ line ∈ between, ends line = false) (ending : ends last = true) :
      IsStatement (first :: (between ++ [last]))

/-- The last lines are a statement, and none was open where it starts. -/
def IsEnded (lines : List (List Char)) : Prop :=
  ∃ before statement, lines = before ++ statement ∧ IsStatement statement ∧ ¬IsOpen before

/-- A line that leaves a statement open does not end it. -/
theorem ends_of_leavesOpen (opening : leavesOpen line = true) : ends line = false := by
  rw [leavesOpen, Bool.and_eq_true, Bool.not_eq_true', isComplete, Bool.or_eq_false_iff] at opening
  exact opening.2.1

/-- Before the first line nothing is open. -/
theorem not_isOpen_nil : ¬IsOpen [] := by
  rintro ⟨before, line, behind, whole, _⟩
  simp at whole

/-- Behind one more line a statement is open if the line leaves it open, or does not end the one that is. -/
theorem isOpen_concat : IsOpen (lines ++ [line]) ↔ leavesOpen line = true ∨ IsOpen lines ∧ ends line = false := by
  constructor
  · rintro ⟨before, other, behind, whole, opening, unended⟩
    rcases List.eq_nil_or_concat' behind with rfl | ⟨behind, last, rfl⟩
    · obtain ⟨rfl, rfl⟩ := List.append_singleton_inj.mp whole
      exact .inl opening
    · rw [← List.cons_append, ← List.append_assoc] at whole
      obtain ⟨rfl, rfl⟩ := List.append_singleton_inj.mp whole
      obtain ⟨earlier, late⟩ := List.forall_mem_append.mp unended
      exact .inr ⟨⟨before, other, behind, rfl, opening, earlier⟩, late line List.mem_cons_self⟩
  · rintro (opening | ⟨⟨before, other, behind, rfl, opening, unended⟩, late⟩)
    · exact ⟨lines, line, [], rfl, opening, List.forall_mem_nil _⟩
    · refine ⟨before, other, behind ++ [line], by simp, opening, ?_⟩
      exact List.forall_mem_append.mpr ⟨unended, List.forall_mem_singleton.mpr late⟩

/-- Where a statement is open, a line left it open where none was open before. -/
theorem IsOpen.exists_first (isOpen : IsOpen lines) : ∃ before first behind, lines = before ++ first :: behind
    ∧ leavesOpen first = true ∧ (∀ later ∈ behind, ends later = false) ∧ ¬IsOpen before := by
  induction lines using List.reverseRecOn with
  | nil => exact absurd isOpen not_isOpen_nil
  | append_singleton lines line inductionHypothesis =>
      by_cases earlier : IsOpen lines
      · have late : ends line = false :=
          (isOpen_concat.mp isOpen).elim ends_of_leavesOpen And.right
        obtain ⟨before, first, behind, rfl, opening, unended, closed⟩ := inductionHypothesis earlier
        refine ⟨before, first, behind ++ [line], by simp, opening, ?_, closed⟩
        exact List.forall_mem_append.mpr ⟨unended, List.forall_mem_singleton.mpr late⟩
      · have opening := (isOpen_concat.mp isOpen).resolve_right fun open' => earlier open'.1
        exact ⟨lines, line, [], rfl, opening, List.forall_mem_nil _, earlier⟩

/-- Before the first line nothing has ended. -/
theorem not_isEnded_nil : ¬IsEnded [] := by
  rintro ⟨before, statement, whole, isStatement, _⟩
  obtain ⟨_, rfl⟩ := List.append_eq_nil_iff.mp whole.symm
  cases isStatement

/-- With one more line a statement ends if the line ends the one that is open, or is a complete one where none is. -/
theorem isEnded_concat : IsEnded (lines ++ [line]) ↔ IsOpen lines ∧ ends line = true
    ∨ ¬IsOpen lines ∧ startsImport (trim line) = true ∧ isComplete (trim line) = true := by
  constructor
  · rintro ⟨before, statement, whole, isStatement, closed⟩
    cases isStatement with
    | single starts complete =>
        obtain ⟨rfl, rfl⟩ := List.append_singleton_inj.mp whole
        exact .inr ⟨closed, starts, complete⟩
    | @several first last between opening unended ending =>
        rw [← List.cons_append, ← List.append_assoc] at whole
        obtain ⟨rfl, rfl⟩ := List.append_singleton_inj.mp whole
        exact .inl ⟨⟨before, first, between, rfl, opening, unended⟩, ending⟩
  · rintro (⟨isOpen, ending⟩ | ⟨closed, starts, complete⟩)
    · obtain ⟨before, first, behind, rfl, opening, unended, closed⟩ := isOpen.exists_first
      exact ⟨before, first :: (behind ++ [line]), by simp, .several opening unended ending, closed⟩
    · exact ⟨lines, [line], rfl, .single starts complete, closed⟩

/-- Where a statement has ended none is open. -/
theorem IsEnded.not_isOpen (isEnded : IsEnded lines) : ¬IsOpen lines := by
  rcases List.eq_nil_or_concat' lines with rfl | ⟨lines, line, rfl⟩
  · exact not_isOpen_nil
  rw [isOpen_concat]
  rcases isEnded_concat.mp isEnded with ⟨_, ending⟩ | ⟨closed, _, complete⟩
  · rintro (opening | ⟨_, unended⟩)
    · exact absurd (ends_of_leavesOpen opening) (by simp [ending])
    · exact absurd unended (by simp [ending])
  · rintro (opening | ⟨isOpen, _⟩)
    · simp [leavesOpen, complete] at opening
    · exact closed isOpen

/-- A statement ends with a line that ends as a complete import does. -/
theorem IsEnded.isComplete_last (isEnded : IsEnded (lines ++ [line])) : isComplete (trim line) = true := by
  rcases isEnded_concat.mp isEnded with ⟨_, ending⟩ | ⟨_, _, complete⟩
  · rw [isComplete, Bool.or_eq_true]
    exact .inl ending
  · exact complete

/-- A statement that is left open and is not open behind later lines ended with one of them. -/
theorem exists_statement (opening : leavesOpen first = true) (closed : ¬IsOpen (before ++ first :: behind)) :
    ∃ statement after, first :: behind = statement ++ after ∧ IsStatement statement := by
  have some : (behind.find? ends).isSome = true := by
    rw [List.find?_isSome]
    by_contra none
    refine closed ⟨before, first, behind, rfl, opening, fun later member => ?_⟩
    exact Bool.eq_false_iff.mpr fun ending => none ⟨later, member, ending⟩
  obtain ⟨last, found⟩ := Option.isSome_iff_exists.mp some
  obtain ⟨ending, between, after, rfl, unended⟩ := List.find?_eq_some_iff_append.mp found
  refine ⟨first :: (between ++ [last]), after, by simp, .several opening (fun line member => ?_) ending⟩
  simpa using unended line member

/-! ## What a scan knows -/

/-- What a scan that starts with a place knows behind lines: whether a statement is open, and behind how many of them
the last one ended.  As long as none has ended the place stays. -/
structure Reached (start : Nat) (lines : List (List Char)) (inside : Bool) (index : Nat) : Prop where
  isOpen : inside = true ↔ IsOpen lines
  behind : ∀ before, before <+: lines → IsEnded before → before.length ≤ index
  place : index = start ∨ ∃ before, before <+: lines ∧ IsEnded before ∧ before.length = index
  start_le : start ≤ index

/-- Before the first line a scan knows the place that it starts with. -/
theorem Reached.nil (start : Nat) : Reached start [] false start where
  isOpen := iff_of_false Bool.false_ne_true not_isOpen_nil
  behind before initial isEnded := by
    rw [List.prefix_nil.mp initial] at isEnded
    exact absurd isEnded not_isEnded_nil
  place := .inl rfl
  start_le := Nat.le_refl start

/-- A line that a statement ends with is the new place. -/
theorem Reached.ended (early : start ≤ 1) (isEnded : IsEnded (lines ++ [line])) :
    Reached start (lines ++ [line]) false (lines.length + 1) where
  isOpen := iff_of_false Bool.false_ne_true isEnded.not_isOpen
  behind before initial _ := by
    have bound := initial.length_le
    rwa [List.length_append] at bound
  place := .inr ⟨lines ++ [line], List.prefix_rfl, isEnded, by simp⟩
  start_le := by omega

/-- A line that no statement ends with leaves the place. -/
theorem Reached.unended (reached : Reached start lines inside index) (unended : ¬IsEnded (lines ++ [line]))
    {inside' : Bool} (isOpen : inside' = true ↔ IsOpen (lines ++ [line])) :
    Reached start (lines ++ [line]) inside' index where
  isOpen := isOpen
  behind before initial isEnded := by
    rcases List.prefix_concat_iff.mp initial with rfl | earlier
    · exact absurd isEnded unended
    · exact reached.behind before earlier isEnded
  place := by
    refine reached.place.imp_right ?_
    rintro ⟨before, initial, found⟩
    exact ⟨before, initial.trans (List.prefix_append lines [line]), found⟩
  start_le := reached.start_le

/-- A scan of further lines knows the same of all of them. -/
theorem Reached.scanned (reached : Reached start lines inside index) (early : start ≤ 1)
    (rest : List (List Char)) :
    ∃ inside', Reached start (lines ++ rest) inside' (scan inside lines.length index rest) := by
  induction rest generalizing lines inside index with
  | nil => exact ⟨inside, by rwa [List.append_nil]⟩
  | cons line rest inductionHypothesis =>
      have further {inside' : Bool} {index' : Nat} (next : Reached start (lines ++ [line]) inside' index') :
          ∃ inside'', Reached start (lines ++ line :: rest) inside''
            (scan inside' (lines.length + 1) index' rest) := by
        have found := inductionHypothesis next
        rwa [← List.append_cons, List.length_append] at found
      have isOpen := reached.isOpen
      -- Of the five cases of the scan the first and the third end a statement; in the others the place stays.
      rw [scan]
      split
      · next isInside =>
        have earlier : IsOpen lines := isOpen.mp isInside
        split
        · next ending => exact further (.ended early (isEnded_concat.mpr (.inl ⟨earlier, ending⟩)))
        · next goesOn =>
          have late : ends line = false := Bool.eq_false_iff.mpr goesOn
          refine further (reached.unended ?_ (iff_of_true rfl (isOpen_concat.mpr (.inr ⟨earlier, late⟩))))
          simp [isEnded_concat, earlier, late]
      · next outside =>
        have closed : ¬IsOpen lines := fun earlier => outside (isOpen.mpr earlier)
        split
        · next starts =>
          split
          · next complete =>
            exact further (.ended early (isEnded_concat.mpr (.inr ⟨closed, starts, complete⟩)))
          · next incomplete =>
            have opening : leavesOpen line = true := by simp [leavesOpen, starts, incomplete]
            refine further (reached.unended ?_ (iff_of_true rfl (isOpen_concat.mpr (.inl opening))))
            simp [isEnded_concat, closed, incomplete]
        · next other =>
          refine further (reached.unended ?_ (iff_of_false Bool.false_ne_true ?_))
          · simp [isEnded_concat, closed, other]
          · simp [isOpen_concat, closed, leavesOpen, other]

/-! ## The place of new statements -/

/-- At most one line is a directive that leads the others. -/
theorem directiveLines_le_one (lines : List (List Char)) : directiveLines lines ≤ 1 := by
  cases lines with
  | nil => exact Nat.zero_le 1
  | cons first rest =>
      rw [directiveLines]
      split <;> omega

/-- The place of new statements is what a scan of all lines knows. -/
theorem reached_insertIndex (lines : List (List Char)) :
    ∃ inside, Reached (directiveLines lines) lines inside (insertIndex lines) :=
  (Reached.nil (directiveLines lines)).scanned (directiveLines_le_one lines) lines

/-- New statements are placed behind the lines before the first import, or behind lines that a statement ends with. -/
theorem insertIndex_cases (lines : List (List Char)) : insertIndex lines = directiveLines lines
    ∨ ∃ before after, lines = before ++ after ∧ IsEnded before ∧ insertIndex lines = before.length := by
  obtain ⟨inside, reached⟩ := reached_insertIndex lines
  refine reached.place.imp_right ?_
  rintro ⟨before, ⟨after, whole⟩, isEnded, length⟩
  exact ⟨before, after, whole.symm, isEnded, length.symm⟩

/-- New statements are placed behind no more lines than there are. -/
theorem insertIndex_le (lines : List (List Char)) : insertIndex lines ≤ lines.length := by
  rcases insertIndex_cases lines with stays | ⟨before, after, rfl, _, index⟩
  · rw [stays]
    cases lines with
    | nil => exact Nat.le_refl 0
    | cons first rest => exact (directiveLines_le_one (first :: rest)).trans (by simp)
  · rw [index, List.length_append]
    omega

/-- A directive has a quotation mark as its first visible character. -/
theorem head?_trim_directive (isDirective : directive.matchesAll line = true) :
    ∃ c, (trim line).head? = some c ∧ isQuote c = true := by
  rw [Pattern.matchesAll_iff] at isDirective
  simp only [directive, Pattern.mem_all_cons_iff, Pattern.anyBlanks, Pattern.mem_many_iff,
    Pattern.mem_one_iff] at isDirective
  obtain ⟨_, ⟨gap, blank, rfl⟩, _, ⟨opening, quote, rfl⟩, _⟩ := isDirective
  have shown : isBlank opening = false := by
    rw [isQuote, Bool.or_eq_true, beq_iff_eq, beq_iff_eq] at quote
    rcases quote with rfl | rfl <;> decide
  exact ⟨opening, head?_trimWhere (List.all_eq_true.mpr blank) shown _, quote⟩

/-- A directive starts no import. -/
theorem startsImport_directive (isDirective : directive.matchesAll line = true) :
    startsImport (trim line) = false := by
  obtain ⟨c, first, quote⟩ := head?_trim_directive isDirective
  rw [Bool.eq_false_iff]
  intro starts
  rw [startsImport, Bool.or_eq_true, List.isPrefixOf_iff_prefix, List.isPrefixOf_iff_prefix] at starts
  have letter : (trim line).head? = some 'i' := by
    rcases starts with ⟨more, whole⟩ | ⟨more, whole⟩ <;> rw [← whole] <;> rfl
  obtain rfl := Option.some.inj (letter.symm.trans first)
  exact absurd quote (by decide)

/-- Where new statements are placed none is open. -/
theorem not_isOpen_insertIndex (lines : List (List Char)) : ¬IsOpen (lines.take (insertIndex lines)) := by
  rcases insertIndex_cases lines with stays | ⟨before, after, rfl, isEnded, index⟩
  · rw [stays]
    cases lines with
    | nil => exact not_isOpen_nil
    | cons first rest =>
        rw [directiveLines]
        split
        · next isDirective =>
          rw [List.take_succ_cons, List.take_zero, ← List.nil_append [first], isOpen_concat, leavesOpen,
            startsImport_directive isDirective]
          simp [not_isOpen_nil]
        · exact not_isOpen_nil
  · rw [index, List.take_left]
    exact isEnded.not_isOpen

/-- New statements are placed behind no more lines than there are, behind every statement that starts where no other is
open and ends, and behind a directive that leads the lines.  They are placed inside no statement: if they are placed
behind a line that leaves one open, they are placed behind the line that ends it as well. -/
theorem insertIndex_isOutside (lines : List (List Char)) :
    insertIndex lines ≤ lines.length
      ∧ (∀ before statement after, lines = before ++ (statement ++ after) → IsStatement statement →
        ¬IsOpen before → before.length + statement.length ≤ insertIndex lines)
      ∧ (∀ first ∈ lines.head?, directive.matchesAll first = true → 1 ≤ insertIndex lines)
      ∧ ∀ before first behind, lines = before ++ first :: behind → leavesOpen first = true →
        before.length < insertIndex lines → ∃ statement after, first :: behind = statement ++ after
          ∧ IsStatement statement ∧ before.length + statement.length ≤ insertIndex lines := by
  obtain ⟨inside, reached⟩ := reached_insertIndex lines
  refine ⟨insertIndex_le lines, ?_, ?_, ?_⟩
  · intro before statement after whole isStatement closed
    rw [← List.length_append]
    refine reached.behind _ ⟨after, ?_⟩ ⟨before, statement, rfl, isStatement, closed⟩
    rw [whole, List.append_assoc]
  · intro first leads isDirective
    obtain ⟨rest, rfl⟩ := List.head?_eq_some_iff.mp leads
    have start := reached.start_le
    rwa [directiveLines, if_pos isDirective] at start
  · intro before first behind whole opening later
    -- The lines before the place, parted where the statement is left open.
    obtain ⟨more, index⟩ := Nat.exists_eq_add_of_lt later
    have closed := not_isOpen_insertIndex lines
    have taken : lines.take (insertIndex lines) = before ++ first :: behind.take more := by
      rw [index, whole, Nat.add_assoc, List.take_length_add_append, List.take_succ_cons]
    rw [taken] at closed
    obtain ⟨statement, after, parted, isStatement⟩ := exists_statement opening closed
    refine ⟨statement, after ++ behind.drop more, ?_, isStatement, ?_⟩
    · rw [← List.append_assoc, ← parted, List.cons_append, List.take_append_drop]
    · have length := congrArg List.length parted
      rw [List.length_cons, List.length_append, List.length_take] at length
      omega

/-- The first lines of a page: a directive and an import in one line. -/
def pageStart : List (List Char) := ["'use client';".toList, "import React from 'react';".toList]

/-- An import in several lines. -/
def pageStatement : List (List Char) := ["import \x7b".toList, "  useState,".toList, "\x7d from 'react';".toList]

/-- An import that only names a source, and one that is never ended. -/
def pageRest : List (List Char) := ["import './page.css';".toList, "import \x7b".toList, "  useMemo,".toList]

/-- In a page new statements are placed behind the import in several lines and the one that only names a source, and
before the one that is not ended. -/
theorem insertIndex_isOutside_page :
    IsStatement pageStatement ∧ ¬IsOpen pageStart ∧ directive.matchesAll "'use client';".toList = true
      ∧ leavesOpen "import \x7b".toList = true ∧ insertIndex (pageStart ++ (pageStatement ++ pageRest)) = 6
      ∧ 1 ≤ insertIndex (pageStart ++ (pageStatement ++ pageRest))
      ∧ pageStart.length + pageStatement.length ≤ insertIndex (pageStart ++ (pageStatement ++ pageRest))
      ∧ ∃ statement after, pageStatement ++ pageRest = statement ++ after ∧ IsStatement statement
        ∧ pageStart.length + statement.length ≤ insertIndex (pageStart ++ (pageStatement ++ pageRest)) := by
  have isDirective : directive.matchesAll "'use client';".toList = true := by decide +kernel
  have opening : leavesOpen "import \x7b".toList = true := by decide +kernel
  have isStatement : IsStatement pageStatement :=
    .several opening (List.forall_mem_singleton.mpr (by decide +kernel)) (by decide +kernel)
  have closed : ¬IsOpen pageStart := by
    rintro ⟨before, line, behind, whole, leaves, _⟩
    have complete : ∀ line ∈ pageStart, leavesOpen line = false := by decide +kernel
    exact absurd leaves (by simp [complete line (by simp [whole])])
  have index : insertIndex (pageStart ++ (pageStatement ++ pageRest)) = 6 := by decide +kernel
  obtain ⟨_, behind, leading, outside⟩ := insertIndex_isOutside (pageStart ++ (pageStatement ++ pageRest))
  refine ⟨isStatement, closed, isDirective, opening, index, leading _ rfl isDirective,
    behind pageStart pageStatement pageRest rfl isStatement closed, ?_⟩
  exact outside pageStart _ _ rfl opening (by rw [index]; decide)

end Scaffold.ImportStatement
