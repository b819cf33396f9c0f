import Scaffold.Proofs.Modifier.Insertion
import Scaffold.Proofs.Modifier.Occurrences
import Scaffold.Proofs.Modifier.Scanning
import Scaffold.Proofs.Text.Cutting

/-!
# Where new statements are placed

New statements stand at the start of a content, or behind a line that closes a statement or is a directive
(`insertIndex_spec`).  So in a plain content nothing that it imports is torn apart (`place_insertIndex`).  They are
lines of their own between lines of the content, in any content (`insert_parts`).
-/

namespace Scaffold.ImportAdd

open Scaffold.Text ImportStatement
open EnvLines (completed)

variable {text line body ending rest content : List Char} {lines statements : List (List Char)} {c : Char}

/-! ## Lines that close a statement -/

/-- The last visible character of a text is a closing one. -/
def EndsClosed (text : List Char) : Prop :=
  ∃ before c gap, text = before ++ c :: gap ∧ isClosing c = true ∧ ∀ d ∈ gap, isBlank d = true

/-- The end of a text decides. -/
theorem EndsClosed.append_left (closed : EndsClosed text) (front : List Char) : EndsClosed (front ++ text) := by
  obtain ⟨before, c, gap, rfl, closing, blank⟩ := closed
  exact ⟨front ++ before, c, gap, by simp, closing, blank⟩

/-- Blanks at the end do not count. -/
theorem EndsClosed.append_blank (closed : EndsClosed text) {gap : List Char}
    (blank : ∀ d ∈ gap, isBlank d = true) : EndsClosed (text ++ gap) := by
  obtain ⟨before, c, last, rfl, closing, blanks⟩ := closed
  exact ⟨before, c, last ++ gap, by simp, closing, List.forall_mem_append.mpr ⟨blanks, blank⟩⟩

/-- A line that closes a statement when it is trimmed does so as it is. -/
theorem EndsClosed.of_trim (closed : EndsClosed (trim text)) : EndsClosed text := by
  obtain ⟨lead, trail, split, _, blank⟩ := exists_eq_append_trimWhere_append isBlank text
  rw [split]
  exact (closed.append_left lead).append_blank (by simpa using blank)

/-- A quotation mark and the end of a statement close it. -/
theorem endsClosed_of_statementEnd (closes : isQuote c = true) (ended : [] ∈ statementEnd rest) :
    EndsClosed (c :: rest) := by
  simp only [statementEnd, Pattern.mem_all_cons_iff, Pattern.mem_all_nil_iff, Pattern.anyBlanks,
    Pattern.mem_many_iff, Pattern.mem_optional_iff, Pattern.mem_word_iff] at ended
  obtain ⟨_, ⟨gap, blank, rfl⟩, _, semicolon, _, ⟨last, blanks, rfl⟩, rfl⟩ := ended
  rw [List.append_nil] at semicolon
  rcases semicolon with written | missing
  · exact ⟨c :: gap, ';', last, by simp [written], by decide, blanks⟩
  · exact ⟨[], c, gap ++ last, by simp [missing], by simp [isClosing, closes],
      List.forall_mem_append.mpr ⟨blank, blanks⟩⟩

/-- A quoted text and the end of a statement close it. -/
theorem endsClosed_of_quotedText (quoted : rest ∈ quotedText text) (ended : [] ∈ statementEnd rest) :
    EndsClosed text := by
  simp only [quotedText, Pattern.mem_all_cons_iff, Pattern.mem_all_nil_iff, Pattern.mem_one_iff,
    Pattern.mem_some_iff] at quoted
  obtain ⟨_, ⟨opening, _, rfl⟩, _, ⟨inside, _, _, rfl⟩, _, ⟨closing, closes, rfl⟩, rfl⟩ := quoted
  exact ((endsClosed_of_statementEnd closes ended).append_left inside).append_left [opening]

/-- A clause that ends a statement closes it. -/
theorem endsClosed_of_sourceClause (matched : sourceClause.matchesAll text = true) : EndsClosed text := by
  rw [Pattern.matchesAll_iff] at matched
  simp only [sourceClause, Pattern.mem_all_cons_iff, Pattern.mem_all_nil_iff, Pattern.mem_word_iff,
    Pattern.blanks, Pattern.mem_some_iff] at matched
  obtain ⟨_, rfl, _, ⟨gap, _, _, rfl⟩, rest, quoted, _, ended, rfl⟩ := matched
  exact ((endsClosed_of_quotedText quoted ended).append_left gap).append_left "from".toList

/-- A text that ends with a source closes a statement. -/
theorem endsClosed_of_endsWithSource {afterWord : Bool} (found : endsWithSource afterWord text = true) :
    EndsClosed text := by
  induction text generalizing afterWord with
  | nil => cases found
  | cons c text inductionHypothesis =>
      rw [endsWithSource, Bool.or_eq_true, Bool.and_eq_true] at found
      rcases found with ⟨_, here⟩ | later
      · exact endsClosed_of_sourceClause here
      · exact (inductionHypothesis later).append_left [c]

/-- A complete import closes a statement. -/
theorem endsClosed_of_isComplete (complete : isComplete text = true) : EndsClosed text := by
  rw [isComplete, Bool.or_eq_true] at complete
  rcases complete with source | matched
  · exact endsClosed_of_endsWithSource source
  · rw [Pattern.matchesAll_iff] at matched
    simp only [sideEffect, Pattern.mem_all_cons_iff, Pattern.mem_all_nil_iff, Pattern.mem_word_iff,
      Pattern.blanks, Pattern.mem_some_iff] at matched
    obtain ⟨_, rfl, _, ⟨gap, _, _, rfl⟩, rest, quoted, _, ended, rfl⟩ := matched
    exact ((endsClosed_of_quotedText quoted ended).append_left gap).append_left "import".toList

/-- A directive closes a statement. -/
theorem endsClosed_of_directive (matched : directive.matchesAll text = true) : EndsClosed text := by
  rw [Pattern.matchesAll_iff] at matched
  simp only [directive, Pattern.mem_all_cons_iff, Pattern.mem_all_nil_iff, Pattern.mem_word_iff,
    Pattern.anyBlanks, Pattern.mem_many_iff, Pattern.mem_one_iff, Pattern.mem_either_iff] at matched
  obtain ⟨_, ⟨lead, _, rfl⟩, _, ⟨opening, _, rfl⟩, between, rfl, _, word, rest, ⟨closing, closes, rfl⟩, _,
    ended, rfl⟩ := matched
  have closed := endsClosed_of_statementEnd closes ended
  obtain ⟨side, rfl⟩ : ∃ side, between = side ++ closing :: rest := word.elim (⟨_, ·⟩) (⟨_, ·⟩)
  exact (((closed.append_left side).append_left "use ".toList).append_left [opening]).append_left lead

/-! ## The place -/

/-- New statements stand at the start, or behind a line that ends as a complete import does or is a directive. -/
theorem insertIndex_spec (lines : List (List Char)) : insertIndex lines = 0
    ∨ ∃ before line after, lines = before ++ line :: after ∧ insertIndex lines = before.length + 1
      ∧ (isComplete (trim line) = true ∨ before = [] ∧ directive.matchesAll line = true) := by
  rcases insertIndex_cases lines with stays | ⟨ended, after, rfl, isEnded, index⟩
  · rw [stays]
    cases lines with
    | nil => exact .inl rfl
    | cons first rest =>
        rw [directiveLines]
        split
        · next isDirective => exact .inr ⟨[], first, rest, rfl, rfl, .inr ⟨rfl, isDirective⟩⟩
        · exact .inl rfl
  · rcases List.eq_nil_or_concat' ended with rfl | ⟨before, line, rfl⟩
    · exact absurd isEnded not_isEnded_nil
    · refine .inr ⟨before, line, after, by simp, by rw [index, List.length_append]; rfl, .inl ?_⟩
      exact isEnded.isComplete_last

/-- What new statements are put between: the lines of a content that they stand behind, and the others. -/
structure IsParting (content before after : List Char) : Prop where
  whole : content = before ++ after
  between : MeetBetweenLines before after
  /-- The statements stand behind as many lines as the lines without their ends say. -/
  count : (linesWithEnds before).length = insertIndex ((linesWithEnds content).map withoutEnd)

/-- A content is parted at one of its lines. -/
theorem isParting_lines (content : List Char) :
    IsParting content
      ((linesWithEnds content).take (insertIndex ((linesWithEnds content).map withoutEnd))).flatten
      ((linesWithEnds content).drop (insertIndex ((linesWithEnds content).map withoutEnd))).flatten := by
  have bound := insertIndex_le ((linesWithEnds content).map withoutEnd)
  have areCut := areCut_linesWithEnds content
  rw [List.length_map] at bound
  rw [← List.take_append_drop (insertIndex ((linesWithEnds content).map withoutEnd)) (linesWithEnds content)]
    at areCut
  refine ⟨?_, areCut.meet, ?_⟩
  · rw [← List.flatten_append, List.take_append_drop, flatten_linesWithEnds]
  · rw [areCut.parts.1.linesWithEnds_flatten, List.length_take, Nat.min_eq_left bound]

/-- There is one such parting. -/
theorem IsParting.unique {before after before' after' : List Char} (parting : IsParting content before after)
    (other : IsParting content before' after') : before = before' ∧ after = after' := by
  have first : ∀ {front back : List Char}, IsParting content front back →
      linesWithEnds front
        = (linesWithEnds content).take (insertIndex ((linesWithEnds content).map withoutEnd)) := by
    intro front back parted
    have lines := linesWithEnds_append_iff.mpr parted.between
    rw [← parted.whole] at lines
    rw [← parted.count, lines, List.take_left]
  have same : before = before' := by
    rw [← flatten_linesWithEnds before, ← flatten_linesWithEnds before', first parting, first other]
  have whole := parting.whole.symm.trans other.whole
  rw [same] at whole
  exact ⟨same, List.append_cancel_left whole⟩

/-- Statements that are inserted into a content stand between two of its lines, each with a line feed behind it.
Before them a line feed completes what does not end with one, and behind them, at the start of the content only, an
empty line keeps them apart from a visible one.  Nothing else is added, and the content is still there. -/
theorem insert_parts (content : List Char) (nonempty : statements ≠ []) :
    ∃ before ending gap after, IsParting content before after
      ∧ ImportStatement.insert content statements
          = before ++ ending ++ (statements.flatMap fun statement => statement ++ ['\n']) ++ gap ++ after
      ∧ (before ≠ [] ∧ before.getLast? ≠ some '\n' ∧ ending = ['\n']
          ∨ (before = [] ∨ before.getLast? = some '\n') ∧ ending = [])
      ∧ (before = [] ∧ (∃ first ∈ (linesWithEnds content).head?, isAllBlank first = false) ∧ gap = ['\n']
          ∨ (before ≠ [] ∨ ∀ first ∈ (linesWithEnds content).head?, isAllBlank first = true) ∧ gap = [])
      ∧ content.Sublist (ImportStatement.insert content statements) := by
  have parting := isParting_lines content
  have given : statements.isEmpty = false := List.isEmpty_eq_false_iff.mpr nonempty
  generalize indexIs : insertIndex ((linesWithEnds content).map withoutEnd) = index at parting
  have start : ((linesWithEnds content).take index).flatten = [] ↔ index = 0 := by
    constructor
    · intro nothing
      have count := parting.count
      rw [nothing, indexIs] at count
      exact count.symm
    · rintro rfl
      rfl
  have inserted : ImportStatement.insert content statements
      = completed ((linesWithEnds content).take index).flatten
        ++ (statements.flatMap fun statement => statement ++ ['\n'])
        ++ (if needsGap index (linesWithEnds content) then ['\n'] else [])
        ++ ((linesWithEnds content).drop index).flatten := by
    rw [ImportStatement.insert, given, if_neg Bool.false_ne_true, ← indexIs]
    rfl
  generalize ((linesWithEnds content).take index).flatten = before at parting start inserted
  refine ⟨before, if before = [] ∨ before.getLast? = some '\n' then [] else ['\n'],
    if needsGap index (linesWithEnds content) then ['\n'] else [], _, parting, ?_, ?_, ?_,
    sublist_insert content statements⟩
  · rw [inserted, completed]
    simp only [Bool.or_eq_true, List.isEmpty_iff, beq_iff_eq]
    split <;> simp
  · split
    next complete => exact .inr ⟨complete, rfl⟩
    next incomplete => exact .inl ⟨fun nothing => incomplete (.inl nothing), fun feed => incomplete (.inr feed), rfl⟩
  · rw [start, needsGap]
    cases (linesWithEnds content).head? with
    | none => simp
    | some first => cases isAllBlank first <;> by_cases index = 0 <;> simp [*]

/-- Behind a directive whose line ends in a carriage return a statement is put, and a line feed completes the line. -/
theorem insert_parts_directive :
    ["import b from 'b';".toList] ≠ []
      ∧ ∃ before after, IsParting "'use client'\rlet a;".toList before after
        ∧ before = "'use client'\r".toList ∧ after = "let a;".toList
        ∧ ImportStatement.insert "'use client'\rlet a;".toList ["import b from 'b';".toList]
          = before ++ ['\n'] ++ "import b from 'b';\n".toList ++ [] ++ after := by
  have nonempty : ["import b from 'b';".toList] ≠ [] := List.cons_ne_nil _ _
  obtain ⟨before, ending, gap, after, parting, inserted, completes, keepsApart, _⟩ :=
    insert_parts "'use client'\rlet a;".toList nonempty
  have lines := isParting_lines "'use client'\rlet a;".toList
  obtain ⟨beforeIs, afterIs⟩ := parting.unique lines
  have front : before = "'use client'\r".toList := beforeIs.trans (by decide +kernel)
  have feed : ending = ['\n'] := by
    rcases completes with ⟨_, _, feed⟩ | ⟨complete, _⟩
    · exact feed
    · rw [front] at complete
      exact absurd complete (by decide)
  have none : gap = [] := by
    rcases keepsApart with ⟨start, _⟩ | ⟨_, none⟩
    · rw [front] at start
      exact absurd start (by decide)
    · exact none
  refine ⟨nonempty, before, after, parting, front, afterIs.trans (by decide +kernel), ?_⟩
  rw [inserted, feed, none]
  rfl

/-! ## Lines without their ends -/

/-- A line is its text and its end. -/
theorem withoutEnd_append_endOf (line : List Char) : withoutEnd line ++ endOf line = line := by
  obtain ⟨dropped, split, _⟩ := exists_eq_trimRightWhere_append isReturnOrFeed line
  have ending : endOf line = dropped := by
    rw [endOf]
    nth_rewrite 2 [split]
    exact List.drop_left
  rw [ending]
  exact split.symm

/-- A text without line ends is left as it is. -/
theorem withoutEnd_last (unbroken : ∀ c ∈ body, isLineEnd c = false) : withoutEnd body = body := by
  obtain ⟨dropped, split, ends⟩ := exists_eq_trimRightWhere_append isReturnOrFeed body
  cases dropped with
  | nil => exact (split.trans (List.append_nil _)).symm
  | cons c dropped =>
      have plain := unbroken c (by rw [split]; simp)
      simp only [isLineEnd, Bool.or_eq_false_iff] at plain
      simp [isReturnOrFeed, plain] at ends

/-- The end of a line is taken away. -/
theorem withoutEnd_line (unbroken : ∀ c ∈ body, isLineEnd c = false) (ended : IsEnding ending) :
    withoutEnd (body ++ ending) = body := by
  have dropped : ending.all isReturnOrFeed = true := by rcases ended with rfl | rfl <;> rfl
  exact (trimRightWhere_append dropped).trans (withoutEnd_last unbroken)

/-- The end of a plain line is what is taken away from it. -/
theorem endOf_line (unbroken : ∀ c ∈ body, isLineEnd c = false) (ended : IsEnding ending) :
    endOf (body ++ ending) = ending := by
  rw [endOf, withoutEnd_line unbroken ended, List.drop_left]

/-- Plain lines have no other line ends. -/
theorem isLineEnd_withoutEnd (areLines : AreLines lines) (member : line ∈ lines) :
    ∀ c ∈ withoutEnd line, isLineEnd c = false := by
  rcases areLines.isLine_or member with ⟨unbroken, ended⟩ | ⟨_, unbroken⟩
  · rwa [withoutEnd_line unbroken ended]
  · rwa [withoutEnd_last unbroken]

/-- Plain lines can be completed one by one. -/
theorem exists_complete (areLines : AreLines lines) : ∃ complete : List (List Char),
    completed lines.flatten = complete.flatten ∧ complete.map withoutEnd = lines.map withoutEnd
      ∧ ∀ line ∈ complete, IsLine line := by
  induction areLines with
  | nil => exact ⟨[], rfl, rfl, by simp⟩
  | @last body nonempty unbroken =>
      refine ⟨[body ++ ['\n']], ?_, ?_, by simpa using IsLine.intro unbroken (.inl rfl)⟩
      · have ongoing : body.getLast? ≠ some '\n' := fun last => by
          have plain := unbroken '\n' (List.mem_of_getLast? last)
          exact absurd plain (by decide)
        simp [completed, List.isEmpty_eq_false_iff.mpr nonempty, ongoing]
      · rw [List.map_singleton, List.map_singleton, withoutEnd_line unbroken (.inl rfl),
          withoutEnd_last unbroken]
  | @cons line rest isLine others inductionHypothesis =>
      obtain ⟨complete, completes, same, areComplete⟩ := inductionHypothesis
      refine ⟨line :: complete, ?_, by rw [List.map_cons, List.map_cons, same],
        List.forall_mem_cons.mpr ⟨isLine, areComplete⟩⟩
      rw [List.flatten_cons, List.flatten_cons, ← completes]
      by_cases empty : rest.flatten = []
      · rw [empty, List.append_nil]
        obtain ⟨_, rfl | rfl⟩ := isLine
        · exact (EnvLines.completed_of_getLast? (by simp)).trans (List.append_nil _).symm
        · exact (EnvLines.completed_of_getLast? (by simp)).trans (List.append_nil _).symm
      · exact Block.completed_append empty

/-- A plain line closes a statement if it does without its end. -/
theorem closes_of_endsClosed (isLine : IsLine line) (closed : EndsClosed (withoutEnd line)) (front : List Char) :
    Closes (front ++ line) := by
  obtain ⟨unbroken, ended⟩ := isLine
  rw [withoutEnd_line unbroken ended] at closed
  obtain ⟨before, c, gap, rfl, closing, blank⟩ := closed
  have blanks : ∀ d ∈ gap, isBlank d = true ∧ d ≠ '\n' := by
    refine fun d member => ⟨blank d member, ?_⟩
    rintro rfl
    exact absurd (unbroken '\n' (by simp [member])) (by decide)
  rcases ended with rfl | rfl
  · exact ⟨front ++ before, c, gap, by simp, closing, blanks⟩
  · refine ⟨front ++ before, c, gap ++ ['\r'], by simp, closing, ?_⟩
    exact List.forall_mem_append.mpr ⟨blanks, List.forall_mem_singleton.mpr (by decide)⟩

/-- In plain lines new statements stand at an end or behind a line that closes a statement. -/
theorem place_insertIndex (areLines : AreLines lines) :
    (lines.take (insertIndex (lines.map withoutEnd))).flatten = []
      ∨ (lines.drop (insertIndex (lines.map withoutEnd))).flatten = []
      ∨ Closes (lines.take (insertIndex (lines.map withoutEnd))).flatten := by
  rcases insertIndex_spec (lines.map withoutEnd) with start | ⟨heads, body, tails, whole, index, ended⟩
  · exact .inl (by rw [start]; rfl)
  · obtain ⟨before, rest, rfl, rfl, split⟩ := List.map_eq_append_iff.mp whole
    obtain ⟨line, after, rfl, rfl, rfl⟩ := List.map_eq_cons_iff.mp split
    have taken : (before ++ line :: after).take (insertIndex ((before ++ line :: after).map withoutEnd))
        = before ++ [line] := by
      rw [index, List.length_map, List.take_append]
      simp
    have dropped : (before ++ line :: after).drop (insertIndex ((before ++ line :: after).map withoutEnd))
        = after := by
      rw [index, List.length_map, List.drop_append]
      simp
    have closed : EndsClosed (withoutEnd line) :=
      ended.elim (fun complete => (endsClosed_of_isComplete complete).of_trim)
        fun isDirective => endsClosed_of_directive isDirective.2
    rw [taken, dropped]
    by_cases last : after = []
    · exact .inr (.inl (by rw [last]; rfl))
    · rw [List.append_cons, areLines_append_iff last] at areLines
      have isLine := areLines.1 line (by simp)
      refine .inr (.inr ?_)
      rw [List.flatten_append, List.flatten_singleton]
      exact closes_of_endsClosed isLine closed before.flatten

/-! ## The lines of a content -/

/-- The lines of a content without their ends. -/
def bodies (content : List Char) : List (List Char) := (linesWithEnds content).map withoutEnd

/-- In a plain content statements become lines of their own, perhaps with an empty line behind them. -/
theorem bodies_insert (plain : HasPlainLines content)
    (unbroken : ∀ statement ∈ statements, ∀ c ∈ statement, isLineEnd c = false) :
    HasPlainLines (insert content statements) ∧ ∃ before gap after, bodies content = before ++ after
      ∧ bodies (insert content statements) = before ++ (statements ++ (gap ++ after))
      ∧ ∀ line ∈ gap, line = [] := by
  by_cases empty : statements = []
  · subst empty
    exact ⟨plain, [], [], bodies content, rfl, rfl, by simp⟩
  obtain ⟨index, gap, _, isGap, inserted⟩ := exists_insert content empty
  have parted : AreLines ((linesWithEnds content).take index ++ (linesWithEnds content).drop index) := by
    rwa [List.take_append_drop]
  obtain ⟨front, back⟩ := parted.parts
  obtain ⟨complete, completes, same, areComplete⟩ := exists_complete front
  obtain ⟨blanks, gapIs, areBlank⟩ : ∃ blanks : List (List Char), gap = blanks.flatten
      ∧ ∀ line ∈ blanks, line = ['\n'] := by
    rcases isGap with rfl | rfl
    · exact ⟨[], rfl, by simp⟩
    · exact ⟨[['\n']], rfl, by simp⟩
  -- The lines of the new content, in order.
  have whole : ImportStatement.insert content statements
      = (complete ++ (statements.map (· ++ ['\n']) ++ (blanks ++ (linesWithEnds content).drop index))).flatten := by
    simp [inserted, completes, gapIs, block, List.flatMap]
  have areLines : AreLines
      (complete ++ (statements.map (· ++ ['\n']) ++ (blanks ++ (linesWithEnds content).drop index))) := by
    refine ((back.prepend fun line member => ?_).prepend fun line member => ?_).prepend areComplete
    · rw [areBlank line member]
      exact @IsLine.intro [] _ (by simp) (.inl rfl)
    · obtain ⟨statement, among, rfl⟩ := List.mem_map.mp member
      exact .intro (unbroken statement among) (.inl rfl)
  refine ⟨whole ▸ areLines.hasPlainLines, ((linesWithEnds content).take index).map withoutEnd,
    blanks.map withoutEnd, ((linesWithEnds content).drop index).map withoutEnd, ?_, ?_, fun line member => ?_⟩
  · rw [bodies, ← List.map_append, List.take_append_drop]
  · have bare : (statements.map (· ++ ['\n'])).map withoutEnd = statements := by
      rw [List.map_map]
      refine (List.map_congr_left fun statement member => ?_).trans (List.map_id statements)
      exact withoutEnd_line (unbroken statement member) (.inl rfl)
    rw [bodies, whole, areLines.linesWithEnds_flatten]
    simp only [List.map_append, same, bare]
  · obtain ⟨blank, among, rfl⟩ := List.mem_map.mp member
    rw [areBlank blank among]
    rfl

/-- Behind a line feed the lines are those before it, perhaps with an empty one behind them. -/
theorem exists_feed (areCut : AreCut lines) : ∃ complete pad, AreCut complete
    ∧ complete.flatten = lines.flatten ++ ['\n'] ∧ complete.map withoutEnd = lines.map withoutEnd ++ pad
    ∧ ∀ line ∈ pad, line = [] := by
  induction areCut with
  | nil =>
      refine ⟨[['\n']], [[]], ?_, rfl, rfl, by simp⟩
      exact @AreCut.cons [] _ _ (by simp) (.single rfl fun _ => by simp) .nil
  | @last body nonempty unbroken =>
      refine ⟨[body ++ ['\n']], [], .cons unbroken (.single rfl fun _ => by simp) .nil, by simp, ?_, by simp⟩
      rw [List.map_singleton, withoutEnd_line unbroken (.inl rfl), List.map_singleton, withoutEnd_last unbroken]
      rfl
  | @cons body ending rest unbroken ended others inductionHypothesis =>
      by_cases last : rest = []
      · subst last
        by_cases isReturn : ending = ['\r']
        · subst isReturn
          refine ⟨[body ++ ['\r', '\n']], [], .cons unbroken .pair .nil, by simp, ?_, by simp⟩
          have dropped : withoutEnd (body ++ ['\r']) = body :=
            (trimRightWhere_append rfl).trans (withoutEnd_last unbroken)
          rw [List.map_singleton, withoutEnd_line unbroken (.inr rfl), List.map_singleton, dropped]
          rfl
        · refine ⟨[body ++ ending, ['\n']], [[]], ?_, by simp, rfl, by simp⟩
          have apart : IsEnd [['\n']].flatten ending := by
            cases ended with
            | pair => exact .pair
            | single ended _ => exact .single ended fun same => absurd (by rw [same]) isReturn
          exact .cons unbroken apart (@AreCut.cons [] _ _ (by simp) (.single rfl fun _ => by simp) .nil)
      · obtain ⟨complete, pad, areComplete, whole, same, areEmpty⟩ := inductionHypothesis
        refine ⟨(body ++ ending) :: complete, pad, .cons unbroken (ended.congr fun feed => ?_) areComplete,
          by simp [whole], by simp [same], areEmpty⟩
        obtain ⟨line, rest, rfl⟩ := List.exists_cons_of_ne_nil last
        obtain ⟨c, line, rfl⟩ := List.exists_cons_of_ne_nil others.ne_nil
        rwa [whole] at feed

/-- Lines can be completed, perhaps with an empty one behind them. -/
theorem exists_completed (areCut : AreCut lines) : ∃ complete pad, AreCut complete
    ∧ complete.flatten = completed lines.flatten ∧ complete.map withoutEnd = lines.map withoutEnd ++ pad
    ∧ ∀ line ∈ pad, line = [] := by
  by_cases whole : (lines.flatten.isEmpty || lines.flatten.getLast? == some '\n') = true
  · exact ⟨lines, [], areCut, (if_pos whole).symm, by simp, by simp⟩
  · rw [completed, if_neg whole]
    exact exists_feed areCut

/-- Statements become lines of their own behind the first lines of a content, perhaps with empty lines before and
behind them. -/
theorem exists_bodies_insert (content : List Char)
    (unbroken : ∀ statement ∈ statements, ∀ c ∈ statement, isLineEnd c = false) :
    ∃ pad gap, bodies (insert content statements)
        = (bodies content).take (insertIndex (bodies content))
          ++ (pad ++ (statements ++ (gap ++ (bodies content).drop (insertIndex (bodies content)))))
      ∧ (∀ line ∈ pad, line = []) ∧ ∀ line ∈ gap, line = [] := by
  by_cases empty : statements = []
  · subst empty
    exact ⟨[], [], by simp [insert_nil], by simp, by simp⟩
  obtain ⟨index, gap, indexIs, isGap, inserted⟩ := exists_insert content empty
  have areCut := areCut_linesWithEnds content
  rw [← List.take_append_drop index (linesWithEnds content)] at areCut
  obtain ⟨front, back⟩ := areCut.parts
  obtain ⟨complete, pad, areComplete, completes, same, areEmpty⟩ := exists_completed front
  obtain ⟨blanks, rfl, areBlank⟩ : ∃ blanks : List (List Char), gap = block blanks ∧ ∀ line ∈ blanks, line = [] := by
    rcases isGap with rfl | rfl
    · exact ⟨[], rfl, by simp⟩
    · exact ⟨[[]], rfl, by simp⟩
  have single : ∀ text ∈ statements ++ blanks, ∀ c ∈ text, isLineEnd c = false := by
    refine List.forall_mem_append.mpr ⟨unbroken, fun line member => ?_⟩
    simp [areBlank line member]
  -- The lines of the new content, in order.
  have whole : ImportStatement.insert content statements
      = (complete ++ ((statements ++ blanks).map (fun text => text ++ ['\n'])
        ++ (linesWithEnds content).drop index)).flatten := by
    simp [inserted, completes, block, List.flatMap]
  have lines := areComplete.append (back.prepend single) (by
    rw [completes]
    refine (EnvLines.completed_eq_nil_or _).imp_right ?_
    rintro ⟨start, ended⟩
    rw [ended, List.getLast?_concat])
  have bare : ((statements ++ blanks).map fun text => text ++ ['\n']).map withoutEnd = statements ++ blanks := by
    rw [List.map_map]
    refine (List.map_congr_left fun text member => ?_).trans (List.map_id _)
    exact withoutEnd_line (single text member) (.inl rfl)
  refine ⟨pad, blanks, ?_, areEmpty, areBlank⟩
  rw [← bodies] at indexIs
  rw [bodies, whole, lines.linesWithEnds_flatten, List.map_append, List.map_append, same, bare, ← indexIs, bodies,
    ← List.map_take, ← List.map_drop]
  simp only [List.append_assoc]

/-- What a plain content imports it still imports when statements are inserted. -/
theorem Occurs.inserted {form : List Char → Prop} {atLine : Bool} (plain : HasPlainLines content)
    (flows : ∀ written, form written → Flows written)
    (starts : atLine = true ∨ ∀ written, form written → ∃ c rest, written = c :: rest ∧ isBlank c = false)
    (occurs : Occurs atLine form content) (statements : List (List Char)) :
    Occurs atLine form (ImportStatement.insert content statements) := by
  by_cases empty : statements = []
  · rwa [empty, insert_nil]
  obtain ⟨index, gap, rfl, isGap, inserted⟩ := exists_insert content empty
  rw [inserted, ← List.append_assoc (block statements)]
  refine Occurs.insert flows starts (place_insertIndex plain) ?_ ?_
  · obtain ⟨before, last, rfl⟩ := List.eq_nil_or_concat statements |>.resolve_left empty
    rcases isGap with rfl | rfl <;> simp [block]
  · rwa [← List.flatten_append, List.take_append_drop, flatten_linesWithEnds]

/-- A statement that is inserted stands at the start of a line. -/
theorem Occurs.of_mem {form : List Char → Prop} {statement written rest : List Char}
    (member : statement ∈ statements) (whole : statement = written ++ rest) (isForm : form written)
    (content : List Char) : Occurs true form (ImportStatement.insert content statements) := by
  obtain ⟨index, gap, _, _, inserted⟩ := exists_insert content (List.ne_nil_of_mem member)
  obtain ⟨before, after, rfl⟩ := List.append_of_mem member
  let ahead := completed ((linesWithEnds content).take index).flatten ++ block before
  have complete : completed ahead = ahead := by rw [Block.completed_join, completed_block]
  refine ⟨ahead, written,
    rest ++ '\n' :: (block after ++ (gap ++ ((linesWithEnds content).drop index).flatten)), ?_, isForm,
    fun _ => ?_⟩
  · rw [inserted, whole]
    simp [block, ahead]
  · rw [← complete]
    refine (EnvLines.completed_eq_nil_or ahead).imp_right ?_
    rintro ⟨start, ended⟩
    rw [ended, List.getLast?_concat]

end Scaffold.ImportAdd
