import Scaffold.Modifier.ImportStatement
import Scaffold.Proofs.Merge.Blocks
import Scaffold.Proofs.Text.Cutting

/-!
# Laws of inserting statements

New statements stand behind complete lines of a content, and whatever stood behind these lines follows.
So the content keeps its lines in order (`sublist_lines_insert`), every statement without a line end is a
line of its own (`mem_lines_insert`), and the content grows (`length_lt_insert`).
-/

namespace Scaffold.ImportStatement

open EnvLines (completed)

variable {content statement : List Char} {statements : List (List Char)}

/-- Nothing is inserted if there is no statement. -/
theorem insert_nil (content : List Char) : insert content [] = content := rfl

/-- New statements stand between complete lines of a content and its other lines, perhaps with an empty line
before these. -/
theorem exists_insert (content : List Char) (nonempty : statements ≠ []) :
    ∃ index gap, index = insertIndex ((Text.linesWithEnds content).map withoutEnd) ∧ (gap = [] ∨ gap = ['\n'])
      ∧ insert content statements
        = completed ((Text.linesWithEnds content).take index).flatten
          ++ (block statements ++ (gap ++ ((Text.linesWithEnds content).drop index).flatten)) := by
  have given : statements.isEmpty = false := List.isEmpty_eq_false_iff.mpr nonempty
  let lines := Text.linesWithEnds content
  let index := insertIndex (lines.map withoutEnd)
  refine ⟨index, if needsGap index lines then ['\n'] else [], rfl, ?_, ?_⟩
  · split
    · exact .inr rfl
    · exact .inl rfl
  · rw [insert, given, if_neg (by simp)]
    simp only [List.append_assoc]
    rfl

/-- Statements on lines of their own are complete lines. -/
theorem completed_block (statements : List (List Char)) : completed (block statements) = block statements := by
  rcases List.eq_nil_or_concat statements with rfl | ⟨before, last, rfl⟩
  · rfl
  · refine EnvLines.completed_of_getLast? ?_
    rw [List.concat_eq_append, block, List.flatMap_append, List.flatMap_singleton, ← List.append_assoc]
    exact List.getLast?_concat

/-- The lines of statements are cut for themselves. -/
theorem lines_block_append (statements : List (List Char)) (rest : List Char) :
    Text.lines (block statements ++ rest) = Text.lines (block statements) ++ Text.lines rest := by
  rw [← completed_block, EnvLines.lines_completed_append]

/-- A statement without a line end is a line among the statements. -/
theorem mem_lines_block (member : statement ∈ statements)
    (unbroken : ∀ c ∈ statement, Text.isLineEnd c = false) : statement ∈ Text.lines (block statements) := by
  obtain ⟨before, after, rfl⟩ := List.append_of_mem member
  have split : block (before ++ statement :: after) = block before ++ (statement ++ '\n' :: block after) := by
    simp [block]
  rw [split, lines_block_append, Text.lines_line_append unbroken]
  simp

/-- Completing a text keeps its lines in order. -/
theorem sublist_lines_completed (text : List Char) :
    (Text.lines text).Sublist (Text.lines (completed text)) := by
  unfold completed
  split
  · exact List.Sublist.refl _
  · rcases Text.lines_append_singleton text with same | longer
    · rw [same]
    · rw [longer]
      exact List.sublist_append_left _ _

/-- A content keeps its lines in order when statements are inserted. -/
theorem sublist_lines_insert (content : List Char) (statements : List (List Char)) :
    (Text.lines content).Sublist (Text.lines (insert content statements)) := by
  by_cases empty : statements = []
  · rw [empty, insert_nil]
  · obtain ⟨index, gap, _, isGap, inserted⟩ := exists_insert content empty
    rw [inserted, EnvLines.lines_completed_append, lines_block_append,
      ← Text.lines_take_append_drop content index]
    refine (sublist_lines_completed _).append (.trans ?_ (List.sublist_append_right _ _))
    rcases isGap with rfl | rfl
    · exact List.Sublist.refl _
    · exact List.sublist_cons_self _ _

/-- A content is part of what statements are inserted into. -/
theorem sublist_insert (content : List Char) (statements : List (List Char)) :
    content.Sublist (insert content statements) := by
  by_cases empty : statements = []
  · rw [empty, insert_nil]
  · obtain ⟨index, gap, _, _, inserted⟩ := exists_insert content empty
    have whole : content = ((Text.linesWithEnds content).take index).flatten
        ++ ((Text.linesWithEnds content).drop index).flatten := by
      rw [← List.flatten_append, List.take_append_drop, Text.flatten_linesWithEnds]
    rw [inserted]
    conv_lhs => rw [whole]
    exact (EnvLines.prefix_completed _).sublist.append
      ((List.sublist_append_right _ _).trans (List.sublist_append_right _ _))

/-- A statement without a line end is a line of the content that it is inserted into. -/
theorem mem_lines_insert (content : List Char) (member : statement ∈ statements)
    (unbroken : ∀ c ∈ statement, Text.isLineEnd c = false) :
    statement ∈ Text.lines (insert content statements) := by
  obtain ⟨index, gap, _, _, inserted⟩ := exists_insert content (List.ne_nil_of_mem member)
  rw [inserted, EnvLines.lines_completed_append, lines_block_append]
  exact List.mem_append_right _ (List.mem_append_left _ (mem_lines_block member unbroken))

/-- A content grows when statements are inserted. -/
theorem length_lt_insert (content : List Char) (nonempty : statements ≠ []) :
    content.length < (insert content statements).length := by
  obtain ⟨index, gap, _, _, inserted⟩ := exists_insert content nonempty
  have whole : ((Text.linesWithEnds content).take index).flatten.length
      + ((Text.linesWithEnds content).drop index).flatten.length = content.length := by
    rw [← List.length_append, ← List.flatten_append, List.take_append_drop, Text.flatten_linesWithEnds]
  have front := (EnvLines.prefix_completed ((Text.linesWithEnds content).take index).flatten).length_le
  have added : 0 < (block statements).length := by
    obtain ⟨statement, rest, rfl⟩ := List.exists_cons_of_ne_nil nonempty
    simp only [block, List.flatMap_cons, List.length_append, List.length_cons]
    omega
  rw [inserted]
  simp only [List.length_append]
  omega

end Scaffold.ImportStatement
