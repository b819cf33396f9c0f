import Scaffold.Merge.Lines
import Scaffold.Proofs.Merge.EnvLines
import Scaffold.Proofs.Text.Cutting
import Scaffold.Proofs.Text.Search

/-!
# Laws of blocks

Appending and prepending join complete lines (`append_eq`, `prepend_eq`).  A visible block is contained in
itself, and what is contained in a text is contained in the text with complete lines before and behind it
(`contains_self`, `contains_join`).
-/

namespace Scaffold.Block

open EnvLines (completed completed_eq_nil_or prefix_completed completed_of_getLast?)

variable {text first second block : List Char}

/-! ## Complete lines -/

/-- A text that is put behind another is completed where it ends. -/
theorem completed_append (nonempty : second ≠ []) :
    completed (first ++ second) = first ++ completed second := by
  have last : (first ++ second).getLast? = second.getLast? := by
    rw [List.getLast?_append, Option.or_of_isSome (List.getLast?_isSome.mpr nonempty)]
  have whole : first ++ second ≠ [] := List.append_ne_nil_of_right_ne_nil first nonempty
  simp only [completed, last, List.isEmpty_eq_false_iff.mpr whole, List.isEmpty_eq_false_iff.mpr nonempty,
    Bool.false_or]
  split
  · rfl
  · rw [List.append_assoc]

/-- Complete lines that are joined are complete. -/
theorem completed_join (first second : List Char) :
    completed (completed first ++ second) = completed first ++ completed second := by
  by_cases nonempty : second = []
  · rw [nonempty, List.append_nil]
    rcases completed_eq_nil_or first with empty | ⟨start, ended⟩
    · rw [empty]
      rfl
    · have last : (completed first).getLast? = some '\n' := by rw [ended, List.getLast?_concat]
      exact (completed_of_getLast? last).trans (List.append_nil _).symm
  · exact completed_append nonempty

/-- A block is appended to complete lines. -/
theorem append_eq (text block : List Char) : append text block = completed text ++ block := by
  unfold append completed
  split
  · rfl
  · rw [List.append_assoc, List.singleton_append]

/-- A block is put as complete lines before a text. -/
theorem prepend_eq (nonempty : block ≠ []) : prepend text block = completed block ++ text := by
  simp only [prepend, completed, List.isEmpty_eq_false_iff.mpr nonempty, Bool.false_or]
  split
  · rfl
  · rw [List.append_assoc, List.singleton_append]

/-- A text stands in front of a block that is appended to it. -/
theorem prefix_append (text block : List Char) : text <+: append text block := by
  rw [append_eq]
  exact (prefix_completed text).trans (List.prefix_append ..)

/-- A block that is not empty is appended as it is, or on a new line. -/
theorem exists_tail (text : List Char) (nonempty : block ≠ []) :
    ∃ tail, tail ≠ [] ∧ append text block = text ++ tail := by
  unfold append
  split
  · exact ⟨block, nonempty, rfl⟩
  · exact ⟨'\n' :: block, List.cons_ne_nil _ _, rfl⟩

/-- A text stands behind the complete lines of a block that is put before it. -/
theorem exists_head (text block : List Char) :
    ∃ head, prepend text block = head ++ text ∧ head.getLast? = some '\n' := by
  unfold prepend
  split
  next complete => exact ⟨block, rfl, by simpa using complete⟩
  next => exact ⟨block ++ ['\n'], by simp, List.getLast?_concat⟩

/-! ## Blocks in complete lines -/

/-- A block occurs in a text as whole lines exactly if it occurs between line feeds in the complete
lines of the text. -/
theorem contains_eq_true_iff : contains text block = true ↔
    Text.isAllBlank (core block) = false ∧ '\n' :: core block ++ ['\n'] <:+: '\n' :: completed text := by
  rw [contains, Bool.and_eq_true, Bool.not_eq_true', Text.occursIn_eq_true_iff]
  refine and_congr_right fun visible => ?_
  by_cases empty : text = []
  · have short {lines : List Char} (few : lines.length < 3) :
        ¬('\n' :: core block ++ ['\n'] <:+: lines) := by
      intro occurs
      have fits := occurs.length_le
      have nonempty : 0 < (core block).length := by
        rw [List.length_pos_iff]
        rintro blank
        rw [blank] at visible
        cases visible
      simp only [List.length_append, List.length_cons, List.length_nil] at fits
      omega
    rw [empty]
    exact iff_of_false (short (by decide)) (short (by decide))
  · rw [framed, completed, List.isEmpty_eq_false_iff.mpr empty, Bool.false_or]
    split <;> rfl

/-- A block with a carriage return is contained in no text without one. -/
theorem contains_of_mem (returns : '\r' ∈ block) (absent : '\r' ∉ text) : contains text block = false := by
  refine Bool.eq_false_iff.mpr fun found => ?_
  have occurs := (contains_eq_true_iff.mp found).2
  have inside : '\r' ∈ '\n' :: completed text :=
    occurs.subset (by simp [core, Text.mem_trimWhere returns])
  exact (List.mem_cons.mp inside).elim (by decide) (EnvLines.notMem_completed absent (by decide))

/-- What a text contains it contains with complete lines before and behind it. -/
theorem contains_join (either : contains first block = true ∨ contains second block = true) :
    contains (completed first ++ second) block = true := by
  simp only [contains_eq_true_iff, completed_join] at either ⊢
  rcases either with ⟨visible, occurs⟩ | ⟨visible, occurs⟩
  · exact ⟨visible, occurs.trans (List.prefix_append ('\n' :: completed first) _).isInfix⟩
  · refine ⟨visible, occurs.trans ?_⟩
    rcases completed_eq_nil_or first with empty | ⟨start, ended⟩
    · rw [empty]
      exact List.infix_rfl
    · rw [ended, List.append_assoc, List.singleton_append]
      exact (List.suffix_append ('\n' :: start) _).isInfix

/-- Line ends are unified in completed lines as in the text. -/
theorem unifyLineEnds_completed (text : List Char) :
    Text.unifyLineEnds (completed text) = completed (Text.unifyLineEnds text) := by
  rcases List.eq_nil_or_concat text with rfl | ⟨front, c, rfl⟩
  · rfl
  rw [List.concat_eq_append]
  by_cases feed : c = '\n'
  · subst feed
    obtain ⟨start, unified⟩ := Text.exists_unifyLineEnds_newline front []
    have last : (Text.unifyLineEnds (front ++ ['\n'])).getLast? = some '\n' := by
      rw [unified]
      exact List.getLast?_concat
    rw [completed_of_getLast? List.getLast?_concat, completed_of_getLast? last]
  · have open' : completed (front ++ [c]) = front ++ [c, '\n'] := by
      simp [completed, feed]
    have before : Text.unifyLineEnds (front ++ [c])
        = Text.unifyLineEnds front ++ Text.unifyLineEnds [c] :=
      Text.unifyLineEnds_append_of_head (by simpa using feed) front
    have behind : Text.unifyLineEnds (front ++ [c, '\n'])
        = Text.unifyLineEnds front ++ Text.unifyLineEnds [c, '\n'] :=
      Text.unifyLineEnds_append_of_head (by simpa using feed) front
    rw [open', before, behind]
    by_cases isReturn : c = '\r'
    · subst isReturn
      exact (completed_of_getLast? List.getLast?_concat).symm
    · have alone : Text.unifyLineEnds [c] = [c] :=
        Text.unifyLineEnds_of_notMem (by simpa using Ne.symm isReturn)
      have ended : Text.unifyLineEnds [c, '\n'] = [c, '\n'] :=
        Text.unifyLineEnds_of_notMem (by simpa using Ne.symm isReturn)
      simp [alone, ended, completed, feed]

/-- A block without carriage returns is contained in a text also when line ends are unified. -/
theorem contains_unifyLineEnds (found : contains text block = true) (plain : '\r' ∉ core block) :
    contains (Text.unifyLineEnds text) block = true := by
  obtain ⟨visible, before, after, occurs⟩ := contains_eq_true_iff.mp found
  have whole : '\n' :: completed text = before ++ '\n' :: (core block ++ '\n' :: after) := by
    simpa using occurs.symm
  obtain ⟨start, same⟩ := Text.exists_unifyLineEnds_newline before (core block ++ '\n' :: after)
  have unified : '\n' :: Text.unifyLineEnds (completed text) = Text.unifyLineEnds ('\n' :: completed text) := by
    rw [Text.unifyLineEnds.eq_4] <;> simp
  refine contains_eq_true_iff.mpr ⟨visible, start, Text.unifyLineEnds after, ?_⟩
  rw [← unifyLineEnds_completed, unified, whole, same, Text.unifyLineEnds_append plain, Text.unifyLineEnds.eq_4]
    <;> simp

/-- A block without the line feeds around it is completed by one. -/
theorem completed_core (nonempty : core block ≠ []) : completed (core block) = core block ++ ['\n'] := by
  have last := List.getLast?_eq_some_getLast nonempty
  have kept : ((core block).getLast nonempty == '\n') = false :=
    @Text.notDropped_of_getLast? (· == '\n') _ _ last
  simpa [completed, last, nonempty] using kept

/-- Behind line feeds, the first of which stands before them, a block stands between line feeds. -/
theorem infix_of_feeds {lead : List Char} (feeds : lead.all (· == '\n') = true) (block rest : List Char) :
    '\n' :: block ++ ['\n'] <:+: '\n' :: (lead ++ block ++ '\n' :: rest) := by
  have same : lead = List.replicate lead.length '\n' :=
    List.eq_replicate_of_mem (by simpa using feeds)
  have turned : '\n' :: lead = lead ++ ['\n'] := by
    rw [same, ← List.replicate_succ, List.replicate_succ']
  refine ⟨lead, rest, ?_⟩
  calc lead ++ ('\n' :: block ++ ['\n']) ++ rest
      = (lead ++ ['\n']) ++ (block ++ '\n' :: rest) := by simp
    _ = '\n' :: (lead ++ block ++ '\n' :: rest) := by
        rw [← turned, List.cons_append, List.append_assoc]

/-- A completed block is line feeds, the block without the line feeds around it, and a line feed. -/
theorem exists_prefix_completed (nonempty : core block ≠ []) :
    ∃ lead rest, lead.all (· == '\n') = true ∧ lead ++ core block ++ '\n' :: rest <+: completed block := by
  obtain ⟨lead, trail, whole, feeds, ends⟩ := Text.exists_eq_append_trimWhere_append (· == '\n') block
  change block = lead ++ core block ++ trail at whole
  cases trail with
  | cons c trail =>
      obtain rfl : c = '\n' := by simpa using List.all_eq_true.mp ends c List.mem_cons_self
      exact ⟨lead, trail, feeds, by rw [← whole]; exact prefix_completed block⟩
  | nil =>
      rw [List.append_nil] at whole
      have same : completed block = lead ++ core block ++ ['\n'] := by
        calc completed block
            = completed (lead ++ core block) := by rw [← whole]
          _ = lead ++ core block ++ ['\n'] := by
              rw [completed_append nonempty, completed_core nonempty, List.append_assoc]
      exact ⟨lead, [], feeds, same ▸ List.prefix_rfl⟩

/-- A block with a visible line is visible without the line feeds around it. -/
theorem isAllBlank_core (visible : ∃ line ∈ Text.lines block, Text.isAllBlank line = false) :
    Text.isAllBlank (core block) = false := by
  obtain ⟨line, member, shown⟩ := visible
  obtain ⟨c, inside, seen⟩ := List.all_eq_false.mp shown
  have other : (c == '\n') = false := by
    rw [beq_eq_false_iff_ne]
    rintro rfl
    exact seen (by decide)
  exact List.all_eq_false.mpr
    ⟨c, Text.mem_trimWhere (Text.mem_of_mem_lines block line member c inside) other, seen⟩

/-- A block with a visible line is contained in itself. -/
theorem contains_self (visible : ∃ line ∈ Text.lines block, Text.isAllBlank line = false) :
    contains block block = true := by
  have shown := isAllBlank_core visible
  have nonempty : core block ≠ [] := by
    intro blank
    rw [blank] at shown
    cases shown
  obtain ⟨lead, rest, feeds, starts⟩ := exists_prefix_completed nonempty
  have inside : '\n' :: (lead ++ core block ++ '\n' :: rest) <+: '\n' :: completed block :=
    List.cons_prefix_cons.mpr ⟨rfl, starts⟩
  exact contains_eq_true_iff.mpr ⟨shown, (infix_of_feeds feeds _ rest).trans inside.isInfix⟩

end Scaffold.Block
