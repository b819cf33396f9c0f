import Scaffold.Merge.Lines
import Scaffold.Proofs.Modifier.Insertion
import Scaffold.Proofs.Text.Trimming

/-!
# Laws of schema texts

An extended schema keeps the lines of the text in order (`sublist_lines_extend`) and goes on to contain every
block that the text contained.  A definition that occurs nowhere in the text becomes a block of it, and one
that occurs somewhere is passed over, whatever it is a part of (`contains_extend`, `withTable_eq_self_iff`).
An extended schema that is read back is extended no further by the same imports and definitions exactly if
the imports are single lines and the definitions have no carriage returns (`extend_again_iff`).
-/

namespace Scaffold.SchemaText

open EnvLines (completed)

variable {text definition line block : List Char} {imports definitions : List (List Char)}

/-! ## One definition -/

/-- A definition occurs somewhere in a text, blanks around it aside. -/
def Has (text definition : List Char) : Prop := Text.trim definition <:+: text

/-- The test before a definition is added decides whether the text has it: a blank one occurs anywhere. -/
theorem has_iff :
    (Text.isAllBlank definition || Text.occursIn (Text.trim definition) text) = true
      ↔ Has text definition := by
  rw [Bool.or_eq_true, Text.occursIn_eq_true_iff, Has, or_iff_right_iff_imp]
  intro blank
  rw [Text.trim_of_isAllBlank blank]
  exact List.nil_infix

/-- A definition that a text has is passed over. -/
theorem withTable_of_has (has : Has text definition) : withTable text definition = text := by
  rw [withTable, if_pos (has_iff.mpr has)]

/-- A definition that a text does not have stands on lines of its own behind it, perhaps behind an empty
line. -/
theorem exists_withTable (new : ¬Has text definition) :
    ∃ gap, (gap = [] ∨ gap = ['\n'])
      ∧ withTable text definition = completed text ++ (gap ++ definition ++ ['\n']) := by
  refine ⟨if Text.isAllBlank text then [] else ['\n'], ?_, ?_⟩
  · split
    · exact .inl rfl
    · exact .inr rfl
  · rw [withTable, if_neg (has_iff.not.mpr new)]
    simp only [List.append_assoc]
    rfl

/-- A text stands in front of what is added to it. -/
theorem prefix_withTable (text definition : List Char) : text <+: withTable text definition := by
  by_cases has : Has text definition
  · rw [withTable_of_has has]
  · obtain ⟨gap, _, added⟩ := exists_withTable has
    rw [added]
    exact (EnvLines.prefix_completed text).trans (List.prefix_append _ _)

/-- A definition is passed over only if the text has it. -/
theorem withTable_eq_self_iff : withTable text definition = text ↔ Has text definition := by
  refine ⟨fun same => ?_, withTable_of_has⟩
  by_contra new
  obtain ⟨gap, _, added⟩ := exists_withTable new
  have longer := (EnvLines.prefix_completed text).length_le
  have lengths := congrArg List.length (added.symm.trans same)
  simp only [List.length_append, List.length_singleton] at lengths
  omega

/-- Afterwards a text has the definition. -/
theorem has_withTable (text definition : List Char) : Has (withTable text definition) definition := by
  by_cases has : Has text definition
  · rwa [withTable_of_has has]
  · obtain ⟨gap, _, added⟩ := exists_withTable has
    rw [added]
    exact (Text.infix_trim definition).trans ⟨completed text ++ gap, ['\n'], by simp⟩

/-- What a text has it has when more stands behind it. -/
theorem Has.mono {later : List Char} (has : Has text definition) (starts : text <+: later) :
    Has later definition :=
  List.IsInfix.trans has starts.isInfix

/-- A text keeps its lines in order when a definition is added. -/
theorem sublist_lines_withTable (text definition : List Char) :
    (Text.lines text).Sublist (Text.lines (withTable text definition)) := by
  by_cases has : Has text definition
  · rw [withTable_of_has has]
  · obtain ⟨gap, _, added⟩ := exists_withTable has
    rw [added, EnvLines.lines_completed_append]
    exact (ImportStatement.sublist_lines_completed text).trans (List.sublist_append_left _ _)

/-- A text contains the blocks that it contained before a definition was added. -/
theorem contains_withTable (found : Block.contains text block = true) (definition : List Char) :
    Block.contains (withTable text definition) block = true := by
  by_cases has : Has text definition
  · rwa [withTable_of_has has]
  · obtain ⟨gap, _, added⟩ := exists_withTable has
    rw [added]
    exact Block.contains_join (.inl found)

/-- A definition that a text does not have is a block of it once it is added. -/
theorem contains_withTable_self (visible : Text.isAllBlank (Block.core block) = false)
    (new : ¬Has text (Block.core block)) :
    Block.contains (withTable text (Block.core block)) block = true := by
  obtain ⟨gap, isGap, added⟩ := exists_withTable new
  rw [added]
  refine Block.contains_join (.inr (Block.contains_eq_true_iff.mpr ⟨visible, ?_⟩))
  have complete : completed (gap ++ Block.core block ++ ['\n']) = gap ++ Block.core block ++ ['\n'] :=
    EnvLines.completed_of_getLast? List.getLast?_concat
  rw [complete]
  refine Block.infix_of_feeds ?_ (Block.core block) []
  rcases isGap with rfl | rfl <;> rfl

/-! ## All definitions -/

/-- A text stands in front of all that is added to it. -/
theorem prefix_foldl (text : List Char) (definitions : List (List Char)) :
    text <+: definitions.foldl withTable text := by
  induction definitions generalizing text with
  | nil => exact List.prefix_rfl
  | cons definition rest inductionHypothesis =>
      exact (prefix_withTable text definition).trans (inductionHypothesis _)

/-- Afterwards a text has all definitions. -/
theorem has_foldl (text : List Char) :
    ∀ definition ∈ definitions, Has (definitions.foldl withTable text) definition := by
  induction definitions generalizing text with
  | nil => simp
  | cons first rest inductionHypothesis =>
      refine List.forall_mem_cons.mpr ⟨?_, inductionHypothesis _⟩
      exact (has_withTable text first).mono (prefix_foldl _ rest)

/-- Nothing is added exactly if the text has all definitions. -/
theorem foldl_eq_self_iff :
    definitions.foldl withTable text = text ↔ ∀ definition ∈ definitions, Has text definition := by
  induction definitions with
  | nil => simp
  | cons first rest inductionHypothesis =>
      rw [List.foldl_cons, List.forall_mem_cons, ← inductionHypothesis, ← withTable_eq_self_iff]
      constructor
      · intro same
        have between := prefix_foldl (withTable text first) rest
        rw [same] at between
        have first' : withTable text first = text :=
          (between.eq_of_length_le (prefix_withTable text first).length_le)
        exact ⟨first', by rwa [first'] at same⟩
      · rintro ⟨kept, same⟩
        rw [kept, same]

/-- A text keeps its lines in order when definitions are added. -/
theorem sublist_lines_foldl (text : List Char) (definitions : List (List Char)) :
    (Text.lines text).Sublist (Text.lines (definitions.foldl withTable text)) := by
  induction definitions generalizing text with
  | nil => exact List.Sublist.refl _
  | cons definition rest inductionHypothesis =>
      exact (sublist_lines_withTable text definition).trans (inductionHypothesis _)

/-- A text contains the blocks that it contained before definitions were added. -/
theorem contains_foldl (found : Block.contains text block = true) (definitions : List (List Char)) :
    Block.contains (definitions.foldl withTable text) block = true := by
  induction definitions generalizing text with
  | nil => exact found
  | cons definition rest inductionHypothesis => exact inductionHypothesis (contains_withTable found definition)

/-! ## Imports -/

/-- Which lines are new. -/
theorem mem_newImports :
    line ∈ newImports text imports ↔ line ∈ imports ∧ line ≠ [] ∧ line ∉ (Text.lines text).map Text.trim := by
  simp [newImports, List.mem_eraseDups]

/-- A line that a text is to have is a line of it afterwards if it is trimmed and has no line ends. -/
theorem mem_lines_imported (text : List Char) (member : line ∈ imports) (trimmed : Text.trim line = line)
    (unbroken : ∀ c ∈ line, Text.isLineEnd c = false) :
    line = [] ∨ line ∈ (Text.lines (ImportStatement.insert text (newImports text imports))).map Text.trim := by
  by_cases empty : line = []
  · exact .inl empty
  right
  by_cases known : line ∈ (Text.lines text).map Text.trim
  · exact ((ImportStatement.sublist_lines_insert text _).map Text.trim).subset known
  · have new := mem_newImports.mpr ⟨member, empty, known⟩
    exact List.mem_map.mpr ⟨line, ImportStatement.mem_lines_insert text new unbroken, trimmed⟩

/-! ## Schemas -/

/-- An extended schema keeps the lines of the text in order. -/
theorem sublist_lines_extend (text : List Char) (imports definitions : List (List Char)) :
    (Text.lines text).Sublist (Text.lines (extend text imports definitions)) :=
  (ImportStatement.sublist_lines_insert text _).trans (sublist_lines_foldl _ definitions)

/-- A schema stays as it is exactly if it has all imports and all definitions. -/
theorem extend_eq_self_iff : extend text imports definitions = text
    ↔ newImports text imports = [] ∧ ∀ definition ∈ definitions, Has text definition := by
  constructor
  · intro same
    have starts := prefix_foldl (ImportStatement.insert text (newImports text imports)) definitions
    rw [← extend, same] at starts
    have nothing : newImports text imports = [] := by
      by_contra nonempty
      exact absurd starts.length_le (by have := ImportStatement.length_lt_insert text nonempty; omega)
    rw [extend, nothing, ImportStatement.insert_nil, foldl_eq_self_iff] at same
    exact ⟨nothing, same⟩
  · rintro ⟨nothing, has⟩
    rw [extend, nothing, ImportStatement.insert_nil, foldl_eq_self_iff.mpr has]

/-- What a text has is found when its line ends are unified if it has no carriage returns. -/
theorem Has.unified (has : Has text definition) (plain : '\r' ∉ Text.trim definition) :
    Has (Text.unifyLineEnds text) definition := by
  obtain ⟨before, after, rfl⟩ := has
  by_cases empty : Text.trim definition = []
  · rw [Has, empty]
    exact List.nil_infix
  have apart : (Text.trim definition ++ after).head? ≠ some '\n' := by
    obtain ⟨c, rest, same⟩ := List.exists_cons_of_ne_nil empty
    have first : (Text.trim definition).head? = some c := by rw [same]; rfl
    have visible := Text.notDropped_of_head? first
    rw [same]
    rintro feed
    obtain rfl := Option.some.inj feed
    exact absurd visible (by decide)
  rw [List.append_assoc, Text.unifyLineEnds_append_of_head apart, Text.unifyLineEnds_append plain,
    ← List.append_assoc]
  exact ⟨_, _, rfl⟩

/-- An extended schema that is read back is extended no further exactly if the imports are single lines and
the definitions have no carriage returns. -/
theorem extend_again_iff (trimmed : ∀ line ∈ imports, Text.trim line = line) (text : List Char) :
    extend (Text.unifyLineEnds (extend text imports definitions)) imports definitions
        = Text.unifyLineEnds (extend text imports definitions)
      ↔ (∀ line ∈ imports, ∀ c ∈ line, Text.isLineEnd c = false)
        ∧ ∀ definition ∈ definitions, '\r' ∉ Text.trim definition := by
  rw [extend_eq_self_iff]
  constructor
  · rintro ⟨nothing, has⟩
    constructor
    · intro line member
      by_contra broken
      have nonempty : line ≠ [] := by
        rintro rfl
        exact broken nofun
      have new : line ∈ newImports (Text.unifyLineEnds (extend text imports definitions)) imports := by
        refine mem_newImports.mpr ⟨member, nonempty, fun known => broken fun c inside => ?_⟩
        obtain ⟨whole, isLine, rfl⟩ := List.mem_map.mp known
        exact Text.isLineEnd_of_mem_lines _ whole isLine c ((Text.infix_trim whole).subset inside)
      rw [nothing] at new
      cases new
    · intro definition member inside
      exact Text.notMem_unifyLineEnds _ ((has definition member).subset inside)
  · rintro ⟨unbroken, plain⟩
    constructor
    · rw [List.eq_nil_iff_forall_not_mem]
      intro line new
      obtain ⟨member, nonempty, unknown⟩ := mem_newImports.mp new
      rw [Text.lines_unifyLineEnds] at unknown
      have imported := mem_lines_imported text member (trimmed line member) (unbroken line member)
      refine unknown (((sublist_lines_foldl _ definitions).map Text.trim).subset ?_)
      exact imported.resolve_left nonempty
    · intro definition member
      exact (has_foldl _ definition member).unified (plain definition member)

/-- After a schema is extended, a visible definition with no carriage return is a block of what is read back
if it was a block when its turn came or occurred nowhere. -/
theorem contains_extend (text : List Char) (imports before after : List (List Char))
    (visible : Text.isAllBlank (Block.core block) = false) (plain : '\r' ∉ Block.core block)
    (expected : Block.contains (extend text imports before) block = true
      ∨ ¬Has (extend text imports before) (Block.core block)) :
    Block.contains (Text.unifyLineEnds (extend text imports (before ++ Block.core block :: after))) block
      = true := by
  refine Block.contains_unifyLineEnds ?_ plain
  have turn : extend text imports (before ++ Block.core block :: after)
      = after.foldl withTable (withTable (extend text imports before) (Block.core block)) := by
    rw [extend, List.foldl_append, List.foldl_cons, ← extend]
  rw [turn]
  refine contains_foldl ?_ after
  rcases expected with found | new
  · exact contains_withTable found _
  · exact contains_withTable_self visible new

end Scaffold.SchemaText
