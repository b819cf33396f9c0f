import Scaffold.Text.Pattern
import Mathlib.Tactic.Common

/-!
# Laws of patterns

What follows a match is what is left when the matched text is taken away, so a pattern that is put together
from others matches texts that are put together (`mem_next_iff`, `mem_all_cons_iff`).  A part of a text
starts at the start of a line if nothing or a line feed stands before it (`mem_lineStarts_iff`).
-/

namespace Scaffold.Text

namespace Pattern

variable {text rest word : List Char} {accept : Char → Bool} {first second pattern : Pattern}
  {patterns : List Pattern} {last : Char}

/-- A literal is taken away. -/
@[simp] theorem mem_literal_iff : rest ∈ literal word text ↔ text = word ++ rest := by
  rw [literal]
  constructor
  · intro member
    split at member
    · next starts =>
      obtain ⟨tail, rfl⟩ := List.isPrefixOf_iff_prefix.mp starts
      rw [List.mem_singleton.mp member, List.drop_left]
    · cases member
  · rintro rfl
    rw [if_pos (List.isPrefixOf_iff_prefix.mpr (List.prefix_append word rest)), List.drop_left]
    exact List.mem_singleton_self rest

/-- The characters of a string are taken away. -/
@[simp] theorem mem_word_iff {written : String} :
    rest ∈ Pattern.word written text ↔ text = written.toList ++ rest :=
  mem_literal_iff

/-- One character is taken away. -/
@[simp] theorem mem_one_iff : rest ∈ one accept text ↔ ∃ c, accept c = true ∧ text = c :: rest := by
  cases text with
  | nil => simp [one]
  | cons c text =>
      rw [one]
      split
      · next accepted =>
        rw [List.mem_singleton]
        exact ⟨fun same => ⟨c, accepted, by rw [same]⟩, fun ⟨_, _, same⟩ => (List.cons.inj same).2.symm⟩
      · next refused =>
        refine iff_of_false List.not_mem_nil ?_
        rintro ⟨d, accepted, same⟩
        exact refused ((List.cons.inj same).1 ▸ accepted)

/-- A run of characters is taken away. -/
@[simp] theorem mem_many_iff :
    rest ∈ many accept text ↔ ∃ run, (∀ c ∈ run, accept c = true) ∧ text = run ++ rest := by
  induction text with
  | nil =>
      rw [many, List.mem_singleton]
      constructor
      · rintro rfl
        exact ⟨[], by simp, rfl⟩
      · rintro ⟨run, _, same⟩
        exact (List.append_eq_nil_iff.mp same.symm).2
  | cons c text inductionHypothesis =>
      have start : c :: text = rest → ∃ run, (∀ c ∈ run, accept c = true) ∧ c :: text = run ++ rest :=
        fun same => ⟨[], by simp, same⟩
      rw [many]
      split
      · next accepted =>
        rw [List.mem_append, List.mem_singleton, inductionHypothesis]
        constructor
        · rintro (⟨run, all, rfl⟩ | same)
          · exact ⟨c :: run, List.forall_mem_cons.mpr ⟨accepted, all⟩, rfl⟩
          · exact start same.symm
        · rintro ⟨run, all, same⟩
          cases run with
          | nil => exact .inr same.symm
          | cons d run =>
              obtain ⟨rfl, tail⟩ := List.cons.inj same
              exact .inl ⟨run, fun e member => all e (List.mem_cons_of_mem _ member), tail⟩
      · next refused =>
        rw [List.mem_singleton]
        constructor
        · exact fun same => start same.symm
        · rintro ⟨run, all, same⟩
          cases run with
          | nil => exact same.symm
          | cons d run =>
              obtain ⟨rfl, _⟩ := List.cons.inj same
              exact absurd (all c List.mem_cons_self) refused

/-- A run that is not empty is taken away. -/
@[simp] theorem mem_some_iff : rest ∈ Pattern.some accept text
    ↔ ∃ run, run ≠ [] ∧ (∀ c ∈ run, accept c = true) ∧ text = run ++ rest := by
  simp only [Pattern.some, List.mem_flatMap, mem_one_iff, mem_many_iff]
  constructor
  · rintro ⟨_, ⟨c, accepted, rfl⟩, run, all, rfl⟩
    exact ⟨c :: run, List.cons_ne_nil _ _, List.forall_mem_cons.mpr ⟨accepted, all⟩, rfl⟩
  · rintro ⟨run, nonempty, all, rfl⟩
    obtain ⟨c, run, rfl⟩ := List.exists_cons_of_ne_nil nonempty
    obtain ⟨accepted, others⟩ := List.forall_mem_cons.mp all
    exact ⟨run ++ rest, ⟨c, accepted, rfl⟩, run, others, rfl⟩

/-- What one pattern leaves is what the next one starts with. -/
@[simp] theorem mem_next_iff : rest ∈ next first second text ↔ ∃ between ∈ first text, rest ∈ second between :=
  List.mem_flatMap

/-- No pattern takes nothing away. -/
@[simp] theorem mem_all_nil_iff : rest ∈ all [] text ↔ text = rest := by
  rw [eq_comm]
  exact List.mem_singleton

/-- Patterns in a row. -/
@[simp] theorem mem_all_cons_iff :
    rest ∈ all (pattern :: patterns) text ↔ ∃ between ∈ pattern text, rest ∈ all patterns between :=
  List.mem_flatMap

/-- One of two patterns. -/
@[simp] theorem mem_either_iff : rest ∈ either first second text ↔ rest ∈ first text ∨ rest ∈ second text :=
  List.mem_append

/-- A pattern or nothing. -/
@[simp] theorem mem_optional_iff : rest ∈ optional pattern text ↔ rest ∈ pattern text ∨ text = rest := by
  rw [optional, mem_either_iff, List.mem_singleton, eq_comm (a := rest)]

/-- The end of a word takes nothing away. -/
@[simp] theorem mem_wordEnd_iff : rest ∈ wordEnd last text
    ↔ isWord last ≠ (text.head?.map isWord).getD false ∧ text = rest := by
  rw [wordEnd]
  split
  · next ended => rw [List.mem_singleton, and_iff_right (bne_iff_ne.mp ended), eq_comm]
  · next goes => exact iff_of_false List.not_mem_nil fun ended => goes (bne_iff_ne.mpr ended.1)

/-- A pattern matches the start of a text if it leaves something. -/
theorem matchesStart_iff : pattern.matchesStart text = true ↔ ∃ rest, rest ∈ pattern text := by
  rw [matchesStart, Bool.not_eq_true', List.isEmpty_eq_false_iff_exists_mem]

/-- A pattern matches a whole text if it can leave nothing. -/
theorem matchesAll_iff : pattern.matchesAll text = true ↔ [] ∈ pattern text := by
  simp only [matchesAll, List.any_eq_true, List.isEmpty_iff]
  exact ⟨fun ⟨_, member, same⟩ => same ▸ member, fun member => ⟨[], member, rfl⟩⟩

/-! ## Marks -/

/-- A pattern stops before a mark: a text with the mark in it is matched for itself, whatever follows, and what is
left has the mark. -/
def StopsBefore (mark : Char) (pattern : Pattern) : Prop :=
  ∀ text, mark ∈ text → (∀ more, pattern (text ++ more) = (pattern text).map (· ++ more))
    ∧ ∀ rest ∈ pattern text, mark ∈ rest

variable {mark : Char}

/-- A word stops before what it lacks. -/
theorem stopsBefore_literal (absent : mark ∉ word) : StopsBefore mark (literal word) := by
  intro text member
  refine ⟨fun more => ?_, fun rest left => ?_⟩
  · by_cases starts : word <+: text
    · obtain ⟨tail, rfl⟩ := starts
      simp [literal]
    · have apart : ¬word <+: text ++ more := fun starts' => by
        rcases List.prefix_or_prefix_of_prefix starts' (List.prefix_append text more) with short | long
        · exact starts short
        · exact absent (long.subset member)
      simp [literal, starts, apart]
  · obtain rfl := mem_literal_iff.mp left
    exact (List.mem_append.mp member).resolve_left absent

/-- A run stops before what it refuses. -/
theorem stopsBefore_many (refused : accept mark = false) : StopsBefore mark (many accept) := by
  intro text member
  refine ⟨fun more => ?_, fun rest left => ?_⟩
  · induction text with
    | nil => cases member
    | cons c text inductionHypothesis =>
        rw [List.cons_append, many, many]
        by_cases accepted : accept c = true
        · have later : mark ∈ text := (List.mem_cons.mp member).resolve_left (by rintro rfl; simp [accepted] at refused)
          simp [accepted, inductionHypothesis later]
        · simp [accepted]
  · obtain ⟨run, all, rfl⟩ := mem_many_iff.mp left
    refine (List.mem_append.mp member).resolve_left fun inside => ?_
    rw [all mark inside] at refused
    cases refused

/-- One character stops before what it refuses. -/
theorem stopsBefore_one (refused : accept mark = false) : StopsBefore mark (one accept) := by
  intro text member
  obtain ⟨c, text, rfl⟩ := List.exists_cons_of_ne_nil (List.ne_nil_of_mem member)
  by_cases accepted : accept c = true
  · have later : mark ∈ text := (List.mem_cons.mp member).resolve_left (by rintro rfl; simp [accepted] at refused)
    simp [one, accepted, later]
  · simp [one, accepted]

/-- The end of a word stops before every mark. -/
theorem stopsBefore_wordEnd (last mark : Char) : StopsBefore mark (wordEnd last) := by
  intro text member
  obtain ⟨c, text, rfl⟩ := List.exists_cons_of_ne_nil (List.ne_nil_of_mem member)
  refine ⟨fun more => ?_, fun rest left => ?_⟩
  · rw [wordEnd, wordEnd, List.cons_append, List.head?_cons, List.head?_cons]
    cases (isWord last != ((Option.some c).map isWord).getD false) <;> rfl
  · rwa [← (mem_wordEnd_iff.mp left).2]

/-- Two patterns stop before a mark if each of them does. -/
theorem StopsBefore.next (early : StopsBefore mark first) (late : StopsBefore mark second) :
    StopsBefore mark (next first second) := by
  intro text member
  obtain ⟨same, left⟩ := early text member
  refine ⟨fun more => ?_, fun rest inside => ?_⟩
  · simp only [Pattern.next, same, List.flatMap_map, List.map_flatMap]
    exact congrArg List.flatten
      (List.map_congr_left fun between among => (late between (left between among)).1 more)
  · obtain ⟨between, among, inside⟩ := mem_next_iff.mp inside
    exact (late between (left between among)).2 rest inside

/-- A run that is not empty stops before what it refuses. -/
theorem stopsBefore_some (refused : accept mark = false) : StopsBefore mark (Pattern.some accept) :=
  (stopsBefore_one refused).next (stopsBefore_many refused)

/-- Patterns in a row stop before a mark if each of them does. -/
theorem stopsBefore_all (each : ∀ pattern ∈ patterns, StopsBefore mark pattern) :
    StopsBefore mark (all patterns) := by
  induction patterns with
  | nil => exact fun text member => ⟨fun more => rfl, by simpa [all] using member⟩
  | cons pattern patterns inductionHypothesis =>
      obtain ⟨early, late⟩ := List.forall_mem_cons.mp each
      exact early.next (inductionHypothesis late)

end Pattern

variable {text tail : List Char} {atStart : Bool}

/-- What starts at the start of a line has nothing or a line feed before it. -/
theorem mem_lineStarts_iff : tail ∈ lineStarts atStart text
    ↔ ∃ before, text = before ++ tail
      ∧ (before = [] ∧ atStart = true ∨ before.getLast? = some '\n') := by
  induction text generalizing atStart with
  | nil =>
      rw [lineStarts]
      cases atStart with
      | false =>
          refine iff_of_false List.not_mem_nil ?_
          rintro ⟨before, whole, ⟨_, impossible⟩ | last⟩
          · cases impossible
          · rw [(List.append_eq_nil_iff.mp whole.symm).1] at last
            cases last
      | true =>
          rw [if_pos rfl, List.mem_singleton]
          constructor
          · rintro rfl
            exact ⟨[], rfl, .inl ⟨rfl, rfl⟩⟩
          · rintro ⟨before, whole, _⟩
            exact (List.append_eq_nil_iff.mp whole.symm).2
  | cons c text inductionHypothesis =>
      rw [lineStarts, List.mem_append, inductionHypothesis]
      constructor
      · rintro (here | ⟨before, rfl, starts⟩)
        · split at here
          · next isStart => exact ⟨[], (List.mem_singleton.mp here).symm, .inl ⟨rfl, isStart⟩⟩
          · cases here
        · refine ⟨c :: before, rfl, .inr ?_⟩
          rcases starts with ⟨rfl, feed⟩ | last
          · rw [beq_iff_eq.mp feed]
            rfl
          · rw [List.getLast?_cons, last]
            rfl
      · rintro ⟨before, whole, starts⟩
        cases before with
        | nil =>
            obtain ⟨_, isStart⟩ := starts.resolve_right nofun
            rw [if_pos isStart]
            exact .inl (List.mem_singleton.mpr whole.symm)
        | cons d before =>
            obtain ⟨rfl, rfl⟩ := List.cons.inj whole
            refine .inr ⟨before, rfl, ?_⟩
            have last := starts.resolve_left fun impossible => List.cons_ne_nil _ _ impossible.1
            cases before with
            | nil => exact .inl ⟨rfl, beq_iff_eq.mpr (Option.some.inj last)⟩
            | cons => exact .inr last

/-- The parts of a text that start anywhere are its ends. -/
theorem mem_tails_iff : tail ∈ tails text ↔ tail <:+ text := by
  induction text with
  | nil => rw [tails, List.mem_singleton, List.suffix_nil]
  | cons c text inductionHypothesis =>
      rw [tails, List.mem_cons, inductionHypothesis, List.suffix_cons_iff]

end Scaffold.Text
