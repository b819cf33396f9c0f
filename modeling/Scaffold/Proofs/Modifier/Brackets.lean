import Scaffold.Proofs.Modifier.Wrapping
import Scaffold.Proofs.Text.Nesting

/-!
# Brackets of a wrapped export

Importing names leaves the brackets of a content as they are (`nested_added_iff`).  Wrapping puts parentheses around
the first line of an expression, so the brackets of the content stay nested exactly if those of this line that are
paired with others are parentheses (`run_nested_iff`).
-/

namespace Scaffold

open Text

/-! ## Brackets of texts -/

/-- No blank is a bracket. -/
theorem isBracket_of_isBlank {c : Char} (blank : isBlank c = true) : isBracket c = false := by
  by_contra bracket
  rw [Bool.not_eq_false, isBracket, Bool.or_eq_true] at bracket
  have shown : isBlank c = false := by
    rcases bracket with opener | closer
    · unfold closerOf? at opener
      split at opener
      · decide
      · decide
      · decide
      · cases opener
    · simp only [isCloser, Bool.or_eq_true, beq_iff_eq] at closer
      rcases closer with (rfl | rfl) | rfl <;> decide
  rw [blank] at shown
  cases shown

/-- What may stand behind an expression is no bracket. -/
theorem isBracket_of_isTrailing {c : Char} (trailing : ExportWrap.isTrailing c = true) : isBracket c = false := by
  simp only [ExportWrap.isTrailing, ExportWrap.isSpace, Bool.or_eq_true, beq_iff_eq] at trailing
  rcases trailing with (rfl | rfl) | rfl <;> rfl

namespace ImportAdd

open ImportStatement

variable {content : List Char} {statements wanted names : List (List Char)} {request : Request}

/-! ## Brackets of imports -/

/-- Names without brackets bring none into a list. -/
theorem NameList.brackets_extended (plain : ∀ name ∈ wanted, ∀ c ∈ name, isBracket c = false) (list : NameList) :
    (list.extended wanted).written.filter isBracket = list.written.filter isBracket := by
  have names : (list.extended wanted).names.filter isBracket = list.names.filter isBracket := by
    rw [NameList.filter_extended (fun _ => isBracket_of_isBlank) rfl, List.append_right_eq_self,
      List.flatMap_eq_nil_iff]
    exact fun name member => filter_of_silent (plain name (List.mem_filter.mp member).1)
  have lead : (list.extended wanted).lead = list.lead := rfl
  have tail : (list.extended wanted).tail = list.tail := rfl
  simp only [NameList.written, List.filter_append, List.filter_cons, names, lead, tail]

/-- Nested statements can be inserted. -/
theorem nested_insert_iff (nested : ∀ statement ∈ statements, Nested statement) (content : List Char) :
    Nested (ImportStatement.insert content statements) ↔ Nested content := by
  by_cases empty : statements = []
  · rw [empty, insert_nil]
  obtain ⟨index, gap, _, isGap, inserted⟩ := exists_insert content empty
  have completed : (EnvLines.completed ((linesWithEnds content).take index).flatten).filter isBracket
      = ((linesWithEnds content).take index).flatten.filter isBracket := by
    rw [EnvLines.completed]
    split
    · rfl
    · rw [List.filter_append, List.filter_cons_of_neg (by decide), List.filter_nil, List.append_nil]
  have block : Nested (block statements) := by
    clear inserted empty
    induction statements with
    | nil => exact .nil
    | cons statement rest inductionHypothesis =>
        obtain ⟨first, others⟩ := List.forall_mem_cons.mp nested
        exact (first.append (.other (by decide) .nil)).append (inductionHypothesis others)
  have blank : gap.filter isBracket = [] := by rcases isGap with rfl | rfl <;> rfl
  have same : (ImportStatement.insert content statements).filter isBracket
      = (((linesWithEnds content).take index).flatten
        ++ (ImportStatement.block statements ++ ((linesWithEnds content).drop index).flatten)).filter isBracket := by
    rw [inserted]
    simp only [List.filter_append, completed, blank, List.nil_append]
  rw [Nested.congr same, block.insert_iff, ← List.flatten_append, List.take_append_drop, flatten_linesWithEnds]

/-- The names of a request leave the brackets of a content if they have none. -/
theorem Request.nested_apply_iff (plain : ∀ name ∈ request.named, ∀ c ∈ name.toList, isBracket c = false)
    (content : List Char) : Nested (request.apply content).1 ↔ Nested content := by
  rcases request.apply_eq_or content with same | ⟨front, list, back, contentIs, changed⟩
  · rw [same]
  · rw [changed]
    conv_rhs => rw [contentIs]
    refine Nested.congr ?_
    simp only [List.filter_append, NameList.brackets_extended (List.forall_mem_map.mpr plain)]

end ImportAdd

namespace ExportWrap

open ImportAdd

variable {content output wrapper : String} {arguments : Entries}

/-! ## Brackets of a wrapped export -/

/-- Importing a wrapper leaves the brackets of a text if those of its source are nested. -/
theorem nested_added_iff {source : String} (plain : ∀ c ∈ wrapper.toList, isBracket c = false)
    (nested : Nested source.toList) (text : List Char) :
    Nested (added text [wrapperRequest source wrapper]) ↔ Nested text := by
  have statement : Nested (namedStatement [wrapper] source).toList := by
    have written : (namedStatement [wrapper] source).toList
        = "import ".toList ++ '\x7b' :: (spaced [wrapper.toList] ++ '\x7d' ::
          (" from '".toList ++ (source.toList ++ "';".toList))) :=
      (wrapperRequest source wrapper).written_list
    have names := filter_spaced (fun _ => isBracket_of_isBlank) rfl [wrapper.toList]
    rw [List.flatMap_singleton, filter_of_silent plain] at names
    refine (Nested.congr ?_).mpr (Nested.pair (c := '\x7b') rfl .nil nested)
    rw [written]
    have words : "import ".toList.filter isBracket = [] ∧ " from '".toList.filter isBracket = []
      ∧ "';".toList.filter isBracket = [] := ⟨rfl, rfl, rfl⟩
    simp only [List.filter_append, List.filter_cons, names, words, List.nil_append, List.append_nil]
  rw [added_wrapperRequest]
  refine (nested_insert_iff ?_ _).trans (Request.nested_apply_iff ?_ text)
  · rw [List.forall_mem_map, Request.listing]
    split
    · exact fun _ impossible => absurd impossible List.not_mem_nil
    · exact List.forall_mem_singleton.mpr statement
  · exact List.forall_mem_singleton.mpr plain

/-- Wrapping the first export of a content whose brackets are nested leaves them nested exactly if nothing is wrapped
or the brackets of its first line that are paired with others are parentheses. -/
theorem run_nested_iff (named : argument? arguments ["wrapper", "name"] = some (.text wrapper))
    (plain : ∀ c ∈ wrapper.toList, isBracket c = false) (bare : filled? arguments ["options"] = none)
    (source : ∀ text, filled? arguments ["import_from", "importFrom"] = some (.text text) → Nested text.toList)
    (nested : Nested content.toList) (done : run content arguments = .ok output) :
    ∃ found, find? [] content.toList = some found
      ∧ (Nested output.toList ↔ (wrapper ++ "(").toList <+: found.expression
        ∨ ∃ opening closing,
          Nested (List.replicate opening '(' ++ (found.expression ++ List.replicate closing ')'))) := by
  obtain ⟨other, found, text, named', _, read, wraps, imports⟩ := run_eq_ok_iff.mp done
  obtain rfl : wrapper = other := by simpa using named.symm.trans named'
  refine ⟨found, read, ?_⟩
  have sameBrackets : Nested output.toList ↔ Nested text := by
    cases given : filled? arguments ["import_from", "importFrom"] with
    | none =>
        rw [given] at imports
        rw [← Option.some.inj imports]
    | some value =>
        rw [given] at imports
        obtain ⟨name, rfl, added⟩ := exists_of_withImport? imports
        rw [← added]
        exact nested_added_iff plain (source name given) text
  obtain ⟨skipped, rest, whole, starts, _⟩ := exists_of_find? read
  obtain ⟨gap, apart, trailing, before, restIs, blank, behind⟩ := exists_of_readAt? starts
  rw [sameBrackets]
  rw [wrap, bare] at wraps
  split at wraps
  · next wrapped =>
    obtain rfl := Except.ok.inj wraps
    exact iff_of_true nested (.inl (List.isPrefixOf_iff_prefix.mp wrapped))
  · next unwrapped =>
    obtain ⟨call, called, rfl⟩ := exists_of_map_eq_ok wraps
    rw [or_iff_right fun wrapped => unwrapped (List.isPrefixOf_iff_prefix.mpr wrapped)]
    obtain rfl : (wrapper ++ "(").toList ++ found.expression ++ [')'] = call := Except.ok.inj called
    have front : content.toList = (skipped ++ ("export".toList ++ (gap ++ ("default".toList ++ apart))))
        ++ (found.expression ++ (trailing ++ found.after)) := by
      rw [whole, restIs]
      simp
    rw [front] at nested
    rw [← nested_argument_iff nested]
    refine Nested.congr ?_
    have noGap := filter_of_silent fun c member => isBracket_of_isBlank (blank c (List.mem_append_left _ member))
    have noApart := filter_of_silent fun c member =>
      isBracket_of_isBlank (blank c (List.mem_append_right _ member))
    have noTrailing := filter_of_silent fun c member => isBracket_of_isTrailing (behind c member)
    have words : "export".toList.filter isBracket = [] ∧ "default".toList.filter isBracket = []
      ∧ "export default ".toList.filter isBracket = [] := ⟨rfl, rfl, rfl⟩
    have parts : found.before ++ "export default ".toList ++ ((wrapper ++ "(").toList ++ found.expression ++ [')'])
        ++ [';'] ++ found.after
      = skipped ++ ("export default ".toList
        ++ (wrapper.toList ++ '(' :: (found.expression ++ ')' :: ([';'] ++ found.after)))) := by
      simp [before]
    rw [parts]
    simp only [List.filter_append, List.filter_cons, noGap, noApart, noTrailing, words, List.nil_append,
      List.append_assoc, filter_of_silent plain]
    rfl

/-- Arguments that name a wrapper and where it comes from. -/
def pageArguments : Entries := .ofPairs [(.text "wrapper", .text "withAuth"), (.text "import_from", .text "./auth")]

/-- An export that stands in one line is wrapped as a whole. -/
theorem run_nested_page :
    Nested "export default page(\x7b a: [1] \x7d);\n".toList
      ∧ run "export default page(\x7b a: [1] \x7d);\n" pageArguments
        = .ok "import \x7b withAuth \x7d from './auth';\n\nexport default withAuth(page(\x7b a: [1] \x7d));\n"
      ∧ Nested
        "import \x7b withAuth \x7d from './auth';\n\nexport default withAuth(page(\x7b a: [1] \x7d));\n".toList := by
  have nested : Nested "export default page(\x7b a: [1] \x7d);\n".toList := by decide
  have done : run "export default page(\x7b a: [1] \x7d);\n" pageArguments
      = .ok "import \x7b withAuth \x7d from './auth';\n\nexport default withAuth(page(\x7b a: [1] \x7d));\n" :=
    run_eq_ok_iff.mpr ⟨"withAuth", ⟨[], "page(\x7b a: [1] \x7d)".toList, ['\n']⟩,
      "export default withAuth(page(\x7b a: [1] \x7d));\n".toList, rfl, by decide, by decide +kernel, rfl,
      by decide +kernel⟩
  have source : ∀ text, filled? pageArguments ["import_from", "importFrom"] = some (.text text) →
      Nested text.toList := by
    rintro _ ⟨⟩
    decide
  have plain : ∀ c ∈ "withAuth".toList, isBracket c = false := by simp [isBracket, isCloser, closerOf?]
  obtain ⟨found, read, iff⟩ := run_nested_iff rfl plain rfl source nested done
  obtain rfl : (⟨[], "page(\x7b a: [1] \x7d)".toList, ['\n']⟩ : Export) = found :=
    Option.some.inj (.trans (by decide +kernel) read)
  exact ⟨nested, done, iff.mpr (.inr ⟨0, 0, by decide⟩)⟩

/-- Of an object that stands in several lines only the first line is wrapped. -/
theorem run_breaks_object :
    Nested "export default \x7b\n  a: 1,\n\x7d;\n".toList
      ∧ run "export default \x7b\n  a: 1,\n\x7d;\n" [(.text "wrapper", .text "withAuth")]
        = .ok "export default withAuth(\x7b);\n  a: 1,\n\x7d;\n"
      ∧ ¬Nested "export default withAuth(\x7b);\n  a: 1,\n\x7d;\n".toList := by
  refine ⟨by decide, run_eq_ok_iff.mpr ?_, by decide⟩
  exact ⟨"withAuth", ⟨[], ['\x7b'], "\n  a: 1,\n\x7d;\n".toList⟩,
    "export default withAuth(\x7b);\n  a: 1,\n\x7d;\n".toList,
    rfl, by decide, by decide +kernel, rfl, rfl⟩

end ExportWrap

end Scaffold
