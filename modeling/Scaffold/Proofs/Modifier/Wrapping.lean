import Scaffold.Modifier.ExportWrap
import Scaffold.Proofs.Modifier.Imports

/-!
# Laws of wrapping an export

A default export is read at the start of a line: its words, then the first line behind them that is not empty and
starts no declaration (`readAt?_eq`).  The search finds it in its content (`exists_of_find?`).  A run finds an
export, wraps it unless that is done, and imports the wrapper (`run_eq_ok_iff`).
-/

namespace Scaffold.ExportWrap

open Scaffold.Text

variable {before text rest line : List Char} {found : Export}

/-! ## Expressions -/

/-- The rest of the line that a text starts with. -/
def lineOf (text : List Char) : List Char := text.takeWhile (· != '\n')

/-- A line feed ends the line. -/
theorem notMem_lineOf (text : List Char) : '\n' ∉ lineOf text := fun member =>
  absurd (List.mem_takeWhile_imp member) (by decide)

/-- A text is its line and what stands behind it. -/
theorem lineOf_append_drop (text : List Char) : lineOf text ++ text.drop (lineOf text).length = text :=
  List.prefix_iff_eq_append.mp (List.takeWhile_prefix _)

/-- A character that may stand behind an expression in its line. -/
def isTrailing (c : Char) : Bool := isSpace c || c == ';'

/-- A line is its expression and spaces and a semicolon behind it. -/
theorem exists_eq_expressionOf_append (line : List Char) :
    ∃ trailing, line = expressionOf line ++ trailing ∧ ∀ c ∈ trailing, isTrailing c = true := by
  have space {text : List Char} (all : text.all isSpace = true) : ∀ c ∈ text, isTrailing c = true := by
    intro c member
    rw [isTrailing, List.all_eq_true.mp all c member]
    rfl
  obtain ⟨core, dropped, whole, trailing, expression⟩ : ∃ core dropped, line = core ++ dropped
      ∧ (∀ c ∈ dropped, isTrailing c = true) ∧ expressionOf line = line.take (max 1 core.length) := by
    obtain ⟨last, whole, blank⟩ := exists_eq_trimRightWhere_append isSpace line
    rw [expressionOf]
    split
    · next ended =>
      obtain ⟨front, closed⟩ := List.getLast?_eq_some_iff.mp (beq_iff_eq.mp ended)
      rw [closed, List.dropLast_concat]
      obtain ⟨between, split, blank'⟩ := exists_eq_trimRightWhere_append isSpace front
      refine ⟨_, between ++ ';' :: last, ?_, ?_, rfl⟩
      · rw [List.append_cons, ← List.append_assoc, ← List.append_assoc, ← split, ← closed]
        exact whole
      · exact List.forall_mem_append.mpr ⟨space blank', List.forall_mem_cons.mpr ⟨rfl, space blank⟩⟩
    · exact ⟨_, last, whole, space blank, rfl⟩
  refine ⟨line.drop (max 1 core.length), ?_, fun c member => ?_⟩
  · rw [expression, List.take_append_drop]
  · have behind : line.drop core.length = dropped := by rw [whole, List.drop_left]
    refine trailing c ?_
    rw [← behind]
    exact (List.drop_subset_drop_left line (le_max_right _ _)) member

/-- A text that ends visibly starts the expression of a line if it starts the line. -/
theorem prefix_expressionOf_iff {start : List Char} {c : Char} (last : isTrailing c = false) :
    start ++ [c] <+: expressionOf line ↔ start ++ [c] <+: line := by
  obtain ⟨trailing, whole, all⟩ := exists_eq_expressionOf_append line
  constructor
  · intro starts
    rw [whole]
    exact starts.trans (List.prefix_append _ _)
  · intro starts
    rw [whole] at starts
    obtain ⟨rest, same⟩ := starts
    rcases List.append_eq_append_iff.mp same with ⟨more, expression, _⟩ | ⟨more, startIs, trailingIs⟩
    · exact ⟨more, expression.symm⟩
    · -- The last character does not stand behind the expression.
      rcases List.eq_nil_or_concat more with rfl | ⟨front, d, rfl⟩
      · exact ⟨[], by simpa using startIs⟩
      · rw [List.concat_eq_append] at startIs trailingIs
        obtain ⟨_, same⟩ := List.append_inj' (startIs.trans (List.append_assoc _ _ _).symm) rfl
        obtain rfl := List.singleton_inj.mp same
        rw [all c (by simp [trailingIs])] at last
        cases last

/-! ## Reading an export -/

/-- What the words of a default export leave. -/
theorem mem_lead_iff : rest ∈ lead text ↔ ∃ gap apart, (gap ≠ [] ∧ apart ≠ [])
    ∧ (∀ c ∈ gap ++ apart, isBlank c = true)
    ∧ text = "export".toList ++ (gap ++ ("default".toList ++ (apart ++ rest))) := by
  simp only [lead, Pattern.mem_all_cons_iff, Pattern.mem_all_nil_iff, Pattern.mem_word_iff, Pattern.blanks,
    Pattern.mem_some_iff, List.forall_mem_append]
  constructor
  · rintro ⟨_, rfl, _, ⟨gap, apart, blank, rfl⟩, _, rfl, _, ⟨gap', apart', blank', rfl⟩, rfl⟩
    exact ⟨gap, gap', ⟨apart, apart'⟩, ⟨blank, blank'⟩, rfl⟩
  · rintro ⟨gap, gap', ⟨apart, apart'⟩, ⟨blank, blank'⟩, rfl⟩
    exact ⟨_, rfl, _, ⟨gap, apart, blank, rfl⟩, _, rfl, _, ⟨gap', apart', blank', rfl⟩, rfl⟩

/-- Whether an expression can start here: the line is not empty, and no declaration starts. -/
def startsExpression (rest : List Char) : Bool := !(lineOf rest).isEmpty && !startsDeclaration rest

/-- An export is read behind the first remainder of its words where an expression can start. -/
theorem readAt?_eq (before text : List Char) : readAt? before text
    = ((lead text).find? startsExpression).map fun rest =>
      ⟨before, expressionOf (lineOf rest), rest.drop (lineOf rest).length⟩ := by
  rw [readAt?]
  induction lead text with
  | nil => rfl
  | cons rest others inductionHypothesis =>
      have line : rest.takeWhile (· != '\n') = lineOf rest := rfl
      simp only [List.findSome?_cons, inductionHypothesis, List.find?_cons, line]
      cases empty : (lineOf rest).isEmpty <;> cases declares : startsDeclaration rest <;>
        simp [startsExpression, empty, declares]

/-- What is read as a default export: its words, the expression, what may stand behind it in its line, and the rest. -/
theorem exists_of_readAt? (read : readAt? before text = some found) : ∃ gap apart trailing, found.before = before
    ∧ text
      = "export".toList ++ (gap ++ ("default".toList ++ (apart ++ (found.expression ++ (trailing ++ found.after)))))
    ∧ (∀ c ∈ gap ++ apart, isBlank c = true) ∧ ∀ c ∈ trailing, isTrailing c = true := by
  rw [readAt?_eq, Option.map_eq_some_iff] at read
  obtain ⟨rest, first, rfl⟩ := read
  obtain ⟨gap, apart, _, blank, rfl⟩ := mem_lead_iff.mp (List.mem_of_find?_eq_some first)
  obtain ⟨trailing, line, all⟩ := exists_eq_expressionOf_append (lineOf rest)
  refine ⟨gap, apart, trailing, rfl, ?_, blank, all⟩
  rw [← List.append_assoc (expressionOf _), ← line, lineOf_append_drop]

/-! ## The search -/

/-- What follows the words of the export that starts a text. -/
def expressionAt? (text : List Char) : Option (List Char) := (lead text).find? startsExpression

/-- Whether a line starts behind a text; `atStart` says whether one starts before it. -/
def lineEnded (atStart : Bool) (text : List Char) : Bool := text.foldl (fun _ c => c == '\n') atStart

/-- The parts of a text that start at the start of a line and at one of its characters. -/
def startsIn (atStart : Bool) : List Char → List (List Char)
  | [] => []
  | c :: rest => (if atStart then [c :: rest] else []) ++ startsIn (c == '\n') rest

/-- The lines of two texts. -/
theorem startsIn_append (atStart : Bool) (text rest : List Char) : startsIn atStart (text ++ rest)
    = (startsIn atStart text).map (· ++ rest) ++ startsIn (lineEnded atStart text) rest := by
  induction text generalizing atStart with
  | nil => rfl
  | cons c text inductionHypothesis =>
      rw [List.cons_append, startsIn, startsIn, inductionHypothesis]
      cases atStart <;> simp [lineEnded]

/-- A line starts behind a text if its last character is a line feed. -/
theorem lineEnded_eq (atStart : Bool) (text : List Char) :
    lineEnded atStart text = (text.getLast?.map (· == '\n')).getD atStart := by
  rcases List.eq_nil_or_concat text with rfl | ⟨front, c, rfl⟩
  · rfl
  · rw [lineEnded, List.concat_eq_append, List.foldl_concat, List.getLast?_concat]
    rfl

/-- The parts of a text that start at the start of a line stand behind what ends one. -/
theorem exists_of_mem_startsIn {atStart : Bool} {part : List Char} (member : part ∈ startsIn atStart text) :
    part ≠ [] ∧ ∃ ahead, text = ahead ++ part ∧ lineEnded atStart ahead = true := by
  induction text generalizing atStart with
  | nil => cases member
  | cons c text inductionHypothesis =>
      rw [startsIn, List.mem_append] at member
      rcases member with here | later
      · split at here
        · next start =>
          rw [List.mem_singleton.mp here]
          exact ⟨List.cons_ne_nil _ _, [], rfl, start⟩
        · cases here
      · obtain ⟨nonempty, ahead, rfl, ended⟩ := inductionHypothesis later
        exact ⟨nonempty, c :: ahead, rfl, ended⟩

/-- The search finds the first export that starts at the start of a line. -/
theorem exists_of_find? (done : find? before text = some found) :
    ∃ skipped rest, text = skipped ++ rest ∧ readAt? (before.reverse ++ skipped) rest = some found
      ∧ lineEnded (before.head?.getD '\n' == '\n') skipped = true
      ∧ ∀ part ∈ startsIn (before.head?.getD '\n' == '\n') skipped, expressionAt? (part ++ rest) = none := by
  induction text generalizing before with
  | nil => cases done
  | cons c text inductionHypothesis =>
      rw [find?] at done
      split at done
      · next here =>
        split at here
        · next start => exact ⟨[], c :: text, rfl, by simpa [here] using done, start, by simp [startsIn]⟩
        · cases here
      · next unread =>
        obtain ⟨skipped, rest, rfl, read, ended, earlier⟩ := inductionHypothesis done
        refine ⟨c :: skipped, rest, rfl, by simpa using read, ended, fun part member => ?_⟩
        rw [startsIn, List.mem_append] at member
        rcases member with here | later
        · split at here
          · next start =>
            rw [List.mem_singleton.mp here]
            rw [if_pos start, readAt?_eq, Option.map_eq_none_iff] at unread
            exact unread
          · cases here
        · exact earlier part later

/-! ## Running -/

/-- The content with an export wrapped, unless it is. -/
def wrap (wrapper : String) (options : Option Value) (content : List Char) (found : Export) :
    Except ModifierFault (List Char) :=
  if (wrapper ++ "(").toList.isPrefixOf found.expression then .ok content
  else (call wrapper found.expression options).map fun call =>
    found.before ++ "export default ".toList ++ call ++ [';'] ++ found.after

/-- The request for a wrapper. -/
def wrapperRequest (source wrapper : String) : ImportAdd.Request := ⟨source, none, none, [wrapper]⟩

/-- A wrapper is added to a list of its source, or a statement imports it. -/
theorem added_wrapperRequest (source wrapper : String) (text : List Char) :
    ImportAdd.added text [wrapperRequest source wrapper]
      = ImportStatement.insert ((wrapperRequest source wrapper).apply text).1
        (((wrapperRequest source wrapper).listing text).map String.toList) := by
  have brought : ((wrapperRequest source wrapper).apply text).2 = (wrapperRequest source wrapper).listing text := by
    rw [ImportAdd.Request.apply_statements]
    rfl
  have new : ImportAdd.addNew [] ((wrapperRequest source wrapper).listing text)
      = (wrapperRequest source wrapper).listing text := by
    rw [ImportAdd.Request.listing]
    split <;> rfl
  rw [ImportAdd.added, List.foldl_cons, List.foldl_nil, ImportAdd.advance, brought, new]

/-- The text with the wrapper imported, if a source is given. -/
def withImport? (source : Option Value) (wrapper : String) (text : List Char) : Option (List Char) :=
  match source with
  | none => some text
  | some value =>
    (ImportAdd.textName? value).map fun name => ImportAdd.added text [wrapperRequest name wrapper]

variable {content output wrapper : String} {arguments : Entries} {source : Value}

/-- A source that can be imported from is a text. -/
theorem exists_of_withImport? {text imported : List Char}
    (done : withImport? (some source) wrapper text = some imported) :
    ∃ name, source = .text name ∧ ImportAdd.added text [wrapperRequest name wrapper] = imported := by
  rw [withImport?, Option.map_eq_some_iff] at done
  obtain ⟨name, isText, added⟩ := done
  refine ⟨name, ?_, added⟩
  cases source with
  | scalar scalar => cases scalar <;> simp_all [ImportAdd.textName?]
  | _ => cases isText

/-- What the request for a wrapper is read as. -/
theorem ofValue?_importRequest (filled : source.isFilled = true) :
    ImportAdd.Request.ofValue? (importRequest source wrapper)
      = (ImportAdd.textName? source).map fun name => wrapperRequest name wrapper := by
  cases source with
  | scalar scalar =>
      cases scalar with
      | text name =>
          have shown : name.isEmpty = false := by simpa [Value.isFilled] using filled
          have entries : importRequest (.text name) wrapper
              = .mapping [(.text "module", .text name), (.text "named", .texts [wrapper])] := rfl
          have module : argument? [(.text "module", .text name), (.text "named", .texts [wrapper])] ["module", "from"]
              = some (.text name) := rfl
          have read : ImportAdd.Request.ofEntries [] [(.text "module", .text name), (.text "named", .texts [wrapper])]
              = .ok (wrapperRequest name wrapper) := by
            simp only [ImportAdd.Request.ofEntries, module, shown]
            rfl
          change ImportAdd.Request.ofValue? (importRequest (.text name) wrapper) = _
          rw [entries, ImportAdd.Request.ofValue?, read]
          rfl
      | _ => rfl
  | _ => rfl

/-- The wrapper can be imported from a source that is a text. -/
theorem addAll_importRequest_eq_ok_iff {text : List Char} (filled : source.isFilled = true) :
    ImportAdd.addAll (String.ofList text) [importRequest source wrapper] = .ok output
      ↔ withImport? (some source) wrapper text = some output.toList := by
  have asked : ImportAdd.addAll (String.ofList text) [importRequest source wrapper]
      = ImportAdd.run (String.ofList text) [(.text "imports", .list [importRequest source wrapper])] := rfl
  have requests : ImportAdd.requests? [(.text "imports", .list [importRequest source wrapper])]
      = (ImportAdd.textName? source).map fun name => [wrapperRequest name wrapper] := by
    change [importRequest source wrapper].mapM ImportAdd.Request.ofValue? = _
    rw [List.mapM_cons, ofValue?_importRequest filled]
    cases ImportAdd.textName? source <;> rfl
  rw [asked, ImportAdd.run_eq_ok_iff, requests, withImport?, String.toList_ofList]
  cases ImportAdd.textName? source <;> simp

/-- A run wraps the first export unless that is done, and imports the wrapper if a source is given. -/
theorem run_eq_ok_iff : run content arguments = .ok output ↔ ∃ wrapper found text,
    argument? arguments ["wrapper", "name"] = some (.text wrapper) ∧ isAllBlank wrapper.toList = false
      ∧ find? [] content.toList = some found
      ∧ wrap wrapper (filled? arguments ["options"]) content.toList found = .ok text
      ∧ withImport? (filled? arguments ["import_from", "importFrom"]) wrapper text = some output.toList := by
  have imports (wrapper : String) (text : List Char) :
      (match filled? arguments ["import_from", "importFrom"] with
        | none => (.ok (String.ofList text) : Except ModifierFault String)
        | some source => ImportAdd.addAll (String.ofList text) [importRequest source wrapper]) = .ok output
      ↔ withImport? (filled? arguments ["import_from", "importFrom"]) wrapper text = some output.toList := by
    cases given : filled? arguments ["import_from", "importFrom"] with
    | none => simp [withImport?, String.ext_iff]
    | some source => exact addAll_importRequest_eq_ok_iff (Option.mem_filter_iff.mp given).2
  rw [run]
  cases named : argument? arguments ["wrapper", "name"] with
  | none => exact iff_of_false (by rintro ⟨⟩) (by rintro ⟨_, _, _, ⟨⟩, _⟩)
  | some value =>
      cases value with
      | scalar scalar =>
          cases scalar with
          | text wrapper =>
              simp only [Option.some.injEq, Value.scalar.injEq, Scalar.text.injEq, exists_and_left, exists_eq_left']
              cases blank : isAllBlank wrapper.toList with
              | true => exact iff_of_false (by rintro ⟨⟩) (by simp)
              | false =>
                  cases read : find? [] content.toList with
                  | none => exact iff_of_false (by simp) (by simp)
                  | some found =>
                      simp only [Option.some.injEq, exists_eq_left', wrap, true_and, Bool.false_eq_true, if_false]
                      by_cases wrapped : (wrapper ++ "(").toList.isPrefixOf found.expression = true
                      · simp only [wrapped, if_true, Except.ok.injEq, exists_eq_left']
                        have same := imports wrapper content.toList
                        rw [String.ofList_toList] at same
                        exact same
                      · simp only [wrapped]
                        cases call wrapper found.expression (filled? arguments ["options"]) with
                        | error fault => exact iff_of_false (by rintro ⟨⟩) (by rintro ⟨_, ⟨⟩, _⟩)
                        | ok call =>
                            refine (imports wrapper _).trans ?_
                            simp [Except.map]
          | _ => exact iff_of_false (by rintro ⟨⟩) (by rintro ⟨_, _, _, ⟨⟩, _⟩)
      | _ => exact iff_of_false (by rintro ⟨⟩) (by rintro ⟨_, _, _, ⟨⟩, _⟩)

end Scaffold.ExportWrap
