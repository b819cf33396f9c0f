import Scaffold.Proofs.Modifier.Wrapping
import Mathlib.Data.List.Find

/-!
# Wrapping an export again

A second run finds the export that the first one wrapped and leaves it, exactly if the wrapper is read as an expression
behind the words of an export (`run_again_unchanged_iff`).  It is the first export again because no words of an export
go on over a character that belongs to none of them (`expressionAt?_append`): what stood before the export is read
as before, and so is what an import is put into.
-/

namespace Scaffold.ExportWrap

open Scaffold.Text ImportStatement ImportAdd
open EnvLines (completed)

variable {start text rest more part front back : List Char} {atStart : Bool} {mark : Char}

/-! ## Marks -/

/-- A visible character that belongs to no word. -/
def IsMark (c : Char) : Prop := isWord c = false ∧ isBlank c = false

/-- A character that belongs to no word is in no word. -/
theorem notMem_of_isWord {word : List Char} (apart : isWord mark = false) (letters : word.all isWord = true) :
    mark ∉ word := fun member => by
  rw [List.all_eq_true.mp letters mark member] at apart
  cases apart

/-- The words of an export stop before a mark. -/
theorem stopsBefore_lead (isMark : IsMark mark) : Pattern.StopsBefore mark lead := by
  have words (text : String) (letters : text.toList.all isWord = true) : Pattern.StopsBefore mark (.word text) :=
    Pattern.stopsBefore_literal (notMem_of_isWord isMark.1 letters)
  have blanks : Pattern.StopsBefore mark .blanks := Pattern.stopsBefore_some isMark.2
  refine Pattern.stopsBefore_all ?_
  simp only [List.forall_mem_cons, List.not_mem_nil, false_implies, implies_true, and_true]
  exact ⟨words _ (by decide), blanks, words _ (by decide), blanks⟩

/-- What stands behind a mark does not make a declaration. -/
theorem startsDeclaration_append (apart : isWord mark = false) (member : mark ∈ text) (more : List Char) :
    startsDeclaration (text ++ more) = startsDeclaration text := by
  have stops (word : String) (letters : word.toList.all isWord = true) :
      (Pattern.all [.word word, .wordEnd 'n']).matchesStart (text ++ more)
        = (Pattern.all [.word word, .wordEnd 'n']).matchesStart text := by
    have stops : Pattern.StopsBefore mark (Pattern.all [.word word, .wordEnd 'n']) := by
      refine Pattern.stopsBefore_all ?_
      simp only [List.forall_mem_cons, List.not_mem_nil, false_implies, implies_true, and_true]
      exact ⟨Pattern.stopsBefore_literal (notMem_of_isWord apart letters), Pattern.stopsBefore_wordEnd _ _⟩
    rw [Pattern.matchesStart, Pattern.matchesStart, (stops text member).1 more, List.isEmpty_map]
  simp only [startsDeclaration, List.any_cons, List.any_nil]
  rw [stops _ (by decide), stops _ (by decide), stops _ (by decide)]

/-- The line of a text starts the line of a longer one. -/
theorem lineOf_prefix_append (text more : List Char) : lineOf text <+: lineOf (text ++ more) := by
  rw [lineOf, lineOf, List.takeWhile_append]
  split
  · exact (List.takeWhile_prefix _).trans (List.prefix_append _ _)
  · exact List.prefix_rfl

/-- A line that ends in a text ends there whatever follows. -/
theorem lineOf_append_of_mem (member : '\n' ∈ text) (more : List Char) : lineOf (text ++ more) = lineOf text := by
  rw [lineOf, lineOf, List.takeWhile_append]
  split
  · next all =>
    have whole : lineOf text = text := List.IsPrefix.eq_of_length (List.takeWhile_prefix _) all
    rw [← whole] at member
    exact absurd member (notMem_lineOf text)
  · rfl

/-- What stands behind a text decides about its line only if the text is empty. -/
theorem isEmpty_lineOf_append (nonempty : text ≠ []) (more : List Char) :
    (lineOf (text ++ more)).isEmpty = (lineOf text).isEmpty := by
  obtain ⟨c, text, rfl⟩ := List.exists_cons_of_ne_nil nonempty
  rw [List.cons_append, lineOf, lineOf, List.takeWhile_cons, List.takeWhile_cons]
  split <;> rfl

/-- What stands behind a mark does not decide whether an expression starts. -/
theorem startsExpression_append (apart : isWord mark = false) (member : mark ∈ text) (more : List Char) :
    startsExpression (text ++ more) = startsExpression text := by
  rw [startsExpression, startsExpression, isEmpty_lineOf_append (List.ne_nil_of_mem member),
    startsDeclaration_append apart member]

/-- What stands behind a mark does not decide where an expression starts. -/
theorem expressionAt?_append (isMark : IsMark mark) (member : mark ∈ text) (more : List Char) :
    expressionAt? (text ++ more) = (expressionAt? text).map (· ++ more) := by
  obtain ⟨same, left⟩ := stopsBefore_lead isMark text member
  rw [expressionAt?, expressionAt?, same, List.find?_map]
  refine congrArg (Option.map (· ++ more)) (List.find?_congr fun rest among => ?_)
  exact startsExpression_append isMark.1 (left rest among) more

/-! ## Opening an expression -/

/-- Whether the expression of the export that starts a text has a given start. -/
def opensAt? (start text : List Char) : Option Bool :=
  (expressionAt? text).map fun rest => start.isPrefixOf (lineOf rest)

/-- Whether the expression of the first export of a text has a given start. -/
def opens? (start : List Char) (atStart : Bool) (text : List Char) : Option Bool :=
  (startsIn atStart text).findSome? (opensAt? start)

/-- The export that starts a text has an expression that ends visibly at its start if the line does. -/
theorem map_readAt?_eq {c : Char} (last : isTrailing c = false) (before text : List Char) :
    (readAt? before text).map (fun found => (start ++ [c]).isPrefixOf found.expression)
      = opensAt? (start ++ [c]) text := by
  rw [readAt?_eq, Option.map_map, opensAt?, expressionAt?]
  refine Option.map_congr fun rest _ => ?_
  rw [Function.comp_apply, Bool.eq_iff_iff, List.isPrefixOf_iff_prefix, List.isPrefixOf_iff_prefix,
    prefix_expressionOf_iff last]

/-- The first export of a text has an expression with a given start. -/
theorem map_find?_eq {c : Char} (last : isTrailing c = false) (before text : List Char) :
    (find? before text).map (fun found => (start ++ [c]).isPrefixOf found.expression)
      = opens? (start ++ [c]) (before.head?.getD '\n' == '\n') text := by
  induction text generalizing before with
  | nil => rfl
  | cons c' text inductionHypothesis =>
      have here : _ = opensAt? (start ++ [c]) (c' :: text) := map_readAt?_eq last before.reverse (c' :: text)
      have later : _ = opens? (start ++ [c]) (c' == '\n') text := inductionHypothesis (c' :: before)
      rw [find?, opens?, startsIn, List.findSome?_append, ← opens?, ← later]
      cases before.head?.getD '\n' == '\n' with
      | true =>
          rw [if_pos rfl, if_pos rfl, List.findSome?_singleton, ← here]
          cases readAt? before.reverse (c' :: text) <;> rfl
      | false => rfl

/-- The first export of a text that is put together. -/
theorem opens?_append (start : List Char) (atStart : Bool) (text rest : List Char) : opens? start atStart (text ++ rest)
    = ((startsIn atStart text).findSome? fun part => opensAt? start (part ++ rest)).or
      (opens? start (lineEnded atStart text) rest) := by
  rw [opens?, startsIn_append, List.findSome?_append, List.findSome?_map]
  rfl

/-- What opens has the start in it. -/
theorem mem_of_opensAt? (opens : opensAt? start text = some true) : ∀ c ∈ start, c ∈ text := by
  obtain ⟨rest, found, starts⟩ := Option.map_eq_some_iff.mp opens
  obtain ⟨gap, apart, _, _, rfl⟩ := mem_lead_iff.mp (List.mem_of_find?_eq_some found)
  have inLine := ((List.isPrefixOf_iff_prefix.mp starts).trans (List.takeWhile_prefix _)).subset
  exact fun c member => by simp [inLine member]

/-- An export at the start of a text is its first. -/
theorem opens?_of_opensAt? (opens : opensAt? start text = some true) : opens? start true text = some true := by
  cases text with
  | nil => cases opens
  | cons c text =>
      rw [opens?, startsIn, if_pos rfl, List.singleton_append, List.findSome?_cons, opens]

/-- What opens somewhere has the start in it. -/
theorem mem_of_opens? (opens : opens? start atStart text = some true) : ∀ c ∈ start, c ∈ text := by
  obtain ⟨part, among, here⟩ := List.exists_of_findSome?_eq_some opens
  obtain ⟨_, ahead, rfl, _⟩ := exists_of_mem_startsIn among
  exact fun c member => List.mem_append_right _ (mem_of_opensAt? here c member)

/-- An expression that opens opens whatever follows. -/
theorem opensAt?_append (isMark : IsMark mark) (among : mark ∈ start) (opens : opensAt? start text = some true)
    (more : List Char) : opensAt? start (text ++ more) = some true := by
  have member := mem_of_opensAt? opens mark among
  obtain ⟨rest, found, starts⟩ := Option.map_eq_some_iff.mp opens
  rw [opensAt?, expressionAt?_append isMark member, found]
  exact congrArg some (List.isPrefixOf_iff_prefix.mpr
    ((List.isPrefixOf_iff_prefix.mp starts).trans (lineOf_prefix_append rest more)))

/-- The first export opens whatever follows. -/
theorem opens?_append_right (isMark : IsMark mark) (among : mark ∈ start)
    (opens : opens? start atStart text = some true) (more : List Char) :
    opens? start atStart (text ++ more) = some true := by
  induction text generalizing atStart with
  | nil => cases opens
  | cons c text inductionHypothesis =>
      rw [opens?, startsIn, List.findSome?_append, ← opens?] at opens
      rw [List.cons_append, opens?, startsIn, List.findSome?_append, ← opens?]
      rcases Option.or_eq_some_iff.mp opens with here | ⟨unread, later⟩
      · cases atStart with
        | true =>
            rw [if_pos rfl, List.findSome?_singleton] at here ⊢
            rw [← List.cons_append, opensAt?_append isMark among here, Option.some_or]
        | false => cases here
      · rw [inductionHypothesis later]
        -- The text has the mark, so nothing opens before it either.
        have member : mark ∈ c :: text := .tail _ (mem_of_opens? later mark among)
        cases atStart with
        | true =>
            rw [if_pos rfl, List.findSome?_singleton, opensAt?, Option.map_eq_none_iff] at unread
            rw [if_pos rfl, List.findSome?_singleton, opensAt?, ← List.cons_append,
              expressionAt?_append isMark member, unread]
            rfl
        | false => rfl

/-! ## Wrappers that are read -/

/-- The start of a call of a wrapper. -/
def callStart (wrapper : String) : List Char := wrapper.toList ++ ['(']

/-- The first export of a content is a call of a wrapper. -/
theorem map_find?_callStart (wrapper : String) (content : List Char) :
    (find? [] content).map (fun found => (callStart wrapper).isPrefixOf found.expression)
      = opens? (callStart wrapper) true content :=
  map_find?_eq rfl [] content

/-- A wrapper whose calls are read as such behind the words of an export: it has no line feed, and of what dropping
blanks leaves of a call, the call itself is the first that can start an expression. -/
def IsRereadable (wrapper : String) : Prop :=
  (Pattern.many isBlank (callStart wrapper)).find? startsExpression = some (callStart wrapper)
    ∧ '\n' ∉ wrapper.toList

instance (wrapper : String) : Decidable (IsRereadable wrapper) :=
  inferInstanceAs (Decidable (_ ∧ _))

/-- The parenthesis of a call is a mark. -/
theorem isMark_parenthesis : IsMark '(' := ⟨by decide, by decide⟩

/-- A call has its parenthesis. -/
theorem mem_callStart (wrapper : String) : '(' ∈ callStart wrapper := by simp [callStart]

/-- A run may match nothing, which is what it tries last. -/
theorem many_append {accept : Char → Bool} {run : List Char} (all : ∀ c ∈ run, accept c = true) (text : List Char) :
    ∃ others, Pattern.many accept (run ++ text) = Pattern.many accept text ++ others := by
  induction run with
  | nil => exact ⟨[], (List.append_nil _).symm⟩
  | cons c run inductionHypothesis =>
      obtain ⟨first, rest⟩ := List.forall_mem_cons.mp all
      obtain ⟨others, tried⟩ := inductionHypothesis rest
      refine ⟨others ++ [c :: (run ++ text)], ?_⟩
      rw [List.cons_append, Pattern.many, if_pos first, tried, List.append_assoc]

/-- A run matches nothing. -/
theorem self_mem_many (accept : Char → Bool) (text : List Char) : text ∈ Pattern.many accept text :=
  Pattern.mem_many_iff.mpr ⟨[], by simp, rfl⟩

/-- Blanks, at least one. -/
theorem blanks_append {gap : List Char} (apart : gap ≠ []) (blank : ∀ c ∈ gap, isBlank c = true) (text : List Char) :
    ∃ others, Pattern.blanks (gap ++ text) = Pattern.many isBlank text ++ others := by
  obtain ⟨c, gap, rfl⟩ := List.exists_cons_of_ne_nil apart
  obtain ⟨first, rest⟩ := List.forall_mem_cons.mp blank
  obtain ⟨others, tried⟩ := many_append rest text
  refine ⟨others, ?_⟩
  rw [Pattern.blanks, Pattern.some, List.cons_append, Pattern.one, if_pos first, List.flatMap_singleton, tried]

/-- The words of an export try first to drop all blanks behind them. -/
theorem lead_append {gap apart : List Char} (nonempty : gap ≠ [] ∧ apart ≠ [])
    (blank : ∀ c ∈ gap ++ apart, isBlank c = true) (rest : List Char) :
    ∃ others, lead ("export".toList ++ (gap ++ ("default".toList ++ (apart ++ rest))))
      = Pattern.many isBlank rest ++ others := by
  obtain ⟨gapBlank, apartBlank⟩ := List.forall_mem_append.mp blank
  obtain ⟨others, first⟩ := blanks_append nonempty.1 gapBlank ("default".toList ++ (apart ++ rest))
  obtain ⟨others', second⟩ := blanks_append nonempty.2 apartBlank rest
  have word (text : String) (rest : List Char) : Pattern.word text (text.toList ++ rest) = [rest] := by
    simp [Pattern.word, Pattern.literal]
  have visible : Pattern.many isBlank ("default".toList ++ (apart ++ rest)) = ["default".toList ++ (apart ++ rest)] :=
    if_neg (by decide)
  refine ⟨others' ++ others.flatMap (Pattern.all [.word "default", .blanks]), ?_⟩
  have unfolded (text : List Char) : lead text
      = (Pattern.word "export" text).flatMap fun rest => (Pattern.blanks rest).flatMap
        (Pattern.all [.word "default", .blanks]) := rfl
  have behind (text : List Char) : Pattern.all [.word "default", .blanks] text
      = (Pattern.word "default" text).flatMap fun rest => (Pattern.blanks rest).flatMap fun rest => [rest] := rfl
  rw [unfolded, word, List.flatMap_singleton, first, visible, List.flatMap_append, List.flatMap_singleton, behind, word,
    List.flatMap_singleton, second, List.flatMap_singleton', List.append_assoc]

/-- What stands behind a call does not decide how it is read. -/
theorem find?_callStart_append (wrapper : String) (more : List Char) :
    (Pattern.many isBlank (callStart wrapper ++ more)).find? startsExpression
      = ((Pattern.many isBlank (callStart wrapper)).find? startsExpression).map (· ++ more) := by
  obtain ⟨same, left⟩ := Pattern.stopsBefore_many isMark_parenthesis.2 (callStart wrapper) (mem_callStart wrapper)
  rw [same, List.find?_map]
  refine congrArg (Option.map (· ++ more)) (List.find?_congr fun rest among => ?_)
  exact startsExpression_append isMark_parenthesis.1 (left rest among) more

/-- An export that opens with a call shows that the wrapper is read. -/
theorem isRereadable_of_opensAt? {wrapper : String} (opens : opensAt? (callStart wrapper) text = some true) :
    IsRereadable wrapper := by
  obtain ⟨rest, found, starts⟩ := Option.map_eq_some_iff.mp opens
  obtain ⟨gap, apart, nonempty, blank, rfl⟩ := mem_lead_iff.mp (List.mem_of_find?_eq_some found)
  obtain ⟨others, tried⟩ := lead_append nonempty blank rest
  rw [List.isPrefixOf_iff_prefix] at starts
  have inLine : '\n' ∉ callStart wrapper := fun member => notMem_lineOf rest (starts.subset member)
  rw [expressionAt?, tried, List.find?_append] at found
  -- The expression itself is among what is tried first.
  have first : (Pattern.many isBlank rest).find? startsExpression = some rest := by
    rcases Option.or_eq_some_iff.mp found with here | ⟨refused, later⟩
    · exact here
    · exact absurd (List.find?_some later) (List.find?_eq_none.mp refused rest (self_mem_many _ _))
  obtain ⟨more, rfl⟩ := starts.trans (List.takeWhile_prefix _)
  rw [find?_callStart_append, Option.map_eq_some_iff] at first
  obtain ⟨call, read, same⟩ := first
  obtain rfl := List.append_cancel_right same
  exact ⟨read, fun member => inLine (List.mem_append_left _ member)⟩

/-- A wrapper that is read opens the export that it was written into. -/
theorem opensAt?_of_isRereadable {wrapper : String} (rereadable : IsRereadable wrapper) (more : List Char) :
    opensAt? (callStart wrapper) ("export default ".toList ++ (callStart wrapper ++ more)) = some true := by
  obtain ⟨read, single⟩ := rereadable
  obtain ⟨others, tried⟩ := lead_append (show [' '] ≠ [] ∧ [' '] ≠ [] by simp)
    (List.all_eq_true.mp rfl) (callStart wrapper ++ more)
  have whole : "export default ".toList ++ (callStart wrapper ++ more)
      = "export".toList ++ ([' '] ++ ("default".toList ++ ([' '] ++ (callStart wrapper ++ more)))) := rfl
  have inLine : ∀ c ∈ callStart wrapper, (c != '\n') = true := by
    refine List.forall_mem_append.mpr ⟨fun c member => ?_, List.forall_mem_singleton.mpr rfl⟩
    rw [bne_iff_ne]
    rintro rfl
    exact single member
  rw [opensAt?, expressionAt?, whole, tried, List.find?_append, find?_callStart_append, read, Option.map_some,
    Option.some_or, Option.map_some, lineOf, List.takeWhile_append_of_pos inLine]
  exact congrArg some (List.isPrefixOf_iff_prefix.mpr (List.prefix_append _ _))

/-! ## What stands before an export -/

/-- A line end behind a word stands behind all of it. -/
theorem exists_of_word_append {word behind : List Char} (single : '\n' ∉ word) (ended : part.getLast? = some '\n')
    (whole : part ++ behind = word ++ rest) :
    ∃ between, part = word ++ between ∧ rest = between ++ behind ∧ between.getLast? = some '\n' := by
  rcases List.append_eq_append_iff.mp whole with ⟨between, wordIs, _⟩ | ⟨between, partIs, restIs⟩
  · exact absurd (by rw [wordIs]; exact List.mem_append_left _ (List.mem_of_getLast? ended)) single
  · refine ⟨between, partIs, restIs, ?_⟩
    rw [partIs] at ended
    by_cases empty : between = []
    · rw [empty, List.append_nil] at ended
      exact absurd (List.mem_of_getLast? ended) single
    · rwa [List.getLast?_append_of_ne_nil word empty] at ended

/-- Blanks in front of a text do not reach into a visible one. -/
theorem exists_of_blank_append {gap behind : List Char} {c : Char} (blank : ∀ c ∈ gap, isBlank c = true)
    (shown : isBlank c = false) (whole : part ++ c :: behind = gap ++ rest) :
    ∃ between, part = gap ++ between ∧ rest = between ++ c :: behind := by
  rcases List.append_eq_append_iff.mp whole with ⟨between, gapIs, behindIs⟩ | ⟨between, partIs, restIs⟩
  · cases between with
    | nil => exact ⟨[], by simpa using gapIs.symm, by simpa using behindIs.symm⟩
    | cons d between =>
        obtain ⟨rfl, _⟩ := List.cons.inj behindIs
        rw [blank c (by rw [gapIs]; simp)] at shown
        cases shown
  · exact ⟨between, partIs, restIs⟩

/-- Words of an export that start before the start of another line end before the word that starts one there. -/
theorem split_at_export {gap apart more : List Char} (blank : ∀ c ∈ gap ++ apart, isBlank c = true)
    (ended : part.getLast? = some '\n')
    (whole : part ++ ("export".toList ++ more) = "export".toList ++ (gap ++ ("default".toList ++ (apart ++ rest)))) :
    ∃ between, part = "export".toList ++ (gap ++ ("default".toList ++ (apart ++ between)))
      ∧ rest = between ++ ("export".toList ++ more) := by
  obtain ⟨gapBlank, apartBlank⟩ := List.forall_mem_append.mp blank
  have visible : isBlank 'e' = false := by decide
  have head : "export".toList ++ more = 'e' :: ("xport".toList ++ more) := rfl
  obtain ⟨first, rfl, onward, ended⟩ := exists_of_word_append (by decide) ended whole
  rw [head] at onward ⊢
  obtain ⟨second, rfl, behind⟩ := exists_of_blank_append gapBlank visible onward.symm
  have nonempty : second ≠ [] := by
    rintro rfl
    exact absurd (List.cons.inj behind).1 (by decide)
  rw [List.getLast?_append_of_ne_nil gap nonempty] at ended
  obtain ⟨third, rfl, tail, _⟩ := exists_of_word_append (by decide) ended behind.symm
  obtain ⟨between, rfl, last⟩ := exists_of_blank_append apartBlank visible tail.symm
  exact ⟨between, rfl, last⟩

/-- An expression starts where an export does. -/
theorem startsExpression_export (more : List Char) : startsExpression ("export".toList ++ more) = true := rfl

/-- What is no export before one is none before another. -/
theorem expressionAt?_before_export (ended : part.getLast? = some '\n') {more : List Char}
    (unread : expressionAt? (part ++ ("export".toList ++ more)) = none) (other : List Char) :
    expressionAt? (part ++ ("export".toList ++ other)) = none := by
  rw [expressionAt?, List.find?_eq_none] at unread ⊢
  intro rest among starts
  obtain ⟨gap, apart, nonempty, blank, whole⟩ := mem_lead_iff.mp among
  obtain ⟨between, rfl, rfl⟩ := split_at_export blank ended whole
  refine unread (between ++ ("export".toList ++ more)) (mem_lead_iff.mpr ⟨gap, apart, nonempty, blank, by simp⟩) ?_
  by_cases empty : between = []
  · rw [empty]
    exact startsExpression_export more
  · have member : '\n' ∈ between := by
      have last := ended
      simp only [← List.append_assoc] at last
      rw [List.getLast?_append_of_ne_nil _ empty] at last
      exact List.mem_of_getLast? last
    have apart : isWord '\n' = false := by decide
    rw [startsExpression_append apart member] at starts ⊢
    exact starts

/-- The parts of a text that ends a line end it. -/
theorem getLast?_of_mem_startsIn (member : part ∈ startsIn atStart text) (ended : lineEnded atStart text = true) :
    part.getLast? = some '\n' := by
  obtain ⟨nonempty, ahead, rfl, _⟩ := exists_of_mem_startsIn member
  obtain ⟨front, c, rfl⟩ := (List.eq_nil_or_concat part).resolve_left nonempty
  rw [lineEnded_eq, List.concat_eq_append, ← List.append_assoc, List.getLast?_concat] at ended
  rw [List.concat_eq_append, List.getLast?_concat, beq_iff_eq.mp ended]

/-- A call is its start, the expression and more. -/
theorem exists_of_call {wrapper : String} {expression written : List Char} {options : Option Value}
    (called : call wrapper expression options = .ok written) :
    ∃ more, written = callStart wrapper ++ (expression ++ more) := by
  have whole (second : String) : (wrapper ++ "(").toList ++ expression ++ (second ++ ")").toList
      = callStart wrapper ++ (expression ++ (second ++ ")").toList) := by simp [callStart]
  cases options with
  | none => exact ⟨_, (Except.ok.inj called).symm.trans (whole "")⟩
  | some value =>
      have parts : (((Json.writeStrict .spaced value).map (", " ++ ·)).mapError ModifierFault.unwritable) >>=
          (fun second => .ok ((wrapper ++ "(").toList ++ expression ++ (second ++ ")").toList)) = .ok written := called
      obtain ⟨second, _, same⟩ := exists_of_bind_eq_ok parts
      exact ⟨_, (Except.ok.inj same).symm.trans (whole second)⟩

/-- A wrapped export opens with the call. -/
theorem opens?_wrap {wrapper : String} {content : List Char} {found : Export} {options : Option Value}
    (read : find? [] content = some found) (rereadable : IsRereadable wrapper)
    (wraps : wrap wrapper options content found = .ok text) : opens? (callStart wrapper) true text = some true := by
  have start : (wrapper ++ "(").toList = callStart wrapper := String.toList_append
  rw [wrap, start] at wraps
  split at wraps
  · next wrapped =>
    rw [← Except.ok.inj wraps, callStart]
    have opens := map_find?_callStart wrapper content
    rw [read, Option.map_some, wrapped] at opens
    exact opens.symm
  · obtain ⟨written, called, rfl⟩ := exists_of_map_eq_ok wraps
    obtain ⟨more, rfl⟩ := exists_of_call called
    obtain ⟨skipped, rest, rfl, starts, ended, earlier⟩ := exists_of_find? read
    obtain ⟨gap, apart, trailing, before, rfl, _⟩ := exists_of_readAt? starts
    have grouped : found.before ++ "export default ".toList ++ (callStart wrapper ++ (found.expression ++ more))
        ++ [';'] ++ found.after
        = skipped ++ ("export".toList ++ (" default ".toList ++
          (callStart wrapper ++ (found.expression ++ (more ++ (';' :: found.after)))))) := by
      simp [before]
    have opens := opensAt?_of_isRereadable rereadable (found.expression ++ (more ++ (';' :: found.after)))
    have quiet : ((startsIn true skipped).findSome? fun part => opensAt? (callStart wrapper)
        (part ++ ("export".toList ++ (" default ".toList ++
          (callStart wrapper ++ (found.expression ++ (more ++ (';' :: found.after)))))))) = none := by
      rw [List.findSome?_eq_none_iff]
      intro part member
      rw [opensAt?, expressionAt?_before_export (getLast?_of_mem_startsIn member ended) (earlier part member)]
      rfl
    have ended : lineEnded true skipped = true := ended
    rw [grouped, opens?_append, quiet, Option.none_or, ended]
    exact opens?_of_opensAt? opens

/-! ## What an import changes -/

/-- What is found depends only on the items. -/
theorem findSome?_congr {Item Found : Type} {find other : Item → Option Found} {items : List Item}
    (same : ∀ item ∈ items, find item = other item) : items.findSome? find = items.findSome? other := by
  induction items with
  | nil => rfl
  | cons item items inductionHypothesis =>
      obtain ⟨first, others⟩ := List.forall_mem_cons.mp same
      rw [List.findSome?_cons, List.findSome?_cons, first, inductionHypothesis others]

/-- What follows a part with a mark does not decide how it opens, unless it decides about the line. -/
theorem opensAt?_append_congr {other : List Char} (isMark : IsMark mark) (member : mark ∈ part)
    (lines : ∀ rest, mark ∈ rest → rest <:+ part →
      start.isPrefixOf (lineOf (rest ++ more)) = start.isPrefixOf (lineOf (rest ++ other))) :
    opensAt? start (part ++ more) = opensAt? start (part ++ other) := by
  rw [opensAt?, opensAt?, expressionAt?_append isMark member, expressionAt?_append isMark member]
  cases found : expressionAt? part with
  | none => rfl
  | some rest =>
      have among := List.mem_of_find?_eq_some found
      obtain ⟨gap, apart, _, _, partIs⟩ := mem_lead_iff.mp among
      have suffix : rest <:+ part := ⟨"export".toList ++ (gap ++ ("default".toList ++ apart)), by rw [partIs]; simp⟩
      exact congrArg some (lines rest ((stopsBefore_lead isMark part member).2 rest among) suffix)

/-- What closes a statement is a mark. -/
theorem isMark_of_isClosing {c : Char} (closing : isClosing c = true) : IsMark c := by
  refine ⟨?_, isBlank_of_isClosing closing⟩
  simp only [isClosing, isQuote, Bool.or_eq_true, beq_iff_eq] at closing
  rcases closing with (rfl | rfl) | rfl <;> decide

/-- Every part of a text that closes a statement closes it, if it starts at the start of a line. -/
theorem mem_of_mem_startsIn {before gap : List Char} {c : Char} (closing : isClosing c = true)
    (single : '\n' ∉ gap) (member : part ∈ startsIn true (before ++ c :: (gap ++ ['\n']))) : c ∈ part := by
  obtain ⟨nonempty, ahead, whole, ended⟩ := exists_of_mem_startsIn member
  rcases List.append_eq_append_iff.mp whole with ⟨between, aheadIs, rest⟩ | ⟨between, _, partIs⟩
  · cases between with
    | nil => rw [← show c :: (gap ++ ['\n']) = part from rest]; exact List.mem_cons_self
    | cons d between =>
        -- What stands before the part would end in the middle of the line.
        obtain ⟨rfl, onward⟩ := List.cons.inj rest
        obtain ⟨front, last, rfl⟩ := (List.eq_nil_or_concat part).resolve_left nonempty
        have grouped : gap ++ ['\n'] = (between ++ front) ++ [last] := onward.trans (by simp)
        have gapIs := (List.append_inj' grouped rfl).1
        obtain ⟨first, e, same⟩ : ∃ first e, c :: between = first ++ [e] := by
          obtain ⟨first, e, same⟩ := (List.eq_nil_or_concat (c :: between)).resolve_left (List.cons_ne_nil _ _)
          exact ⟨first, e, same.trans List.concat_eq_append⟩
        rw [lineEnded_eq, aheadIs, same, ← List.append_assoc, List.getLast?_concat] at ended
        obtain rfl : e = '\n' := beq_iff_eq.mp ended
        have inside : '\n' ∈ c :: between := by rw [same]; simp
        rcases List.mem_cons.mp inside with rfl | inside
        · exact absurd closing (by decide)
        · exact absurd (by rw [gapIs]; exact List.mem_append_left _ inside) single
  · rw [partIs]
    simp

/-- The first export opens as before when lines are put behind a part of the text that is empty, that is all of it,
or that closes a statement. -/
theorem opens?_insert {lines : List Char} (isMark : IsMark mark) (among : mark ∈ start)
    (place : front = [] ∨ back = [] ∨ Closes front) (quiet : opens? start true (lines ++ back) = opens? start true back)
    (opens : opens? start true (front ++ back) = some true) :
    opens? start true (completed front ++ (lines ++ back)) = some true := by
  rcases place with rfl | rfl | closes
  · exact quiet.trans opens
  · rw [List.append_nil] at opens
    obtain ⟨more, complete⟩ := EnvLines.prefix_completed front
    rw [← complete, List.append_assoc]
    exact opens?_append_right isMark among opens _
  · obtain ⟨before, c, gap, rfl, closing, blank⟩ := closes
    have last : (before ++ c :: (gap ++ ['\n'])).getLast? = some '\n' := by
      rw [← List.cons_append, ← List.append_assoc, List.getLast?_concat]
    have ended : lineEnded true (before ++ c :: (gap ++ ['\n'])) = true := by rw [lineEnded_eq, last]; rfl
    rw [EnvLines.completed_of_getLast? last]
    rw [opens?_append, ended] at opens ⊢
    rw [quiet, ← opens]
    refine congrArg (Option.or · _) (findSome?_congr fun part member => ?_)
    have inside := mem_of_mem_startsIn closing (fun feed => (blank _ feed).2 rfl) member
    refine opensAt?_append_congr (isMark_of_isClosing closing) inside fun rest among suffix => ?_
    -- Every line that starts in the part ends in it.
    have feed : '\n' ∈ rest := by
      obtain ⟨skipped, whole⟩ := suffix
      have closes := getLast?_of_mem_startsIn member ended
      rw [← whole, List.getLast?_append_of_ne_nil skipped (List.ne_nil_of_mem among)] at closes
      exact List.mem_of_getLast? closes
    rw [lineOf_append_of_mem feed, lineOf_append_of_mem feed]

/-- No line starts in a text without line feeds. -/
theorem startsIn_of_notMem (single : '\n' ∉ text) : startsIn false text = [] := by
  induction text with
  | nil => rfl
  | cons c text inductionHypothesis =>
      rw [List.mem_cons, not_or] at single
      rw [startsIn, beq_eq_false_iff_ne.mpr (Ne.symm single.1), inductionHypothesis single.2]
      rfl

/-- What follows a text without line feeds is searched as it is. -/
theorem opens?_line_append (single : '\n' ∉ text) (c : Char) (rest : List Char) :
    opens? start false (text ++ c :: rest) = opens? start (c == '\n') rest := by
  have inside : lineEnded false text = false := by
    rw [lineEnded_eq]
    cases last : text.getLast? with
    | none => rfl
    | some d =>
        refine beq_eq_false_iff_ne.mpr ?_
        rintro rfl
        exact single (List.mem_of_getLast? last)
  rw [opens?_append, startsIn_of_notMem single, inside, List.findSome?_nil, Option.none_or]
  rfl

/-- A text that lacks a mark starts a line exactly if it starts before the mark. -/
theorem isPrefixOf_lineOf_append (absent : mark ∉ start) (member : mark ∈ rest) (more other : List Char) :
    start.isPrefixOf (lineOf (rest ++ more)) = start.isPrefixOf (lineOf (rest ++ other)) := by
  by_cases feed : '\n' ∈ rest
  · rw [lineOf_append_of_mem feed, lineOf_append_of_mem feed]
  · have before (more : List Char) : start <+: lineOf (rest ++ more) ↔ start <+: rest := by
      rw [lineOf, List.takeWhile_append_of_pos (bne_of_notMem feed)]
      refine ⟨fun starts => ?_, fun starts => starts.trans (List.prefix_append _ _)⟩
      refine (List.prefix_or_prefix_of_prefix starts (List.prefix_append rest _)).resolve_right fun long => ?_
      exact absent (long.subset member)
    rw [Bool.eq_iff_iff, List.isPrefixOf_iff_prefix, List.isPrefixOf_iff_prefix, before, before]

/-- The first export opens as before when names are added to a list, unless the start goes on over a brace. -/
theorem opens?_extended {list : NameList} {wanted : List (List Char)} (brace : '\x7b' ∉ start)
    (single : '\n' ∉ list.names) (single' : '\n' ∉ (list.extended wanted).names) (head tail : List Char) :
    opens? start true (head ++ ((list.extended wanted).written ++ tail))
      = opens? start true (head ++ (list.written ++ tail)) := by
  have parted {names : List Char} (single : '\n' ∉ names) :
      opens? start true (head ++ list.lead ++ '\x7b' :: (names ++ '\x7d' :: (list.tail ++ tail)))
        = ((startsIn true (head ++ list.lead ++ ['\x7b'])).findSome? fun part =>
            opensAt? start (part ++ (names ++ '\x7d' :: (list.tail ++ tail)))).or
          (opens? start false (list.tail ++ tail)) := by
    have inside : lineEnded true (head ++ list.lead ++ ['\x7b']) = false := by
      rw [lineEnded_eq, List.getLast?_concat]
      rfl
    rw [List.append_cons, opens?_append, inside, opens?_line_append single]
    rfl
  rw [NameList.extended_append, NameList.written_append, parted single, parted single']
  refine congrArg (Option.or · _) (findSome?_congr fun part member => ?_)
  have inside : '\x7b' ∈ part := by
    obtain ⟨nonempty, ahead, whole, _⟩ := exists_of_mem_startsIn member
    have last := congrArg List.getLast? whole
    rw [List.getLast?_concat, List.getLast?_append_of_ne_nil ahead nonempty] at last
    exact List.mem_of_getLast? last.symm
  have isMark : IsMark '\x7b' := ⟨by decide, by decide⟩
  exact opensAt?_append_congr isMark inside fun rest among _ => isPrefixOf_lineOf_append brace among _ _

/-- A line that starts with another character has no export. -/
theorem opens?_other_line {line : List Char} (single : '\n' ∉ line) (other : line.head? ≠ some 'e')
    (rest : List Char) : opens? start true (line ++ '\n' :: rest) = opens? start true rest := by
  have unread {text : List Char} (other : text.head? ≠ some 'e') : opensAt? start text = none := by
    rw [opensAt?, Option.map_eq_none_iff, expressionAt?, List.find?_eq_none]
    intro rest among
    obtain ⟨gap, apart, _, _, rfl⟩ := mem_lead_iff.mp among
    exact absurd rfl other
  cases line with
  | nil =>
      have blank : opensAt? start ('\n' :: rest) = none := unread (by simp)
      rw [List.nil_append, opens?, startsIn, if_pos rfl, List.singleton_append, List.findSome?_cons, blank]
      rfl
  | cons c line =>
      rw [List.mem_cons, not_or] at single
      have here : opensAt? start (c :: (line ++ '\n' :: rest)) = none := unread other
      rw [List.cons_append, opens?, startsIn, if_pos rfl, List.singleton_append, List.findSome?_cons, here, ← opens?,
        beq_eq_false_iff_ne.mpr (Ne.symm single.1), opens?_line_append single.2]
      rfl

/-- The first export opens as before when a statement is inserted. -/
theorem opens?_insert_statement {statement : List Char} (isMark : IsMark mark) (among : mark ∈ start)
    (lines : HasPlainLines text) (single : '\n' ∉ statement) (other : statement.head? ≠ some 'e')
    (opens : opens? start true text = some true) :
    opens? start true (ImportStatement.insert text [statement]) = some true := by
  obtain ⟨index, gap, rfl, isGap, inserted⟩ := exists_insert text (List.cons_ne_nil statement [])
  rw [inserted, ← List.append_assoc (block _)]
  refine opens?_insert isMark among (place_insertIndex lines) ?_ ?_
  · rw [block, List.flatMap_singleton, List.append_assoc, List.append_assoc, List.singleton_append,
      opens?_other_line single other]
    rcases isGap with rfl | rfl
    · rfl
    · exact opens?_other_line (show '\n' ∉ [] by simp) (by simp) _
  · rwa [← List.flatten_append, List.take_append_drop, flatten_linesWithEnds]

/-- The first export opens as before when names are added to at most one list. -/
theorem opens?_of_extends {wanted : List (List Char)} {changed : List Char} (more : Extends wanted text changed)
    (listable : ∀ name ∈ wanted, IsListable name) (brace : '\x7b' ∉ start) :
    opens? start true changed = opens? start true text := by
  cases more with
  | same => rfl
  | @names _ _ _ _ _ list _ _ _ single contentIs changedIs _ _ =>
      have single' : '\n' ∉ (list.extended wanted).names :=
        NameList.notMem_extended (by decide) single
          fun name among inside => absurd ((listable name among).plain '\n' inside).2.2 (by decide)
      rw [contentIs, changedIs, opens?_extended brace single single']

/-- A wrapped export opens as before when its wrapper is imported. -/
theorem opens?_added {source wrapper : String} (plain : (wrapperRequest source wrapper).IsPlain)
    (brace : '\x7b' ∉ wrapper.toList) (lines : HasPlainLines text)
    (opens : opens? (callStart wrapper) true text = some true) :
    opens? (callStart wrapper) true (added text [wrapperRequest source wrapper]) = some true := by
  obtain ⟨more, plainLines, _⟩ := Request.apply_content plain lines
  have brace' : '\x7b' ∉ callStart wrapper := by simpa [callStart] using brace
  have changed := (opens?_of_extends more plain.listable brace').trans opens
  rw [added_wrapperRequest, Request.listing]
  split
  · exact changed
  · have other : (namedStatement (wrapperRequest source wrapper).named
        (wrapperRequest source wrapper).source).toList.head? ≠ some 'e' := by
      rw [Request.written_list, Request.written_list_eq]
      simp
    refine opens?_insert_statement isMark_parenthesis (mem_callStart wrapper) plainLines (fun member => ?_) other
      changed
    exact absurd (Request.isLineEnd_statement plain '\n' member) (by decide)

/-! ## Parentheses -/

/-- A list has no fewer parentheses with more names. -/
theorem count_le_extended (list : NameList) (wanted : List (List Char)) :
    list.written.count '(' ≤ (list.extended wanted).written.count '(' := by
  have silent : ∀ c, isBlank c = true → (c == '(') = false := by
    intro c blank
    refine beq_eq_false_iff_ne.mpr ?_
    rintro rfl
    exact absurd blank (by decide)
  have names : list.names.count '(' ≤ (list.extended wanted).names.count '(' := by
    rw [List.count_eq_length_filter, List.count_eq_length_filter, NameList.filter_extended silent rfl,
      List.length_append]
    exact Nat.le_add_right _ _
  have lead : (list.extended wanted).lead = list.lead := rfl
  have tail : (list.extended wanted).tail = list.tail := rfl
  simp only [NameList.written, List.count_append, List.count_cons, lead, tail]
  omega

/-- Importing a wrapper takes no parenthesis away. -/
theorem count_le_added (source wrapper : String) (text : List Char) :
    text.count '(' ≤ (added text [wrapperRequest source wrapper]).count '(' := by
  rw [added_wrapperRequest]
  refine le_trans ?_ ((sublist_insert _ _).count_le '(')
  rcases (wrapperRequest source wrapper).apply_eq_or text with same | ⟨front, list, back, textIs, changed⟩
  · rw [same]
  · have more := count_le_extended list ((wrapperRequest source wrapper).named.map String.toList)
    rw [changed]
    conv_lhs => rw [textIs]
    simp only [List.count_append]
    omega

/-- Wrapping an export adds a parenthesis unless it is wrapped. -/
theorem count_lt_wrap {content : List Char} {found : Export} {wrapper : String} {options : Option Value}
    (read : find? [] content = some found) (unwrapped : ¬(callStart wrapper).isPrefixOf found.expression = true)
    (wraps : wrap wrapper options content found = .ok text) : content.count '(' < text.count '(' := by
  rw [wrap, show (wrapper ++ "(").toList = callStart wrapper from String.toList_append, if_neg unwrapped] at wraps
  obtain ⟨written, called, rfl⟩ := exists_of_map_eq_ok wraps
  obtain ⟨more, rfl⟩ := exists_of_call called
  obtain ⟨skipped, rest, rfl, starts, _⟩ := exists_of_find? read
  obtain ⟨gap, apart, trailing, before, rfl, blank, behind⟩ := exists_of_readAt? starts
  have none {text : List Char} (absent : '(' ∉ text) : text.count '(' = 0 := List.count_eq_zero.mpr absent
  have gaps : '(' ∉ gap ++ apart := notMem_of_blank blank (by decide)
  have trail : '(' ∉ trailing := fun member => absurd (behind _ member) (by decide)
  rw [List.mem_append, not_or] at gaps
  have words : "export".toList.count '(' = 0 ∧ "default".toList.count '(' = 0 ∧ ['('].count '(' = 1 := ⟨rfl, rfl, rfl⟩
  simp only [before, List.count_append, none gaps.1, none gaps.2, none trail, words, callStart]
  omega

/-! ## Running again -/

variable {content output wrapper : String} {arguments : Entries}

/-- A wrapper that can be imported so that the import is recognised. -/
structure IsImportable (source wrapper : String) : Prop where
  namable : IsNamable source.toList
  listable : IsListable wrapper.toList
  brace : '\x7b' ∉ wrapper.toList

/-- The request for an importable wrapper is plain. -/
theorem IsImportable.isPlain {source : String} (importable : IsImportable source wrapper) :
    (wrapperRequest source wrapper).IsPlain :=
  ⟨importable.namable, nofun, nofun, List.forall_mem_singleton.mpr importable.listable⟩

/-- An importable wrapper that is imported is not imported again. -/
theorem added_wrapperRequest_again {source : String} (plain : (wrapperRequest source wrapper).IsPlain)
    (lines : HasPlainLines text) : added (added text [wrapperRequest source wrapper]) [wrapperRequest source wrapper]
      = added text [wrapperRequest source wrapper] := by
  refine (added_again_iff (List.forall_mem_singleton.mpr plain) lines).mpr ?_
  simp [Coherent, firstNaming?, wrapperRequest]

/-- An import takes no parenthesis away. -/
theorem count_le_withImport? {source : Option Value} {imported : List Char}
    (done : withImport? source wrapper text = some imported) : text.count '(' ≤ imported.count '(' := by
  cases source with
  | none => rw [Option.some.inj done]
  | some value =>
      obtain ⟨name, _, rfl⟩ := exists_of_withImport? done
      exact count_le_added name wrapper text

/-- If a run changes nothing, its export is read as a call of the wrapper. -/
theorem isRereadable_of_run (named : argument? arguments ["wrapper", "name"] = some (.text wrapper))
    (done : run content arguments = .ok content) : IsRereadable wrapper := by
  obtain ⟨other, found, text, named', _, read, wraps, imports⟩ := run_eq_ok_iff.mp done
  obtain rfl : wrapper = other := by simpa using named.symm.trans named'
  by_cases wrapped : (callStart wrapper).isPrefixOf found.expression = true
  · have opens := map_find?_callStart wrapper content.toList
    rw [read, Option.map_some, wrapped] at opens
    obtain ⟨part, _, here⟩ := List.exists_of_findSome?_eq_some opens.symm
    exact isRereadable_of_opensAt? here
  · -- Otherwise the run adds a parenthesis.
    have fewer := count_lt_wrap read wrapped wraps
    have more := count_le_withImport? imports
    omega

/-- An export that is read as a call of the wrapper is left as it is. -/
theorem run_of_opens? (named : argument? arguments ["wrapper", "name"] = some (.text wrapper))
    (visible : isAllBlank wrapper.toList = false) (opens : opens? (callStart wrapper) true content.toList = some true)
    (imported : withImport? (filled? arguments ["import_from", "importFrom"]) wrapper content.toList
      = some content.toList) : run content arguments = .ok content := by
  obtain ⟨found, read, wrapped⟩ := Option.map_eq_some_iff.mp ((map_find?_callStart wrapper content.toList).trans opens)
  refine run_eq_ok_iff.mpr ⟨wrapper, found, content.toList, named, visible, read, ?_, imported⟩
  rw [wrap, String.toList_append]
  exact if_pos wrapped

/-- A second run changes nothing exactly if the wrapper is read as an expression behind the words of an export.  If the
wrapper is imported, it must be one that an import can be recognised by, and the lines of the wrapped text must be
plain. -/
theorem run_again_unchanged_iff (named : argument? arguments ["wrapper", "name"] = some (.text wrapper))
    (done : run content arguments = .ok output) : ∃ found text, find? [] content.toList = some found
      ∧ wrap wrapper (filled? arguments ["options"]) content.toList found = .ok text
      ∧ ((∀ source, filled? arguments ["import_from", "importFrom"] = some (.text source) →
          HasPlainLines text ∧ IsImportable source wrapper) →
        (run output arguments = .ok output ↔ IsRereadable wrapper)) := by
  obtain ⟨other, found, text, named', visible, read, wraps, imports⟩ := run_eq_ok_iff.mp done
  obtain rfl : wrapper = other := by simpa using named.symm.trans named'
  refine ⟨found, text, read, wraps, fun importable => ⟨isRereadable_of_run named, fun rereadable => ?_⟩⟩
  have opens := opens?_wrap read rereadable wraps
  cases given : filled? arguments ["import_from", "importFrom"] with
  | none =>
      rw [given] at imports
      obtain rfl : text = output.toList := Option.some.inj imports
      exact run_of_opens? named visible opens (by rw [given]; rfl)
  | some value =>
      rw [given] at imports
      obtain ⟨source, rfl, imported⟩ := exists_of_withImport? imports
      obtain ⟨lines, importable⟩ := importable source given
      have opens' := opens?_added importable.isPlain importable.brace lines opens
      rw [imported] at opens'
      refine run_of_opens? named visible opens' ?_
      rw [given, ← imported]
      exact congrArg some (added_wrapperRequest_again importable.isPlain lines)

/-- Arguments that name a wrapper and where it comes from. -/
def authArguments : Entries := .ofPairs [(.text "wrapper", .text "withAuth"), (.text "import_from", .text "./auth")]

/-- A wrapped and imported export is left as it is. -/
theorem run_again_unchanged_auth :
    run "export default page;\n" authArguments
        = .ok "import \x7b withAuth \x7d from './auth';\n\nexport default withAuth(page);\n"
      ∧ run "import \x7b withAuth \x7d from './auth';\n\nexport default withAuth(page);\n" authArguments
        = .ok "import \x7b withAuth \x7d from './auth';\n\nexport default withAuth(page);\n" := by
  have done : run "export default page;\n" authArguments
      = .ok "import \x7b withAuth \x7d from './auth';\n\nexport default withAuth(page);\n" :=
    run_eq_ok_iff.mpr ⟨"withAuth", ⟨[], "page".toList, ['\n']⟩, "export default withAuth(page);\n".toList, rfl,
      by decide, by decide +kernel, rfl, by decide +kernel⟩
  obtain ⟨found, text, read, wraps, iff⟩ := run_again_unchanged_iff rfl done
  obtain rfl : (⟨[], "page".toList, ['\n']⟩ : Export) = found := Option.some.inj (.trans (by decide +kernel) read)
  obtain rfl : "export default withAuth(page);\n".toList = text := Except.ok.inj wraps
  have lines : HasPlainLines "export default withAuth(page);\n".toList :=
    .cons (@IsLine.intro "export default withAuth(page);".toList _ (unbroken_of_all rfl) (.inl rfl)) .nil
  have importable : IsImportable "./auth" "withAuth" :=
    ⟨List.all_iff_forall_prop.mp rfl,
      ⟨⟨by decide, by decide, by decide⟩, List.all_iff_forall_prop.mp rfl⟩, by decide⟩
  refine ⟨done, (iff ?_).mpr (by decide +kernel)⟩
  rintro _ ⟨⟩
  exact ⟨lines, importable⟩

/-- A call of a wrapper with the name of a declaration is not read as an export. -/
theorem run_again_refuses_declaration :
    run "export default foo;\n" [(.text "wrapper", .text "async")] = .ok "export default async(foo);\n"
      ∧ run "export default async(foo);\n" [(.text "wrapper", .text "async")] = .error .noDefaultExport := by
  refine ⟨run_eq_ok_iff.mpr ⟨"async", ⟨[], "foo".toList, ['\n']⟩, "export default async(foo);\n".toList, rfl,
    by decide, by decide +kernel, rfl, rfl⟩, ?_⟩
  have absent : find? [] "export default async(foo);\n".toList = none := by decide +kernel
  have visible : isAllBlank "async".toList = false := by decide
  have given : argument? [(.text "wrapper", .text "async")] ["wrapper", "name"] = some (.text "async") := rfl
  rw [run, given]
  simp only [visible, absent]
  rfl

end Scaffold.ExportWrap
