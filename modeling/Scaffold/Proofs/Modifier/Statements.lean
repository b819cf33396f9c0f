import Scaffold.Proofs.Modifier.Requests

/-!
# What a content imports

A content is read statement by statement (`statements`): a line that starts an import starts a statement, which goes on
to the first line that ends with a source.  So a statement may stand in several lines, just as for the place of new
statements.  What a statement binds are the last words of its parts (`Statement.names`), and all of them together are
what the content imports (`imported`).

Behind a line that ends as a complete import no statement is open (`readLine_complete`), and so none is open where new
statements are put (`openAfter_insertIndex`).  There each of them is read for itself (`imported_insert`).
-/

namespace Scaffold.ImportAdd

open Scaffold.Text ImportStatement

/-! ## Reading statements -/

/-- A name that is imported, and its source. -/
structure Binding where
  name : List Char
  source : List Char
  deriving DecidableEq, Repr

/-- An import statement: what stands before its source, and the source. -/
structure Statement where
  text : List Char
  source : List Char
  deriving DecidableEq, Repr

/-- The last word of a text that ends visibly. -/
def lastWord (text : List Char) : List Char := (text.reverse.takeWhile fun c => !isBlank c).reverse

/-- The names that parts of a statement bind: each its last word, which stands alone or behind `as` or `type`. -/
def boundBy (parts : List (List Char)) : List (List Char) :=
  ((parts.map trim).filter fun part => !part.isEmpty).map lastWord

/-- The names that a statement binds.  What stands right before the braces binds nothing: it is `type` or nothing. -/
def Statement.names (statement : Statement) : List (List Char) :=
  let clause := (statement.text.dropWhile isBlank).drop "import".length
  match clause.dropWhile (· != '\x7b') with
  | [] => boundBy (splitAtChar ',' clause)
  | _ :: inner => boundBy (splitAtChar ',' (clause.takeWhile (· != '\x7b'))).dropLast
      ++ boundBy (splitAtChar ',' (inner.takeWhile (· != '\x7d')))

/-- What a statement imports. -/
def Statement.bindings (statement : Statement) : List Binding :=
  statement.names.map fun name => ⟨name, statement.source⟩

/-- Whether a line starts a statement: behind the word there is a blank or a brace. -/
def opens (line : List Char) : Bool :=
  (Pattern.all [.anyBlanks, .word "import", .one fun c => isBlank c || c == '\x7b']).matchesStart line

/-- What stands before the source that a text ends with, and the source; `afterWord` says whether a word character
stands before the text. -/
def cutSource? (afterWord : Bool) : List Char → Option (List Char × List Char)
  | [] => none
  | c :: rest =>
    if !afterWord && sourceClause.matchesAll (c :: rest) then some ([], namedSource (c :: rest))
    else (cutSource? (isWord c) rest).map fun parts => (c :: parts.1, parts.2)

/-- Reads a line: what is open behind it, if anything, and the statement that ends with it.  An open statement that
has no source yet is given up where another one starts. -/
def readLine (opened : Option (List Char)) (line : List Char) : Option (List Char) × List Statement :=
  match if opens line then some [] else opened with
  | none => (none, [])
  | some before =>
    match cutSource? false line with
    | some (text, source) => (none, [⟨before ++ text, source⟩])
    | none => if sideEffect.matchesAll (trim line) then (none, []) else (some (before ++ (line ++ ['\n'])), [])

/-- What is open behind lines. -/
def openAfter (opened : Option (List Char)) (lines : List (List Char)) : Option (List Char) :=
  lines.foldl (fun opened line => (readLine opened line).1) opened

/-- The statements of lines. -/
def statements (opened : Option (List Char)) : List (List Char) → List Statement
  | [] => []
  | line :: rest => (readLine opened line).2 ++ statements (readLine opened line).1 rest

/-- What lines import. -/
def importedBy (lines : List (List Char)) : List Binding := (statements none lines).flatMap Statement.bindings

/-- What a content imports. -/
def imported (content : List Char) : List Binding := importedBy (bodies content)

variable {source text clause front rest line : List Char} {lines before after : List (List Char)}
  {opened : Option (List Char)}

/-- Lines behind others go on with what is open. -/
theorem statements_append (opened : Option (List Char)) (before after : List (List Char)) :
    statements opened (before ++ after) = statements opened before ++ statements (openAfter opened before) after := by
  induction before generalizing opened with
  | nil => rfl
  | cons line before inductionHypothesis =>
      rw [List.cons_append, statements, inductionHypothesis, statements, List.append_assoc]
      rfl

/-- Behind lines that leave nothing open other lines are read for themselves. -/
theorem importedBy_append (closed : openAfter none before = none) (after : List (List Char)) :
    importedBy (before ++ after) = importedBy before ++ importedBy after := by
  rw [importedBy, statements_append, closed, List.flatMap_append]
  rfl

/-- A line that is read alike whatever is open is read for itself. -/
theorem importedBy_cons_of_alone {found : List Statement} (alone : readLine none line = (none, found))
    (after : List (List Char)) :
    importedBy (line :: after) = found.flatMap Statement.bindings ++ importedBy after := by
  rw [importedBy, statements, alone, List.flatMap_append]
  rfl

/-! ## The source at the end of a line -/

/-- A text is a clause with a source if something with quotation marks around it follows the word. -/
theorem matchesAll_sourceClause_iff : sourceClause.matchesAll text = true ↔ ∃ source clause ending,
    text = clause ++ ending ∧ FromClause source clause ∧ source ≠ [] ∧ (∀ c ∈ source, isQuote c = false)
      ∧ [] ∈ statementEnd ending := by
  rw [Pattern.matchesAll_iff]
  simp only [sourceClause, quotedText, Pattern.mem_all_cons_iff, Pattern.mem_all_nil_iff, Pattern.mem_word_iff,
    Pattern.blanks, Pattern.mem_some_iff, Pattern.mem_one_iff]
  constructor
  · rintro ⟨_, rfl, _, ⟨gap, apart, blank, rfl⟩, ending, ⟨_, ⟨opening, opens, rfl⟩, _, ⟨source, nonempty, plain, rfl⟩,
      _, ⟨closing, closes, rfl⟩, rfl⟩, _, ended, rfl⟩
    exact ⟨source, _, _, by simp, .intro apart blank opens closes, nonempty, by simpa using plain, ended⟩
  · rintro ⟨source, _, ending, rfl, @⟨gap, opening, closing, apart, blank, opens, closes⟩, nonempty, plain, ended⟩
    refine ⟨gap ++ opening :: (source ++ closing :: ending), by simp, _, ⟨gap, apart, blank, rfl⟩, ending, ?_,
      [], ended, rfl⟩
    exact ⟨_, ⟨opening, opens, rfl⟩, _, ⟨source, nonempty, by simpa using plain, rfl⟩, _, ⟨closing, closes, rfl⟩, rfl⟩

/-- The source of a clause is read from it. -/
theorem FromClause.namedSource_append (names : FromClause source clause) (plain : ∀ c ∈ source, isQuote c = false)
    (rest : List Char) : namedSource (clause ++ rest) = source := by
  obtain @⟨gap, opening, closing, apart, blank, opens, closes⟩ := names
  have shown : isBlank opening = false := isBlank_of_isClosing (by simp [isClosing, opens])
  have word (text : List Char) : (("from".toList ++ text).dropWhile isBlank).drop 4 = text := rfl
  have behind : (gap ++ opening :: (source ++ [closing] ++ rest)).dropWhile isBlank
      = opening :: (source ++ [closing] ++ rest) := by
    rw [List.dropWhile_append_of_pos blank, List.dropWhile_cons_of_neg (by simp [shown])]
  have named : (source ++ [closing] ++ rest).takeWhile (fun c => !isQuote c) = source := by
    rw [List.append_assoc, List.takeWhile_append_of_pos fun c member => by simp [plain c member],
      List.singleton_append, List.takeWhile_cons_of_neg (by simp [closes]), List.append_nil]
  rw [namedSource, List.append_assoc, word, List.append_assoc, List.cons_append, behind, List.drop_one, List.tail_cons,
    named]

/-- The end of a statement has no quotation mark. -/
theorem isQuote_of_statementEnd (ended : [] ∈ statementEnd rest) : ∀ c ∈ rest, isQuote c = false := by
  simp only [statementEnd, Pattern.mem_all_cons_iff, Pattern.mem_all_nil_iff, Pattern.anyBlanks,
    Pattern.mem_many_iff, Pattern.mem_optional_iff, Pattern.mem_word_iff] at ended
  obtain ⟨_, ⟨gap, blank, rfl⟩, between, semicolon, _, ⟨last, blanks, rfl⟩, rfl⟩ := ended
  have quiet {text : List Char} (blank : ∀ c ∈ text, isBlank c = true) : ∀ c ∈ text, isQuote c = false := by
    intro c member
    rw [Bool.eq_false_iff]
    intro quote
    have shown := isBlank_of_isClosing (c := c) (by simp [isClosing, quote])
    rw [blank c member] at shown
    cases shown
  refine List.forall_mem_append.mpr ⟨quiet blank, ?_⟩
  rw [List.append_nil] at semicolon
  rcases semicolon with rfl | rfl
  · exact List.forall_mem_append.mpr ⟨List.forall_mem_singleton.mpr rfl, quiet blanks⟩
  · exact quiet blanks

/-- A clause has two quotation marks, and before the first of them stands the word and blanks. -/
theorem exists_of_sourceClause (matched : sourceClause.matchesAll text = true) :
    ∃ gap, text.takeWhile (fun c => !isQuote c) = "from".toList ++ gap ∧ (∀ c ∈ gap, isBlank c = true)
      ∧ (text.filter isQuote).length = 2 := by
  obtain ⟨source, _, ending, rfl, @⟨gap, opening, closing, _, blank, opens, closes⟩, _, plain, ended⟩ :=
    matchesAll_sourceClause_iff.mp matched
  have quietGap : ∀ c ∈ gap, isQuote c = false := by
    intro c member
    have quiet := quiet_of_blank blank c member
    rw [isClosing, Bool.or_eq_false_iff] at quiet
    exact quiet.1
  have word : ∀ c ∈ "from".toList ++ gap, isQuote c = false := by
    refine List.forall_mem_append.mpr ⟨?_, quietGap⟩
    simp only [String.reduceToList, List.forall_mem_cons, List.not_mem_nil, false_implies, implies_true, and_true]
    decide
  have parted : "from".toList ++ (gap ++ opening :: (source ++ [closing])) ++ ending
      = ("from".toList ++ gap) ++ opening :: (source ++ closing :: ending) := by simp
  refine ⟨gap, ?_, blank, ?_⟩
  · rw [parted, List.takeWhile_append_of_pos fun c member => by simp [word c member],
      List.takeWhile_cons_of_neg (by simp [opens]), List.append_nil]
  · rw [parted, List.filter_append, filter_of_silent word, List.filter_cons_of_pos opens, List.filter_append,
      filter_of_silent plain, List.filter_cons_of_pos closes, filter_of_silent (isQuote_of_statementEnd ended)]
    rfl

/-- In a text with two quotation marks both are those of the clause that it ends with. -/
theorem exists_of_append_sourceClause (matched : sourceClause.matchesAll clause = true)
    (two : ((front ++ clause).filter isQuote).length = 2) :
    ∃ gap, (front ++ clause).takeWhile (fun c => !isQuote c) = front ++ ("from".toList ++ gap) := by
  obtain ⟨gap, start, _, own⟩ := exists_of_sourceClause matched
  rw [List.filter_append, List.length_append, own, Nat.add_eq_right, List.length_eq_zero_iff,
    List.filter_eq_nil_iff] at two
  exact ⟨gap, by rw [List.takeWhile_append_of_pos fun c member => by simp [two c member], start]⟩

/-- A text ends with one clause only. -/
theorem sourceClause_unique (matched : sourceClause.matchesAll clause = true)
    (longer : sourceClause.matchesAll (front ++ clause) = true) : front = [] := by
  obtain ⟨gap', start', blanks, two⟩ := exists_of_sourceClause longer
  obtain ⟨gap, start⟩ := exists_of_append_sourceClause matched two
  rw [start] at start'
  by_contra nonempty
  -- Otherwise the last letter of the word is among the blanks behind the longer one.
  have long : 4 ≤ (front ++ "fro".toList).length := by
    have positive := List.length_pos_iff.mpr nonempty
    simp
    omega
  have behind : gap' = (front ++ "fro".toList).drop 4 ++ 'm' :: gap := by
    have dropped := congrArg (List.drop 4) start'
    rw [show front ++ ("from".toList ++ gap) = (front ++ "fro".toList) ++ 'm' :: gap by simp,
      List.drop_append_of_le_length long] at dropped
    exact dropped.symm
  have letter := blanks 'm' (by simp [behind])
  exact absurd letter (by decide)

/-- Whether a word character stands behind a text that does not start it. -/
theorem afterWord_cons (c : Char) (front : List Char) (afterWord : Bool) :
    ((c :: front).getLast?.map isWord).getD afterWord = (front.getLast?.map isWord).getD (isWord c) := by
  rw [List.getLast?_cons, Option.map_some, Option.getD_some, Option.getD_map]

/-- No word character stands behind blanks. -/
theorem afterWord_blank (front : List Char) {gap : List Char} {afterWord : Bool} (blank : ∀ c ∈ gap, isBlank c = true)
    (apart : (front.getLast?.map isWord).getD afterWord = false) :
    ((front ++ gap).getLast?.map isWord).getD afterWord = false := by
  cases last : gap.getLast? with
  | none =>
      rw [List.getLast?_eq_none_iff.mp last, List.append_nil]
      exact apart
  | some c =>
      rw [List.getLast?_append, last, Option.some_or, Option.map_some, Option.getD_some, Bool.eq_false_iff]
      intro word
      have shown := isBlank_of_isWord word
      rw [blank c (List.mem_of_getLast? last)] at shown
      cases shown

/-- A text is cut before the clause that it ends with. -/
theorem cutSource?_append {afterWord : Bool} (matched : sourceClause.matchesAll clause = true)
    (apart : (front.getLast?.map isWord).getD afterWord = false) :
    cutSource? afterWord (front ++ clause) = some (front, namedSource clause) := by
  induction front generalizing afterWord with
  | nil =>
      have start : ∃ c rest, clause = c :: rest := by
        obtain ⟨source, written, ending, rfl, names, _⟩ := matchesAll_sourceClause_iff.mp matched
        obtain ⟨more, rfl⟩ := names.exists_cons
        exact ⟨'f', more ++ ending, rfl⟩
      obtain ⟨c, rest, rfl⟩ := start
      have here : afterWord = false := apart
      rw [List.nil_append, cutSource?, here, matched]
      rfl
  | cons c front inductionHypothesis =>
      have other : sourceClause.matchesAll (c :: (front ++ clause)) = false := by
        rw [Bool.eq_false_iff]
        exact fun longer => List.cons_ne_nil c front (sourceClause_unique matched longer)
      rw [afterWord_cons] at apart
      rw [List.cons_append, cutSource?, other, Bool.and_false, if_neg (by simp), inductionHypothesis apart]
      rfl

/-- A text that ends with a source ends with a clause that no word stands right before. -/
theorem exists_of_endsWithSource {afterWord : Bool} (found : endsWithSource afterWord text = true) :
    ∃ front clause, text = front ++ clause ∧ sourceClause.matchesAll clause = true
      ∧ (front.getLast?.map isWord).getD afterWord = false := by
  induction text generalizing afterWord with
  | nil => cases found
  | cons c text inductionHypothesis =>
      rw [endsWithSource, Bool.or_eq_true, Bool.and_eq_true] at found
      rcases found with ⟨apart, here⟩ | later
      · exact ⟨[], c :: text, rfl, here, by simpa using apart⟩
      · obtain ⟨front, clause, rfl, matched, apart⟩ := inductionHypothesis later
        exact ⟨c :: front, clause, rfl, matched, (afterWord_cons c front afterWord).trans apart⟩

/-- Blanks behind a clause belong to it. -/
theorem matchesAll_sourceClause_append {gap : List Char} (matched : sourceClause.matchesAll text = true)
    (blank : ∀ c ∈ gap, isBlank c = true) : sourceClause.matchesAll (text ++ gap) = true := by
  obtain ⟨source, clause, ending, rfl, names, nonempty, plain, ended⟩ := matchesAll_sourceClause_iff.mp matched
  refine matchesAll_sourceClause_iff.mpr ⟨source, clause, ending ++ gap, by simp, names, nonempty, plain, ?_⟩
  simp only [statementEnd, Pattern.mem_all_cons_iff, Pattern.mem_all_nil_iff, Pattern.anyBlanks,
    Pattern.mem_many_iff, Pattern.mem_optional_iff, Pattern.mem_word_iff] at ended ⊢
  obtain ⟨_, ⟨first, blanks, rfl⟩, _, semicolon, _, ⟨last, trailing, rfl⟩, rfl⟩ := ended
  refine ⟨_, ⟨first, blanks, (List.append_assoc _ _ _)⟩, last ++ gap, ?_, [],
    ⟨last ++ gap, List.forall_mem_append.mpr ⟨trailing, blank⟩, by simp⟩, rfl⟩
  rw [List.append_nil] at semicolon
  exact semicolon.imp (fun written => by rw [written, List.append_assoc]) fun missing => by rw [missing]

/-- A line that ends with a source when it is trimmed can be cut before it. -/
theorem isSome_cutSource?_of_trim (found : endsWithSource false (trim line) = true) :
    (cutSource? false line).isSome = true := by
  obtain ⟨lead, trail, whole, leading, trailing⟩ := exists_eq_append_trimWhere_append isBlank line
  obtain ⟨front, clause, trimmed, matched, apart⟩ := exists_of_endsWithSource found
  have parted : line = (lead ++ front) ++ (clause ++ trail) := by
    rw [whole, ← trim, trimmed]
    simp
  have longer := matchesAll_sourceClause_append matched (List.all_eq_true.mp trailing)
  rw [parted, cutSource?_append longer]
  · rfl
  · by_cases empty : front = []
    · rw [empty, List.append_nil]
      exact afterWord_blank [] (List.all_eq_true.mp leading) rfl
    · rwa [List.getLast?_append, Option.or_of_isSome (by simpa using empty)]

/-! ## Where nothing is open -/

/-- Behind a line that ends as a complete import does nothing is open. -/
theorem readLine_complete (complete : isComplete (trim line) = true) (opened : Option (List Char)) :
    (readLine opened line).1 = none := by
  rw [readLine]
  split
  · rfl
  · split
    · rfl
    · next uncut =>
      rw [isComplete, Bool.or_eq_true] at complete
      rcases complete with found | onlySource
      · have cut := isSome_cutSource?_of_trim found
        rw [uncut] at cut
        cases cut
      · rw [if_pos onlySource]

/-- A text that starts a statement has its first letter behind blanks. -/
theorem exists_of_opens (starts : opens line = true) :
    ∃ gap rest, (∀ c ∈ gap, isBlank c = true) ∧ line = gap ++ 'i' :: rest := by
  obtain ⟨rest, matched⟩ := Pattern.matchesStart_iff.mp starts
  simp only [Pattern.mem_all_cons_iff, Pattern.anyBlanks, Pattern.mem_many_iff, Pattern.mem_word_iff] at matched
  obtain ⟨_, ⟨gap, blank, rfl⟩, between, rfl, _⟩ := matched
  exact ⟨gap, _, blank, rfl⟩

/-- A directive starts no statement. -/
theorem opens_directive (isDirective : directive.matchesAll line = true) : opens line = false := by
  obtain ⟨c, first, quote⟩ := head?_trim_directive isDirective
  rw [Bool.eq_false_iff]
  intro starts
  obtain ⟨gap, rest, blank, rfl⟩ := exists_of_opens starts
  have letter : (trim (gap ++ 'i' :: rest)).head? = some 'i' :=
    head?_trimWhere (List.all_eq_true.mpr blank) (by decide) rest
  obtain rfl := Option.some.inj (letter.symm.trans first)
  exact absurd quote (by decide)

/-- Where new statements are put nothing is open. -/
theorem openAfter_insertIndex (lines : List (List Char)) : openAfter none (lines.take (insertIndex lines)) = none := by
  rcases insertIndex_spec lines with start | ⟨before, line, after, rfl, index, ended⟩
  · rw [start]
    rfl
  · have taken : (before ++ line :: after).take (before.length + 1) = before ++ [line] := by
      rw [List.take_append]
      simp
    rw [index, taken, openAfter, List.foldl_append, List.foldl_cons, List.foldl_nil]
    rcases ended with complete | ⟨rfl, isDirective⟩
    · exact readLine_complete complete _
    · rw [List.foldl_nil, readLine, opens_directive isDirective]
      rfl

/-- Behind lines that leave nothing open themselves nothing is open. -/
theorem openAfter_of_closed (closed : ∀ line ∈ lines, (readLine none line).1 = none) :
    openAfter none lines = none := by
  induction lines with
  | nil => rfl
  | cons line lines inductionHypothesis =>
      obtain ⟨first, others⟩ := List.forall_mem_cons.mp closed
      rw [openAfter, List.foldl_cons, first]
      exact inductionHypothesis others

/-- Lines that leave nothing open are read each for itself. -/
theorem importedBy_of_closed (closed : ∀ line ∈ lines, (readLine none line).1 = none) :
    importedBy lines = lines.flatMap fun line => importedBy [line] := by
  induction lines with
  | nil => rfl
  | cons line lines inductionHypothesis =>
      obtain ⟨first, others⟩ := List.forall_mem_cons.mp closed
      have here : openAfter none [line] = none := first
      rw [← List.singleton_append, importedBy_append here, inductionHypothesis others, List.flatMap_append,
        List.flatMap_singleton]

/-- Empty lines import nothing. -/
theorem importedBy_of_empty (areEmpty : ∀ line ∈ lines, line = []) : importedBy lines = [] := by
  induction lines with
  | nil => rfl
  | cons line lines inductionHypothesis =>
      obtain ⟨rfl, others⟩ := List.forall_mem_cons.mp areEmpty
      exact inductionHypothesis others

/-- With statements that are read for themselves a content imports what it did and what they import. -/
theorem imported_insert (content : List Char) {inserted : List (List Char)}
    (unbroken : ∀ statement ∈ inserted, ∀ c ∈ statement, isLineEnd c = false)
    (closed : ∀ statement ∈ inserted, (readLine none statement).1 = none) :
    (imported (ImportStatement.insert content inserted)).Perm (imported content ++ importedBy inserted) := by
  obtain ⟨pad, gap, lines, padEmpty, gapEmpty⟩ := exists_bodies_insert content unbroken
  have closedOf {lines : List (List Char)} (areEmpty : ∀ line ∈ lines, line = []) : openAfter none lines = none :=
    openAfter_of_closed fun line member => by rw [areEmpty line member]; rfl
  have here := openAfter_insertIndex (bodies content)
  have before : imported content = importedBy ((bodies content).take (insertIndex (bodies content)))
      ++ importedBy ((bodies content).drop (insertIndex (bodies content))) := by
    rw [← importedBy_append here, List.take_append_drop, imported]
  rw [before, imported, lines, importedBy_append here, importedBy_append (closedOf padEmpty),
    importedBy_append (openAfter_of_closed closed), importedBy_append (closedOf gapEmpty),
    importedBy_of_empty padEmpty, importedBy_of_empty gapEmpty, List.nil_append, List.nil_append, List.append_assoc]
  exact List.perm_append_comm.append_left _

/-! ## Statements in one line -/

/-- A source that can stand between quotation marks. -/
structure IsQuotable (source : List Char) : Prop where
  nonempty : source ≠ []
  plain : ∀ c ∈ source, isQuote c = false
  unbroken : ∀ c ∈ source, isLineEnd c = false

/-- A line that starts a statement and can be cut before a source is a statement. -/
theorem readLine_of_cut (starts : opens line = true) (cut : cutSource? false line = some (text, source))
    (opened : Option (List Char)) : readLine opened line = (none, [⟨text, source⟩]) := by
  rw [readLine, if_pos starts]
  simp only [cut]
  rfl

/-- What stands behind the closing brace of a list is blank up to a clause with the source. -/
theorem exists_of_tailPattern {tail : List Char} (quotable : IsQuotable source)
    (matched : (tailPattern source).matchesAll tail = true) : ∃ gap clause, tail = gap ++ clause
      ∧ (∀ c ∈ gap, isBlank c = true) ∧ sourceClause.matchesAll clause = true ∧ namedSource clause = source := by
  rw [Pattern.matchesAll_iff] at matched
  simp only [tailPattern, evenlyQuoted, Pattern.mem_all_cons_iff, Pattern.mem_all_nil_iff, Pattern.mem_word_iff,
    Pattern.anyBlanks, Pattern.blanks, Pattern.mem_many_iff, Pattern.mem_some_iff, Pattern.mem_either_iff,
    Pattern.mem_literal_iff] at matched
  obtain ⟨_, ⟨gap, blank, rfl⟩, _, rfl, quoted, ⟨apart, nonempty, blanks, rfl⟩, ending, isQuoted, _, ended, rfl⟩ :=
    matched
  obtain ⟨quote, opens, rfl⟩ : ∃ quote, isQuote quote = true ∧ quoted = quote :: (source ++ [quote]) ++ ending := by
    rcases isQuoted with rfl | rfl
    · exact ⟨'\'', rfl, by simp⟩
    · exact ⟨'"', rfl, by simp⟩
  have names : FromClause source ("from".toList ++ (apart ++ quote :: (source ++ [quote]))) :=
    .intro nonempty blanks opens opens
  refine ⟨gap, "from".toList ++ (apart ++ quote :: (source ++ [quote])) ++ ending, by simp, blank, ?_,
    names.namedSource_append quotable.plain ending⟩
  exact matchesAll_sourceClause_iff.mpr ⟨source, _, ending, rfl, names, quotable.nonempty, quotable.plain, ended⟩

/-- What stands before the opening brace of a list starts a statement. -/
theorem exists_of_leadPattern {lead : List Char} (matched : leadPattern.matchesAll lead = true) :
    ∃ gap c more, lead = gap ++ ("import".toList ++ c :: more) ∧ (∀ d ∈ gap, isBlank d = true)
      ∧ isBlank c = true := by
  rw [Pattern.matchesAll_iff] at matched
  simp only [leadPattern, Pattern.mem_all_cons_iff, Pattern.anyBlanks, Pattern.blanks, Pattern.mem_many_iff,
    Pattern.mem_word_iff, Pattern.mem_some_iff] at matched
  obtain ⟨_, ⟨gap, blank, rfl⟩, _, rfl, _, ⟨apart, nonempty, blanks, rfl⟩, _⟩ := matched
  obtain ⟨c, apart, rfl⟩ := List.exists_cons_of_ne_nil nonempty
  exact ⟨gap, c, _, rfl, blank, blanks c List.mem_cons_self⟩

/-- A blank behind the word starts a statement. -/
theorem opens_of_blank {gap : List Char} {c : Char} (blank : ∀ d ∈ gap, isBlank d = true)
    (apart : isBlank c = true) (more : List Char) : opens (gap ++ ("import".toList ++ c :: more)) = true := by
  refine Pattern.matchesStart_iff.mpr ⟨more, ?_⟩
  simp only [Pattern.mem_all_cons_iff, Pattern.mem_all_nil_iff, Pattern.anyBlanks, Pattern.mem_many_iff,
    Pattern.mem_word_iff, Pattern.mem_one_iff]
  exact ⟨_, ⟨gap, blank, rfl⟩, _, rfl, more, ⟨c, by rw [apart, Bool.true_or], rfl⟩, rfl⟩

/-- What stands behind the word of a statement. -/
theorem drop_import {gap : List Char} (blank : ∀ d ∈ gap, isBlank d = true) (rest : List Char) :
    ((gap ++ ("import".toList ++ rest)).dropWhile isBlank).drop "import".length = rest := by
  rw [List.dropWhile_append_of_pos blank]
  rfl

/-- The names of a statement with braces. -/
theorem Statement.names_braced {gap outside inside : List Char} (blank : ∀ d ∈ gap, isBlank d = true)
    (opening : '\x7b' ∉ outside) (closing : '\x7d' ∉ inside) (rest source : List Char) :
    Statement.names ⟨gap ++ ("import".toList ++ (outside ++ '\x7b' :: (inside ++ '\x7d' :: rest))), source⟩
      = boundBy (splitAtChar ',' outside).dropLast ++ boundBy (splitAtChar ',' inside) := by
  simp only [Statement.names, drop_import blank, dropWhile_of_notMem opening, takeWhile_of_notMem opening,
    takeWhile_of_notMem closing]

/-- The names of a statement without braces. -/
theorem Statement.names_plain {gap clause : List Char} (blank : ∀ d ∈ gap, isBlank d = true)
    (plain : '\x7b' ∉ clause) (source : List Char) :
    Statement.names ⟨gap ++ ("import".toList ++ clause), source⟩ = boundBy (splitAtChar ',' clause) := by
  have whole : clause.dropWhile (· != '\x7b') = [] := List.dropWhile_eq_nil_iff.mpr (bne_of_notMem plain)
  simp only [Statement.names, drop_import blank, whole]

/-- A line that lists names of a source is a statement whatever the names are.  It binds them, and before them what its
lead does. -/
theorem exists_readLine_written {list : NameList} (listed : list.IsListOf source) (quotable : IsQuotable source) :
    ∃ outside, ∀ names, '\x7d' ∉ names → ∃ statement : Statement,
      (∀ opened, readLine opened (NameList.written { list with names := names }) = (none, [statement]))
        ∧ statement.bindings = (outside ++ (NameList.present { list with names := names }).map lastWord).map
          fun name => ⟨name, source⟩ := by
  obtain ⟨gap, c, more, lead, blank, apart⟩ := exists_of_leadPattern listed.leads
  obtain ⟨trail, clause, tail, blanks, matched, named⟩ := exists_of_tailPattern quotable listed.ends
  have opening : '\x7b' ∉ c :: more := fun member => listed.opening (by
    rw [lead]
    exact List.mem_append_right _ (List.mem_append_right _ member))
  refine ⟨boundBy (splitAtChar ',' (c :: more)).dropLast, fun names closing => ?_⟩
  let start := gap ++ ("import".toList ++ ((c :: more) ++ '\x7b' :: (names ++ '\x7d' :: trail)))
  have whole : NameList.written { list with names := names } = start ++ clause := by
    simp [NameList.written, lead, tail, start]
  have ended : (start.getLast?.map isWord).getD false = false := by
    have parted : start = (gap ++ ("import".toList ++ ((c :: more) ++ '\x7b' :: (names ++ ['\x7d'])))) ++ trail := by
      simp [start]
    rw [parted]
    refine afterWord_blank _ blanks ?_
    simp [List.getLast?_append, List.getLast?_cons]
    decide
  refine ⟨⟨start, source⟩, readLine_of_cut ?_ ?_, ?_⟩
  · rw [whole]
    simpa [start] using opens_of_blank blank apart (more ++ '\x7b' :: (names ++ '\x7d' :: (trail ++ clause)))
  · rw [whole, cutSource?_append matched ended, named]
  · rw [Statement.bindings, Statement.names_braced blank opening closing]
    rfl

/-! ## Names -/

/-- A name as scripts write them: visible characters, none of which stands between names or around them. -/
structure IsIdentifier (name : List Char) : Prop where
  nonempty : name ≠ []
  plain : ∀ c ∈ name, isBlank c = false ∧ c ≠ ',' ∧ c ≠ '\x7b' ∧ c ≠ '\x7d'

/-- The end of a line is blank. -/
theorem isBlank_of_isLineEnd {c : Char} (ended : isLineEnd c = true) : isBlank c = true := by
  simp only [isLineEnd, Bool.or_eq_true, beq_iff_eq] at ended
  rcases ended with ((((((((rfl | rfl) | rfl) | rfl) | rfl) | rfl) | rfl) | rfl) | rfl) | rfl <;> decide

variable {name : List Char} {names wanted : List (List Char)}

/-- A visible character ends no line. -/
theorem IsIdentifier.unbroken (identifier : IsIdentifier name) : ∀ c ∈ name, isLineEnd c = false := by
  intro c member
  rw [Bool.eq_false_iff]
  intro ended
  have blank := isBlank_of_isLineEnd ended
  rw [(identifier.plain c member).1] at blank
  cases blank

/-- The characters that the program takes for those of names make identifiers. -/
theorem isIdentifier_of_all (nonempty : name ≠ []) (all : name.all isNameChar = true) : IsIdentifier name := by
  refine ⟨nonempty, fun c member => ?_⟩
  have other {d : Char} (stranger : isNameChar d = false) : c ≠ d := by
    rintro rfl
    rw [List.all_eq_true.mp all c member] at stranger
    cases stranger
  refine ⟨?_, other (by decide), other (by decide), other (by decide)⟩
  have letter := List.all_eq_true.mp all c member
  rw [isNameChar, Bool.or_eq_true, beq_iff_eq] at letter
  rcases letter with word | rfl
  · exact isBlank_of_isWord word
  · decide

/-- An identifier can be listed. -/
theorem IsIdentifier.isName (identifier : IsIdentifier name) : IsName name where
  nonempty := identifier.nonempty
  trimmed := trimWhere_eq_self (fun c first => (identifier.plain c (List.mem_of_head? first)).1)
    fun c last => (identifier.plain c (List.mem_of_getLast? last)).1
  whole member := (identifier.plain _ member).2.1 rfl

/-- An identifier is a single word. -/
theorem IsIdentifier.lastWord_append (identifier : IsIdentifier name) (front : List Char)
    (apart : ∀ c, front.getLast? = some c → isBlank c = true) : lastWord (front ++ name) = name := by
  have visible : ∀ c ∈ name.reverse, (!isBlank c) = true := fun c member => by
    simp [(identifier.plain c (List.mem_reverse.mp member)).1]
  have stops : front.reverse.takeWhile (fun c => !isBlank c) = [] := by
    cases reversed : front.reverse with
    | nil => rfl
    | cons c rest =>
        have last := apart c (by rw [List.getLast?_eq_head?_reverse, reversed]; rfl)
        rw [List.takeWhile_cons_of_neg (by simp [last])]
  rw [lastWord, List.reverse_append, List.takeWhile_append_of_pos visible, stops, List.append_nil, List.reverse_reverse]

/-- An identifier is its own last word. -/
theorem IsIdentifier.lastWord_eq (identifier : IsIdentifier name) : lastWord name = name :=
  identifier.lastWord_append [] (by simp)

/-- Identifiers are bound under their own names. -/
theorem map_lastWord (identifiers : ∀ name ∈ names, IsIdentifier name) : names.map lastWord = names :=
  (List.map_congr_left fun name member => (identifiers name member).lastWord_eq).trans (List.map_id names)

/-! ## Adding names to a line -/

/-- The end of a line that is taken away depends on what stands behind its last brace. -/
theorem withoutEnd_brace (front rest : List Char) :
    withoutEnd (front ++ '\x7d' :: rest) = front ++ withoutEnd ('\x7d' :: rest) :=
  trimRightWhere_append_of_mem List.mem_cons_self rfl

/-- Names without line ends that are added to a line leave the lines of a text apart, and the line as it is written. -/
theorem areCut_extended {list : NameList} (areCut : AreCut (before ++ line :: after))
    (read : NameList.read? source (withoutEnd line) = some list)
    (unbroken : ∀ name ∈ wanted, ∀ c ∈ name, isLineEnd c = false) :
    AreCut (before ++ ((list.extended wanted).written ++ endOf line) :: after)
      ∧ withoutEnd ((list.extended wanted).written ++ endOf line) = (list.extended wanted).written := by
  -- The line as it was and as it is are the same from the closing brace on.
  let start := list.lead ++ '\x7b' :: list.names
  let start' := list.lead ++ '\x7b' :: (list.extended wanted).names
  let tail := '\x7d' :: (list.tail ++ endOf line)
  have lineIs : withoutEnd line = start ++ '\x7d' :: list.tail := by
    rw [(NameList.read?_eq_some_iff.mp read).1]
    simp [NameList.written, start]
  have lineWhole : line = start ++ tail := by
    conv_lhs => rw [← withoutEnd_append_endOf line, lineIs]
    simp [tail]
  have newWhole : (list.extended wanted).written ++ endOf line = start' ++ tail := by
    simp [NameList.written, NameList.extended, start', tail]
  rw [newWhole]
  constructor
  · rw [lineWhole] at areCut
    have single : ∀ c ∈ start, isLineEnd c = false := areCut.unbroken (by decide)
    refine areCut.exchange (by simp [start']) single ?_
    simp only [start, start', List.forall_mem_append, List.forall_mem_cons] at single ⊢
    exact ⟨single.1, single.2.1, NameList.forall_mem_extended (by decide) (by decide) single.2.2 unbroken⟩
  · have same : withoutEnd tail = '\x7d' :: list.tail := by
      rw [lineWhole, withoutEnd_brace] at lineIs
      exact List.append_cancel_left lineIs
    rw [withoutEnd_brace, same]
    simp [NameList.written, NameList.extended, start']

/-- A line that lists names of a source is a statement before names are added to it and afterwards, and then it
imports besides the names that the list lacked. -/
theorem exists_readLine_extended {list : NameList} (listed : list.IsListOf source) (quotable : IsQuotable source)
    (identifiers : ∀ name ∈ wanted, IsIdentifier name) : ∃ statement longer : Statement,
      (∀ opened, readLine opened list.written = (none, [statement]))
        ∧ (∀ opened, readLine opened (list.extended wanted).written = (none, [longer]))
        ∧ longer.bindings = statement.bindings
          ++ (wanted.filter fun name => !list.present.contains name).map fun name => ⟨name, source⟩ := by
  have closing : '\x7d' ∉ (list.extended wanted).names :=
    NameList.notMem_extended (by decide) listed.closing
      fun name among inside => ((identifiers name among).plain _ inside).2.2.2 rfl
  obtain ⟨outside, written⟩ := exists_readLine_written listed quotable
  obtain ⟨statement, reads, binds⟩ := written list.names listed.closing
  obtain ⟨longer, reads', binds'⟩ := written (list.extended wanted).names closing
  refine ⟨statement, longer, reads, reads', ?_⟩
  have present : (list.extended wanted).present
      = list.present ++ wanted.filter fun name => !list.present.contains name :=
    NameList.present_extended fun name member => (identifiers name member).isName
  have missing : (wanted.filter fun name => !list.present.contains name).map lastWord
      = wanted.filter fun name => !list.present.contains name :=
    map_lastWord fun name member => identifiers name (List.mem_filter.mp member).1
  calc longer.bindings
      = (outside ++ (list.extended wanted).present.map lastWord).map fun name => ⟨name, source⟩ := binds'
    _ = ((outside ++ list.present.map lastWord)
          ++ wanted.filter fun name => !list.present.contains name).map fun name => ⟨name, source⟩ := by
        rw [present, List.map_append (f := lastWord), missing, ← List.append_assoc]
    _ = _ := by
        rw [List.map_append]
        exact congrArg (· ++ _) binds.symm

/-- A content imports besides what one of its lines imports besides. -/
theorem importedBy_exchange {line' : List Char} {statement longer : Statement} {more : List Binding}
    (reads : ∀ opened, readLine opened line = (none, [statement]))
    (reads' : ∀ opened, readLine opened line' = (none, [longer])) (binds : longer.bindings = statement.bindings ++ more)
    (before after : List (List Char)) :
    (importedBy (before ++ line' :: after)).Perm (importedBy (before ++ line :: after) ++ more) := by
  simp only [importedBy, statements_append, statements, reads, reads', List.flatMap_append, List.flatMap_singleton,
    binds, List.append_assoc]
  exact (List.perm_append_comm.append_left _).append_left _

/-- A content in which names are added to a list imports what it did and the names that the list lacked. -/
theorem imported_extended {content : List Char} {changed : List (List Char)} (quotable : IsQuotable source)
    (identifiers : ∀ name ∈ wanted, IsIdentifier name)
    (done : extendFirst? source wanted (linesWithEnds content) = some changed) :
    ∃ list, firstList? source content = some list ∧ (imported changed.flatten).Perm (imported content
      ++ (wanted.filter fun name => !list.present.contains name).map fun name => ⟨name, source⟩) := by
  obtain ⟨before, line, after, list, whole, unread, read, ended⟩ := exists_of_extendFirst? done
  obtain ⟨lineIs, listed⟩ := NameList.read?_eq_some_iff.mp read
  refine ⟨list, ?_, ?_⟩
  · rw [firstList?, whole, findSome?_append_cons, List.findSome?_eq_none_iff.mpr unread, read]
    rfl
  rcases ended with ⟨known, rfl⟩ | rfl
  · have nothing : (wanted.filter fun name => !list.present.contains name) = [] :=
      List.filter_eq_nil_iff.mpr fun name member => by simp [known name member]
    rw [nothing, flatten_linesWithEnds, List.map_nil, List.append_nil]
  · obtain ⟨areCut, newLine⟩ := areCut_extended (whole ▸ areCut_linesWithEnds content) read
      fun name among => (identifiers name among).unbroken
    have oldLines : bodies content = before.map withoutEnd ++ list.written :: after.map withoutEnd := by
      rw [bodies, whole, List.map_append, List.map_cons, lineIs]
    have newLines : bodies (before ++ ((list.extended wanted).written ++ endOf line) :: after).flatten
        = before.map withoutEnd ++ (list.extended wanted).written :: after.map withoutEnd := by
      rw [bodies, areCut.linesWithEnds_flatten, List.map_append, List.map_cons, newLine]
    obtain ⟨statement, longer, reads, reads', binds⟩ := exists_readLine_extended listed quotable identifiers
    rw [imported, newLines, imported, oldLines]
    exact importedBy_exchange reads reads' binds _ _

/-! ## New statements -/

/-- A statement that names a source behind its clause is read for itself. -/
theorem readLine_written (quotable : IsQuotable source) (clause : List Char) (opened : Option (List Char)) :
    readLine opened ("import ".toList ++ (clause ++ (" from '".toList ++ (source ++ "';".toList))))
      = (none, [⟨"import ".toList ++ (clause ++ [' ']), source⟩]) := by
  have blank : ∀ c ∈ [' '], isBlank c = true := List.forall_mem_singleton.mpr (by decide)
  have names : FromClause source ("from".toList ++ ([' '] ++ '\'' :: (source ++ ['\'']))) :=
    .intro (List.cons_ne_nil _ _) blank rfl rfl
  have matched : sourceClause.matchesAll ("from".toList ++ ([' '] ++ '\'' :: (source ++ ['\''])) ++ [';']) = true :=
    matchesAll_sourceClause_iff.mpr ⟨source, _, _, rfl, names, quotable.nonempty, quotable.plain, by decide⟩
  have parted : "import ".toList ++ (clause ++ (" from '".toList ++ (source ++ "';".toList)))
      = ("import ".toList ++ (clause ++ [' ']))
        ++ ("from".toList ++ ([' '] ++ '\'' :: (source ++ ['\''])) ++ [';']) := by simp
  rw [parted]
  refine readLine_of_cut ?_ ?_ opened
  · exact opens_of_blank (List.forall_mem_nil _) (by decide : isBlank ' ' = true) _
  · rw [cutSource?_append matched, names.namedSource_append quotable.plain]
    rw [← List.append_assoc, List.getLast?_concat]
    decide

/-- A part that binds an identifier. -/
theorem boundBy_single {part : List Char} (identifier : IsIdentifier name) (whole : ',' ∉ part)
    (front : List Char) (trimmed : trim part = front ++ name)
    (apart : ∀ c, front.getLast? = some c → isBlank c = true) : boundBy (splitAtChar ',' part) = [name] := by
  have shown : (front ++ name).isEmpty = false :=
    List.isEmpty_eq_false_iff.mpr (List.append_ne_nil_of_right_ne_nil front identifier.nonempty)
  rw [splitAtChar_of_notMem whole, boundBy, List.map_singleton, trimmed, List.filter_cons_of_pos (by rw [shown]; rfl),
    List.filter_nil, List.map_singleton, identifier.lastWord_append front apart]

/-- A line that is read for itself, and what it imports. -/
structure Imports (line : List Char) (bindings : List Binding) : Prop where
  unbroken : ∀ c ∈ line, isLineEnd c = false
  closed : (readLine none line).1 = none
  importedBy : importedBy [line] = bindings

/-- A statement in a line is read for itself. -/
theorem Imports.of_readLine {statement : Statement} (unbroken : ∀ c ∈ line, isLineEnd c = false)
    (reads : readLine none line = (none, [statement])) : Imports line statement.bindings where
  unbroken := unbroken
  closed := by rw [reads]
  importedBy := by
    rw [importedBy_cons_of_alone reads, List.flatMap_singleton]
    exact List.append_nil _

/-- A statement that names a source behind its clause is a line if the clause is in one. -/
theorem unbroken_written {clause : List Char} (single : ∀ c ∈ clause, isLineEnd c = false)
    (quotable : IsQuotable source) :
    ∀ c ∈ "import ".toList ++ (clause ++ (" from '".toList ++ (source ++ "';".toList))), isLineEnd c = false := by
  simp only [List.forall_mem_append]
  exact ⟨unbroken_of_all rfl, single, unbroken_of_all rfl, quotable.unbroken, unbroken_of_all rfl⟩

/-- A statement imports what its clause binds. -/
theorem imports_written (single : ∀ c ∈ clause, isLineEnd c = false) (quotable : IsQuotable source)
    (bound : Statement.names ⟨"import ".toList ++ (clause ++ [' ']), source⟩ = names) :
    Imports ("import ".toList ++ (clause ++ (" from '".toList ++ (source ++ "';".toList))))
      (names.map fun name => ⟨name, source⟩) := by
  have imports := Imports.of_readLine (unbroken_written single quotable) (readLine_written quotable clause none)
  rwa [Statement.bindings, bound] at imports

/-- A statement whose clause is an identifier behind a plain text binds it. -/
theorem imports_identifier (identifier : IsIdentifier name) (quotable : IsQuotable source)
    (plain : ∀ c ∈ front, isLineEnd c = false ∧ c ≠ ',' ∧ c ≠ '\x7b')
    (visible : ∀ c, front.head? = some c → isBlank c = false)
    (apart : ∀ c, front.getLast? = some c → isBlank c = true) :
    Imports ("import ".toList ++ ((front ++ name) ++ (" from '".toList ++ (source ++ "';".toList))))
      [⟨name, source⟩] := by
  have single : ∀ c ∈ front ++ name, isLineEnd c = false :=
    List.forall_mem_append.mpr ⟨fun c member => (plain c member).1, identifier.unbroken⟩
  have absent {d : Char} (space : ' ' ≠ d) (first : d ∉ front) (last : d ∉ name) :
      d ∉ ' ' :: ((front ++ name) ++ [' ']) := by
    simp [Ne.symm space, first, last]
  have comma := absent (by decide) (fun member => (plain _ member).2.1 rfl) identifier.isName.whole
  have brace := absent (by decide) (fun member => (plain _ member).2.2 rfl)
    fun member => (identifier.plain _ member).2.2.1 rfl
  have trimmed : trim (' ' :: ((front ++ name) ++ [' '])) = front ++ name := by
    refine (trim_spaces _).trans (trimWhere_eq_self (fun c first => ?_) fun c last => ?_)
    · cases start : front.head? with
      | none =>
          rw [List.head?_eq_none_iff.mp start, List.nil_append] at first
          exact (identifier.plain c (List.mem_of_head? first)).1
      | some d =>
          rw [List.head?_append, start, Option.some_or] at first
          exact visible c (start.trans first)
    · rw [List.getLast?_append_of_ne_nil front identifier.nonempty] at last
      exact (identifier.plain c (List.mem_of_getLast? last)).1
  have names := Statement.names_plain (List.forall_mem_nil _) brace source
  rw [boundBy_single identifier comma front trimmed apart] at names
  exact imports_written single quotable names

/-- A statement that imports a default export binds its name. -/
theorem imports_defaultStatement {name source : String} (identifier : IsIdentifier name.toList)
    (quotable : IsQuotable source.toList) :
    Imports (defaultStatement name source).toList [⟨name.toList, source.toList⟩] := by
  have whole : (defaultStatement name source).toList
      = "import ".toList ++ (([] ++ name.toList) ++ (" from '".toList ++ (source.toList ++ "';".toList))) := by
    simp [defaultStatement]
  rw [whole]
  exact imports_identifier identifier quotable (List.forall_mem_nil _) (by simp) (by simp)

/-- A statement that imports a source as a whole binds the name for it. -/
theorem imports_wholeStatement {name source : String} (identifier : IsIdentifier name.toList)
    (quotable : IsQuotable source.toList) :
    Imports (wholeStatement name source).toList [⟨name.toList, source.toList⟩] := by
  have whole : (wholeStatement name source).toList = "import ".toList
      ++ (("* as ".toList ++ name.toList) ++ (" from '".toList ++ (source.toList ++ "';".toList))) := by
    simp [wholeStatement]
  rw [whole]
  refine imports_identifier identifier quotable ?_ (fun c first => ?_) fun c last => ?_
  · simp only [String.reduceToList, List.forall_mem_cons, List.not_mem_nil, false_implies, implies_true, and_true]
    decide
  · obtain rfl := Option.some.inj first
    decide
  · obtain rfl := Option.some.inj last
    decide

/-- A statement that lists names binds them. -/
theorem imports_namedStatement {names : List String} {source : String}
    (identifiers : ∀ name ∈ names, IsIdentifier name.toList) (quotable : IsQuotable source.toList) :
    Imports (namedStatement names source).toList (names.map fun name => ⟨name.toList, source.toList⟩) := by
  have areNames : ∀ name ∈ names.map String.toList, IsIdentifier name := List.forall_mem_map.mpr identifiers
  have whole : (namedStatement names source).toList = "import ".toList
      ++ (('\x7b' :: (spaced (names.map String.toList) ++ ['\x7d']))
        ++ (" from '".toList ++ (source.toList ++ "';".toList))) := by
    rw [Request.written_list ⟨source, none, none, names⟩, Request.written_list_eq]
    simp only [List.append_assoc, List.cons_append, List.nil_append]
  have single : ∀ c ∈ '\x7b' :: (spaced (names.map String.toList) ++ ['\x7d']), isLineEnd c = false := by
    simp only [List.forall_mem_cons, List.forall_mem_append, List.not_mem_nil, false_implies, implies_true, and_true]
    exact ⟨rfl, forall_mem_spaced rfl rfl fun name among => (areNames name among).unbroken, rfl⟩
  have closing : '\x7d' ∉ spaced (names.map String.toList) :=
    notMem_spaced (by decide) fun name among inside => ((areNames name among).plain _ inside).2.2.2 rfl
  have inside : boundBy (splitAtChar ',' (spaced (names.map String.toList))) = names.map String.toList := by
    rw [boundBy, trimmed_spaced fun name member => (areNames name member).isName, map_lastWord areNames]
  have bound : Statement.names ⟨"import ".toList ++ ('\x7b' :: (spaced (names.map String.toList) ++ ['\x7d']) ++ [' ']),
      source.toList⟩ = names.map String.toList := by
    have text : "import ".toList ++ ('\x7b' :: (spaced (names.map String.toList) ++ ['\x7d']) ++ [' '])
        = [] ++ ("import".toList ++ ([' '] ++ '\x7b' :: (spaced (names.map String.toList) ++ '\x7d' :: [' ']))) := by
      simp
    rw [text, Statement.names_braced (List.forall_mem_nil _) (by decide) closing, inside]
    rfl
  have imports := imports_written single quotable bound
  rw [List.map_map] at imports
  rw [whole]
  exact imports

/-- A text that is cut before a source ends with a clause. -/
theorem exists_of_cutSource? {afterWord : Bool} {parts : List Char × List Char}
    (cut : cutSource? afterWord text = some parts) :
    ∃ clause, text = parts.1 ++ clause ∧ sourceClause.matchesAll clause = true := by
  induction text generalizing afterWord parts with
  | nil => cases cut
  | cons c text inductionHypothesis =>
      rw [cutSource?] at cut
      split at cut
      · next here =>
        obtain rfl := Option.some.inj cut
        exact ⟨c :: text, rfl, (Bool.and_eq_true_iff.mp here).2⟩
      · obtain ⟨later, found, rfl⟩ := Option.map_eq_some_iff.mp cut
        obtain ⟨clause, whole, matched⟩ := inductionHypothesis found
        exact ⟨clause, congrArg (c :: ·) whole, matched⟩

/-- A statement that only names a source, parted at its quotation mark. -/
theorem toList_bareStatement (source : String) :
    (bareStatement source).toList = "import ".toList ++ '\'' :: (source.toList ++ "';".toList) := by
  simp [bareStatement]

/-- A statement that only names a source cannot be cut: no word stands before its quotation marks. -/
theorem cutSource?_bareStatement {source : String} (quotable : IsQuotable source.toList) :
    cutSource? false (bareStatement source).toList = none := by
  rw [Option.eq_none_iff_forall_ne_some]
  intro parts cut
  obtain ⟨clause, parted, matched⟩ := exists_of_cutSource? cut
  have two : ((bareStatement source).toList.filter isQuote).length = 2 := by
    rw [toList_bareStatement, List.filter_append, List.filter_cons_of_pos rfl, List.filter_append,
      filter_of_silent quotable.plain]
    decide
  have before : (bareStatement source).toList.takeWhile (fun c => !isQuote c) = "import ".toList := by
    rw [toList_bareStatement, List.takeWhile_append_of_pos (List.all_eq_true.mp rfl),
      List.takeWhile_cons_of_neg (by decide), List.append_nil]
  rw [parted] at two before
  obtain ⟨gap, start⟩ := exists_of_append_sourceClause matched two
  rw [start] at before
  have letter : 'f' ∈ "import ".toList := by simp [← before]
  exact absurd letter (by decide)

/-- A statement that only names a source is complete. -/
theorem sideEffect_bareStatement {source : String} (quotable : IsQuotable source.toList) :
    sideEffect.matchesAll (trim (bareStatement source).toList) = true := by
  have trimmed : trim (bareStatement source).toList = (bareStatement source).toList := by
    refine trimWhere_eq_self (fun c first => ?_) fun c last => ?_
    · rw [toList_bareStatement] at first
      obtain rfl := Option.some.inj first
      decide
    · have ended : (bareStatement source).toList = ("import '".toList ++ (source.toList ++ ['\''])) ++ [';'] := by
        simp [bareStatement]
      rw [ended, List.getLast?_concat] at last
      obtain rfl := Option.some.inj last
      decide
  rw [trimmed, toList_bareStatement, Pattern.matchesAll_iff]
  simp only [sideEffect, quotedText, Pattern.mem_all_cons_iff, Pattern.mem_all_nil_iff, Pattern.mem_word_iff,
    Pattern.blanks, Pattern.mem_some_iff, Pattern.mem_one_iff]
  have blank : ∀ c ∈ [' '], isBlank c = true := List.forall_mem_singleton.mpr (by decide)
  exact ⟨_, rfl, _, ⟨[' '], by simp, blank, rfl⟩, [';'], ⟨_, ⟨'\'', rfl, rfl⟩, _,
    ⟨source.toList, quotable.nonempty, by simpa using quotable.plain, rfl⟩, _, ⟨'\'', rfl, rfl⟩, rfl⟩, _,
    by decide, rfl⟩

/-- A statement that only names a source imports nothing. -/
theorem imports_bareStatement {source : String} (quotable : IsQuotable source.toList) :
    Imports (bareStatement source).toList [] := by
  have starts : opens (bareStatement source).toList = true := by
    rw [toList_bareStatement]
    exact opens_of_blank (List.forall_mem_nil _) (by decide : isBlank ' ' = true) _
  have reads : readLine none (bareStatement source).toList = (none, []) := by
    rw [readLine, if_pos starts]
    simp only [cutSource?_bareStatement quotable, sideEffect_bareStatement quotable, if_pos]
  refine ⟨?_, by rw [reads], by rw [importedBy_cons_of_alone reads]; rfl⟩
  rw [toList_bareStatement]
  simp only [List.forall_mem_append, List.forall_mem_cons]
  exact ⟨unbroken_of_all rfl, rfl, quotable.unbroken, unbroken_of_all rfl⟩

end Scaffold.ImportAdd
