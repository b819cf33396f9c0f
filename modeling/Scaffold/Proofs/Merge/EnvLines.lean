import Scaffold.Merge.Lines
import Scaffold.Proofs.Repetition
import Scaffold.Proofs.Text.Lines
import Scaffold.Proofs.Text.Trimming

/-!
# What merging environment files declares

A `Declaration` is an entry line with the comment lines directly above it.  Merging appends the new
declarations of the incoming text and nothing else (`merge?_eq`); since the lines that were appended are
read back as they were written, their keys are defined from then on (`keys_merged`).
-/

namespace Scaffold.EnvLines

open Scaffold.Text

/-! ## Lines and their trimmed forms -/

/-- A line is a comment exactly if it is one without its blank end. -/
@[simp] theorem isComment_trimRight (line : List Char) : isComment (trimRight line) = isComment line := by
  simp [isComment]

/-- A line is an entry exactly if it is one without its blank end. -/
@[simp] theorem isEntry_trimRight (line : List Char) : isEntry (trimRight line) = isEntry line := by
  simp [isEntry]

/-- A blank end of a line belongs to no key. -/
@[simp] theorem keyOf_trimRight (line : List Char) : keyOf (trimRight line) = keyOf line := by
  obtain ⟨dropped, split, blank⟩ := exists_eq_trimRightWhere_append isBlank line
  have noSign : ∀ c ∈ dropped, (c != '=') = true := by
    intro c member
    have isBlankChar : isBlank c = true := List.all_eq_true.mp blank c member
    simp only [bne_iff_ne]
    rintro rfl
    exact absurd isBlankChar (by decide)
  have whole : keyOf line = keyOf (trimRight line ++ dropped) := congrArg keyOf split
  rw [whole]
  unfold keyOf
  rw [List.takeWhile_append]
  split
  · rename_i reached
    rw [List.takeWhile_eq_self_iff.mpr noSign]
    have all := (List.takeWhile_prefix (p := fun c => c != '=') (l := trimRight line)).eq_of_length reached
    rw [all]
    exact (trimWhere_append blank).symm
  · rfl

/-! ## Declarations -/

/-- An entry line and the comment lines directly above it. -/
structure Declaration where
  comments : List (List Char)
  entry : List Char

namespace Declaration

/-- The key that a declaration defines. -/
def key (declaration : Declaration) : List Char := keyOf declaration.entry

/-- The lines of a declaration in order. -/
def lines (declaration : Declaration) : List (List Char) := declaration.comments ++ [declaration.entry]

end Declaration

/-- The comment lines that some lines end with, without their blank ends. -/
def closingComments (above : List (List Char)) : List (List Char) :=
  (above.reverse.takeWhile isComment).reverse.map trimRight

/-- The declarations of lines that stand below others. -/
def declarationsBelow (above : List (List Char)) : List (List Char) → List Declaration
  | [] => []
  | line :: rest =>
    if isEntry line then
      ⟨closingComments above, trimRight line⟩ :: declarationsBelow (above ++ [line]) rest
    else declarationsBelow (above ++ [line]) rest

/-- The declarations whose keys are not known, of several with one key the first. -/
def newOnes (known : List (List Char)) (declarations : List Declaration) : List Declaration :=
  firstsBy Declaration.key (declarations.filter fun declaration => !known.contains declaration.key)

/-- The declarations of a text whose keys are not known, of several with one key the first. -/
def newDeclarations (known : List (List Char)) (text : List Char) : List Declaration :=
  newOnes known (declarationsBelow [] (Text.lines text))

/-- The entry lines of a text whose keys are not known, right-trimmed; of several with one key the
first. -/
def newEntries (known : List (List Char)) (text : List Char) : List (List Char) :=
  firstsBy keyOf
    ((((Text.lines text).filter isEntry).map trimRight).filter fun entry => !known.contains (keyOf entry))

/-- The comment lines grow by a comment line. -/
theorem closingComments_comment {line : List Char} (comment : isComment line = true)
    (above : List (List Char)) :
    closingComments (above ++ [line]) = closingComments above ++ [trimRight line] := by
  simp [closingComments, comment]

/-- The comment lines start again behind any other line. -/
theorem closingComments_other {line : List Char} (other : isComment line = false)
    (above : List (List Char)) : closingComments (above ++ [line]) = [] := by
  simp [closingComments, other]

/-- A blank line is no comment. -/
theorem isComment_of_isAllBlank {line : List Char} (blank : isAllBlank line = true) :
    isComment line = false := by
  have nothing : trim ([] ++ line) = trim [] := trimWhere_append blank
  rw [List.nil_append] at nothing
  simp [isComment, nothing]

/-- Of a known key nothing is new. -/
theorem newOnes_known {known : List (List Char)} {declaration : Declaration}
    (present : known.contains declaration.key = true) (rest : List Declaration) :
    newOnes known (declaration :: rest) = newOnes known rest := by
  unfold newOnes
  rw [List.filter_cons, present]
  rfl

/-- A new declaration makes its key known to the ones behind it. -/
theorem newOnes_new {known : List (List Char)} {declaration : Declaration}
    (absent : known.contains declaration.key = false) (rest : List Declaration) :
    newOnes known (declaration :: rest) = declaration :: newOnes (declaration.key :: known) rest := by
  unfold newOnes
  rw [List.filter_cons, absent, Bool.not_false, if_pos rfl, firstsBy_cons, List.filter_filter]
  simp only [List.contains_cons, Bool.not_or]

/-- A declaration has an entry line below comment lines. -/
theorem sorted_declarationsBelow (above rest : List (List Char)) :
    ∀ declaration ∈ declarationsBelow above rest, isEntry declaration.entry = true ∧
      ∀ line ∈ declaration.comments, isComment line = true := by
  induction rest generalizing above with
  | nil => simp [declarationsBelow]
  | cons line rest inductionHypothesis =>
      rw [declarationsBelow]
      split
      · rename_i entry
        intro declaration member
        rcases List.mem_cons.mp member with rfl | later
        · refine ⟨by simpa using entry, ?_⟩
          intro comment inside
          obtain ⟨raw, found, rfl⟩ := List.mem_map.mp inside
          rw [isComment_trimRight]
          exact List.mem_takeWhile_imp (List.mem_reverse.mp found)
        · exact inductionHypothesis _ declaration later
      · exact inductionHypothesis _

/-- The lines of a declaration are lines of the text without their blank ends. -/
theorem lines_declarationsBelow (above rest : List (List Char)) :
    ∀ declaration ∈ declarationsBelow above rest, ∀ line ∈ declaration.lines,
      ∃ raw ∈ above ++ rest, line = trimRight raw := by
  induction rest generalizing above with
  | nil => simp [declarationsBelow]
  | cons next rest inductionHypothesis =>
      have further := inductionHypothesis (above ++ [next])
      rw [List.append_assoc, List.singleton_append] at further
      rw [declarationsBelow]
      split
      · intro declaration member
        rcases List.mem_cons.mp member with rfl | later
        · intro line inside
          rcases List.mem_append.mp inside with comment | entry
          · obtain ⟨raw, found, rfl⟩ := List.mem_map.mp comment
            have standing : raw ∈ above.reverse :=
              (List.takeWhile_sublist isComment).subset (List.mem_reverse.mp found)
            exact ⟨raw, List.mem_append_left _ (List.mem_reverse.mp standing), rfl⟩
          · exact ⟨next, by simp, List.mem_singleton.mp entry⟩
        · exact further declaration later
      · exact further

/-- What is appended are the lines of the new declarations. -/
theorem additions_eq (known above rest : List (List Char)) :
    additions known (closingComments above) rest =
      (newOnes known (declarationsBelow above rest)).flatMap Declaration.lines := by
  induction rest generalizing known above with
  | nil => rfl
  | cons line rest inductionHypothesis =>
      have next := fun known => inductionHypothesis known (above ++ [line])
      simp only [additions, isAllBlank_trimRight, isComment_trimRight, keyOf_trimRight, declarationsBelow]
      by_cases blank : isAllBlank line = true
      · have comment := isComment_of_isAllBlank blank
        simp only [closingComments_other comment] at next
        simp [isEntry, blank, next]
      · by_cases comment : isComment line = true
        · simp only [closingComments_comment comment] at next
          simp [isEntry, blank, comment, next]
        · have entry : isEntry line = true := by simp [isEntry, blank, comment]
          simp only [closingComments_other (Bool.eq_false_iff.mpr comment)] at next
          rw [if_neg blank, if_neg comment, if_pos entry]
          have sameKey : Declaration.key ⟨closingComments above, trimRight line⟩ = keyOf line :=
            keyOf_trimRight line
          by_cases present : known.contains (keyOf line) = true
          · rw [if_pos present, newOnes_known (by rw [sameKey]; exact present), next]
          · rw [if_neg present, newOnes_new (by rw [sameKey]; exact Bool.eq_false_iff.mpr present),
              sameKey, List.flatMap_cons, next]
            simp [Declaration.lines]

/-- The entry lines of declarations are the entry lines of the text. -/
theorem map_entry_declarationsBelow (above rest : List (List Char)) :
    (declarationsBelow above rest).map Declaration.entry = (rest.filter isEntry).map trimRight := by
  induction rest generalizing above with
  | nil => rfl
  | cons line rest inductionHypothesis =>
      rw [declarationsBelow, List.filter_cons]
      split <;> simp [inductionHypothesis]

/-- The entry lines of the new declarations are the new entry lines. -/
theorem map_entry_newDeclarations (known : List (List Char)) (text : List Char) :
    (newDeclarations known text).map Declaration.entry = newEntries known text := by
  rw [newEntries, ← map_entry_declarationsBelow [], List.filter_map]
  exact map_firstsBy Declaration.entry _

/-! ## One merge -/

/-- The lines that a merge appends. -/
def addedLines (existing incoming : List Char) : List (List Char) :=
  (newDeclarations (keys existing) incoming).flatMap Declaration.lines

/-- The text after a merge, the text itself if there is nothing to append. -/
def merged (existing incoming : List Char) : List Char := (merge? existing incoming).getD existing

variable {existing incoming : List Char}

/-- A merge appends the lines of the new declarations, each on a line of its own. -/
theorem merge?_eq (existing incoming : List Char) :
    merge? existing incoming =
      if addedLines existing incoming = [] then none
      else some (completed existing
        ++ (addedLines existing incoming).flatMap fun line => line ++ ['\n']) := by
  have added : additions (keys existing) [] (Text.lines incoming) = addedLines existing incoming :=
    additions_eq (keys existing) [] (Text.lines incoming)
  unfold merge?
  rw [added]
  cases addedLines existing incoming <;> rfl

/-- Every line that is appended is a new entry line or a comment line. -/
theorem filter_addedLines (existing incoming : List Char) :
    (addedLines existing incoming).filter isEntry = newEntries (keys existing) incoming ∧
      ∀ line ∈ addedLines existing incoming, isEntry line = true ∨ isComment line = true := by
  have sorted : ∀ declaration ∈ newDeclarations (keys existing) incoming,
      isEntry declaration.entry = true ∧ ∀ line ∈ declaration.comments, isComment line = true := by
    intro declaration member
    have inside : declaration ∈ declarationsBelow [] (Text.lines incoming) :=
      (List.mem_filter.mp (mem_of_mem_firstsBy member)).1
    exact sorted_declarationsBelow [] _ declaration inside
  rw [← map_entry_newDeclarations]
  unfold addedLines
  generalize newDeclarations (keys existing) incoming = declarations at sorted
  induction declarations with
  | nil => simp
  | cons declaration rest inductionHypothesis =>
      obtain ⟨entry, comments⟩ := sorted declaration (by simp)
      obtain ⟨others, lines⟩ := inductionHypothesis fun other member =>
        sorted other (List.mem_cons_of_mem _ member)
      have noEntries : declaration.comments.filter isEntry = [] := by
        rw [List.filter_eq_nil_iff]
        intro line member
        simp [isEntry, comments line member]
      refine ⟨by simp [Declaration.lines, noEntries, entry, others], ?_⟩
      intro line member
      simp only [List.flatMap_cons, Declaration.lines, List.mem_append, List.mem_singleton] at member
      rcases member with (above | rfl) | later
      · exact .inr (comments line above)
      · exact .inl entry
      · exact lines line later

/-- What is appended is appended as lines: none of them holds a line end. -/
theorem isLineEnd_of_mem_addedLines (existing incoming : List Char) :
    ∀ line ∈ addedLines existing incoming, ∀ c ∈ line, isLineEnd c = false := by
  intro line member c inside
  obtain ⟨declaration, chosen, part⟩ := List.mem_flatMap.mp member
  have stands : declaration ∈ declarationsBelow [] (Text.lines incoming) :=
    (List.mem_filter.mp (mem_of_mem_firstsBy chosen)).1
  obtain ⟨raw, found, rfl⟩ := lines_declarationsBelow [] _ declaration stands line part
  exact isLineEnd_of_mem_lines incoming raw found c (mem_of_mem_trimRight inside)

/-- Completing the last line of a text leaves its entry lines as they are. -/
theorem filter_lines_append_newline (text : List Char) :
    (Text.lines (text ++ ['\n'])).filter isEntry = (Text.lines text).filter isEntry := by
  rcases lines_append_singleton text with same | longer
  · rw [same]
  · have blank : isEntry [] = false := by decide
    simp [longer, blank]

/-- Completing a text leaves its entry lines as they are. -/
theorem filter_lines_completed (text : List Char) :
    (Text.lines (completed text)).filter isEntry = (Text.lines text).filter isEntry := by
  unfold completed
  split
  · rfl
  · exact filter_lines_append_newline text

/-- A completed text is empty or ends in a line feed. -/
theorem completed_eq_nil_or (text : List Char) :
    completed text = [] ∨ ∃ start, completed text = start ++ ['\n'] := by
  unfold completed
  split
  · rename_i complete
    rcases Bool.or_eq_true _ _ ▸ complete with empty | ended
    · exact .inl (List.isEmpty_iff.mp empty)
    · exact .inr (List.getLast?_eq_some_iff.mp (beq_iff_eq.mp ended))
  · exact .inr ⟨text, rfl⟩

/-- A text stands in front of its completed form. -/
theorem prefix_completed (text : List Char) : text <+: completed text := by
  unfold completed
  split
  · exact List.prefix_refl text
  · exact List.prefix_append ..

/-- Completing a text brings nothing but a line feed into it. -/
theorem notMem_completed {c : Char} {text : List Char} (absent : c ∉ text) (other : c ≠ '\n') :
    c ∉ completed text := by
  unfold completed
  split <;> simp [absent, other]

/-- A merge brings no carriage return into a text. -/
theorem notMem_of_merge? {text : List Char} (absent : '\r' ∉ existing)
    (grows : merge? existing incoming = some text) : '\r' ∉ text := by
  rw [merge?_eq] at grows
  split at grows
  · cases grows
  · obtain rfl := Option.some.inj grows
    rw [List.mem_append, not_or]
    refine ⟨notMem_completed absent (by decide), fun inside => ?_⟩
    obtain ⟨line, added, member⟩ := List.mem_flatMap.mp inside
    rcases List.mem_append.mp member with part | last
    · have ended : isLineEnd '\r' = false := isLineEnd_of_mem_addedLines existing incoming line added _ part
      exact absurd ended (by decide)
    · exact absurd last (by decide)

/-- A text that was completed is complete. -/
theorem completed_of_getLast? {text : List Char} (ended : text.getLast? = some '\n') :
    completed text = text := by
  simp [completed, ended]

/-- A completed text is cut into lines independently of what is appended to it. -/
theorem lines_completed_append (text more : List Char) :
    Text.lines (completed text ++ more) = Text.lines (completed text) ++ Text.lines more := by
  rcases completed_eq_nil_or text with empty | ⟨start, whole⟩
  · rw [empty]
    rfl
  · rw [whole, List.append_assoc, List.singleton_append]
    exact lines_append_newline start more

/-- The lines that are appended are read back behind the lines of the text. -/
theorem lines_merged (existing incoming : List Char) :
    Text.lines (completed existing ++ (addedLines existing incoming).flatMap fun line => line ++ ['\n']) =
      Text.lines (completed existing) ++ addedLines existing incoming := by
  rw [lines_completed_append, lines_flatMap (isLineEnd_of_mem_addedLines existing incoming)]

/-- A merge appends the new entry lines to those that were there. -/
theorem filter_lines_merged (existing incoming : List Char) :
    (Text.lines (merged existing incoming)).filter isEntry =
      (Text.lines existing).filter isEntry ++ newEntries (keys existing) incoming := by
  unfold merged
  rw [merge?_eq]
  have entries := (filter_addedLines existing incoming).1
  split
  · rename_i nothing
    rw [nothing] at entries
    simp [← entries]
  · rw [Option.getD_some, lines_merged, List.filter_append, entries, filter_lines_completed]

/-- A merge defines the keys of the new entry lines, behind those that were defined before. -/
theorem keys_merged (existing incoming : List Char) :
    keys (merged existing incoming) =
      keys existing ++ (newEntries (keys existing) incoming).map keyOf := by
  rw [keys, filter_lines_merged, List.map_append]
  rfl

/-- The keys of the new entry lines are the keys of the incoming text that were not defined. -/
theorem mem_keys_newEntries {known : List (List Char)} {key : List Char} :
    key ∈ (newEntries known incoming).map keyOf ↔ key ∈ keys incoming ∧ key ∉ known := by
  unfold newEntries keys
  rw [mem_map_firstsBy]
  simp only [List.mem_map, List.mem_filter]
  constructor
  · rintro ⟨entry, ⟨⟨line, ⟨inside, isOne⟩, rfl⟩, absent⟩, rfl⟩
    exact ⟨⟨line, ⟨inside, isOne⟩, (keyOf_trimRight line).symm⟩, by simpa using absent⟩
  · rintro ⟨⟨line, ⟨inside, isOne⟩, rfl⟩, absent⟩
    exact ⟨trimRight line, ⟨⟨line, ⟨inside, isOne⟩, rfl⟩, by simpa using absent⟩, keyOf_trimRight line⟩

/-- Whatever a merge was given is defined afterwards, and nothing else but what was defined before. -/
theorem mem_keys_merged {key : List Char} :
    key ∈ keys (merged existing incoming) ↔ key ∈ keys existing ∨ key ∈ keys incoming := by
  rw [keys_merged, List.mem_append, mem_keys_newEntries]
  by_cases known : key ∈ keys existing <;> simp [known]

/-- There is nothing to append exactly if every key is defined. -/
theorem merge?_eq_none_iff :
    merge? existing incoming = none ↔ ∀ key ∈ keys incoming, key ∈ keys existing := by
  have nothing : addedLines existing incoming = [] ↔ newEntries (keys existing) incoming = [] := by
    rw [← map_entry_newDeclarations, List.map_eq_nil_iff]
    unfold addedLines
    cases newDeclarations (keys existing) incoming <;> simp [Declaration.lines]
  have entries : newEntries (keys existing) incoming = [] ↔
      (newEntries (keys existing) incoming).map keyOf = [] := List.map_eq_nil_iff.symm
  rw [merge?_eq]
  simp only [ite_eq_left_iff, reduceCtorEq, imp_false, not_not]
  rw [nothing, entries, List.eq_nil_iff_forall_not_mem]
  simp only [mem_keys_newEntries, not_and, not_not]

/-- A merge keeps the number of lines that define a key that was defined, and defines every other key of
the incoming text once. -/
theorem count_keys_merged (existing incoming : List Char) (key : List Char) :
    (keys (merged existing incoming)).count key =
      if key ∈ keys existing then (keys existing).count key
      else if key ∈ keys incoming then 1 else 0 := by
  have distinct : ((newEntries (keys existing) incoming).map keyOf).Nodup := nodup_map_firstsBy _
  rw [keys_merged, List.count_append]
  by_cases known : key ∈ keys existing
  · have absent : key ∉ (newEntries (keys existing) incoming).map keyOf := fun member =>
      (mem_keys_newEntries.mp member).2 known
    rw [if_pos known, List.count_eq_zero_of_not_mem absent, Nat.add_zero]
  · rw [if_neg known, List.count_eq_zero_of_not_mem known, Nat.zero_add, distinct.count]
    simp [mem_keys_newEntries, known]

/-! ## Merging several texts -/

/-- The text after several texts were merged into it in order. -/
def mergedAll (existing : List Char) (incomings : List (List Char)) : List Char :=
  incomings.foldl merged existing

variable {incomings : List (List Char)}

/-- Several merges define the keys of all their texts. -/
theorem mem_keys_mergedAll {key : List Char} :
    key ∈ keys (mergedAll existing incomings) ↔
      key ∈ keys existing ∨ ∃ incoming ∈ incomings, key ∈ keys incoming := by
  induction incomings generalizing existing with
  | nil => simp [mergedAll]
  | cons first rest inductionHypothesis =>
      have later : mergedAll existing (first :: rest) = mergedAll (merged existing first) rest := rfl
      rw [later, inductionHypothesis, mem_keys_merged]
      simp [or_assoc]

/-- Of a key that no text defined before, several merges define one line. -/
theorem count_keys_mergedAll (existing : List Char) (incomings : List (List Char)) (key : List Char) :
    (keys (mergedAll existing incomings)).count key =
      if key ∈ keys existing then (keys existing).count key
      else if ∃ incoming ∈ incomings, key ∈ keys incoming then 1 else 0 := by
  induction incomings generalizing existing with
  | nil =>
      by_cases known : key ∈ keys existing
      · simp [mergedAll, known]
      · simp [mergedAll, known, List.count_eq_zero_of_not_mem]
  | cons first rest inductionHypothesis =>
      have later : mergedAll existing (first :: rest) = mergedAll (merged existing first) rest := rfl
      rw [later, inductionHypothesis, count_keys_merged]
      simp only [mem_keys_merged]
      by_cases known : key ∈ keys existing
      · simp [known]
      · by_cases given : key ∈ keys first
        · simp [known, given]
        · simp [known, given]

/-- What is merged into a text stands behind it, on lines of its own. -/
theorem mergedAll_extends (existing : List Char) (incomings : List (List Char)) :
    mergedAll existing incomings = existing ∨ completed existing <+: mergedAll existing incomings := by
  induction incomings generalizing existing with
  | nil => exact .inl rfl
  | cons first rest inductionHypothesis =>
      have later : mergedAll existing (first :: rest) = mergedAll (merged existing first) rest := rfl
      rw [later]
      unfold merged
      rw [merge?_eq]
      split
      · exact inductionHypothesis existing
      · rename_i something
        rw [Option.getD_some]
        generalize grown : (addedLines existing first).flatMap (fun line => line ++ ['\n']) = tail
        have ended : (completed existing ++ tail).getLast? = some '\n' := by
          rw [← List.dropLast_concat_getLast something, List.flatMap_append] at grown
          simp [← grown]
        have extended : completed existing <+: completed existing ++ tail := List.prefix_append _ _
        rcases inductionHypothesis (completed existing ++ tail) with same | further
        · rw [same]
          exact .inr extended
        · rw [completed_of_getLast? ended] at further
          exact .inr (extended.trans further)

/-- Texts that are merged one after another.  The text as it was stands in front, at most completed by a
line feed.  Every merge appends the new declarations of its text: its new entry lines, right-trimmed, each
below the comment lines directly above it, and no other line.  A key that was not defined before is
defined on one line, and merging any of the texts again appends nothing. -/
theorem mergedAll_declares (existing : List Char) (incomings : List (List Char)) :
    (mergedAll existing incomings = existing ∨ completed existing <+: mergedAll existing incomings) ∧
      (∀ before incoming after, incomings = before ++ incoming :: after →
        let text := mergedAll existing before
        let added := addedLines text incoming
        merge? text incoming =
            (if added = [] then none
              else some (completed text ++ added.flatMap fun line => line ++ ['\n'])) ∧
          Text.lines (completed text ++ added.flatMap fun line => line ++ ['\n']) =
            Text.lines (completed text) ++ added ∧
          added.filter isEntry = newEntries (keys text) incoming ∧
          ∀ line ∈ added, isEntry line = true ∨ isComment line = true) ∧
      (∀ key ∉ keys existing, (∃ incoming ∈ incomings, key ∈ keys incoming) →
        (keys (mergedAll existing incomings)).count key = 1) ∧
      ∀ incoming ∈ incomings, merge? (mergedAll existing incomings) incoming = none := by
  refine ⟨mergedAll_extends existing incomings, ?_, ?_, ?_⟩
  · intro before incoming after _ text added
    obtain ⟨entries, kinds⟩ := filter_addedLines text incoming
    exact ⟨merge?_eq text incoming, lines_merged text incoming, entries, kinds⟩
  · intro key unknown given
    rw [count_keys_mergedAll, if_neg unknown, if_pos given]
  · intro incoming member
    rw [merge?_eq_none_iff]
    intro key given
    exact mem_keys_mergedAll.mpr (.inr ⟨incoming, member, given⟩)

/-- Two texts that are merged into a text without a final line feed.  The comment above the repeated key
stays behind, and the blank end of the new line is dropped. -/
theorem mergedAll_declares_two :
    let existing := "A=1".toList
    let incomings := ["# old\nA=2\n\n# new\nB=3 \n".toList, "B=4\rC".toList]
    mergedAll existing incomings = "A=1\n# new\nB=3\nC\n".toList ∧
      (keys (mergedAll existing incomings)).count "B".toList = 1 ∧
      merge? (mergedAll existing incomings) "B=4\rC".toList = none := by
  intro existing incomings
  obtain ⟨_, _, once, settled⟩ := mergedAll_declares existing incomings
  have text : mergedAll existing incomings = "A=1\n# new\nB=3\nC\n".toList := by decide
  exact ⟨text, once "B".toList (by decide) (by decide), settled _ (by simp [incomings])⟩

end Scaffold.EnvLines
