import Scaffold.Proofs.Merge.EnvLines

/-!
# Declaring one variable

A variable is declared by merging a block: a comment, and below it the name, an equals sign and the
content.  What the block adds to a text depends on how it reads line by line.  It declares the variable and
nothing else exactly if its entry lines do (`declaresOnly_merged_iff`), which they do if the name can be read
back and the content and the comment stay on their lines (`isSole_block`).
-/

namespace Scaffold.EnvLines

open Scaffold.Text

/-- The entry lines of a text. -/
def entries (text : List Char) : List (List Char) := (Text.lines text).filter isEntry

/-- What was declared before is declared after, in the same lines, and one variable besides. -/
structure DeclaresOnly (name line before after : List Char) : Prop where
  keys : ∀ key, key ∈ EnvLines.keys after ↔ key ∈ EnvLines.keys before ∨ key = name
  known : name ∈ EnvLines.keys before → after = before
  fresh : name ∉ EnvLines.keys before → entries after = entries before ++ [line]

/-- Beyond what is known, a block declares one variable, and in one way. -/
structure IsSole (known : List (List Char)) (name line block : List Char) : Prop where
  covered : ∀ entry ∈ entries block, keyOf entry ∈ known ∨ keyOf entry = name
  first : name ∉ known →
    ((entries block).map trimRight).find? (fun entry => keyOf entry == name) = some line

variable {known : List (List Char)} {existing block name line content comment text : List Char}

/-- A key is defined by an entry line. -/
theorem mem_keys_iff {key : List Char} : key ∈ keys text ↔ ∃ entry ∈ entries text, keyOf entry = key :=
  List.mem_map

/-- If a block declares one variable that is not known, the first of its lines is new and no other. -/
theorem newEntries_of_covered (covered : ∀ entry ∈ entries block, keyOf entry ∈ known ∨ keyOf entry = name)
    (unknown : name ∉ known) : newEntries known block
      = (((entries block).map trimRight).find? fun entry => keyOf entry == name).toList := by
  have same : (((entries block).map trimRight).filter fun entry => !known.contains (keyOf entry))
      = ((entries block).map trimRight).filter fun entry => keyOf entry == name := by
    refine List.filter_congr fun entry member => ?_
    obtain ⟨raw, inside, rfl⟩ := List.mem_map.mp member
    rw [keyOf_trimRight]
    rcases covered raw inside with isKnown | isName
    · have other : keyOf raw ≠ name := fun same => unknown (same ▸ isKnown)
      simp [isKnown, other]
    · simp [isName, unknown]
  have only : ∀ entry ∈ ((entries block).map trimRight).filter (fun entry => keyOf entry == name),
      keyOf entry = name := fun entry member => beq_iff_eq.mp (List.mem_filter.mp member).2
  rw [newEntries, ← entries, same, firstsBy_eq_head? only, List.head?_filter]

/-- A block that declares one variable declares it if it is not known. -/
theorem IsSole.mem_keys (sole : IsSole known name line block) (unknown : name ∉ known) :
    name ∈ keys block := by
  have found := sole.first unknown
  obtain ⟨raw, inside, rfl⟩ := List.mem_map.mp (List.mem_of_find?_eq_some found)
  have named := List.find?_some found
  rw [keyOf_trimRight, beq_iff_eq] at named
  exact mem_keys_iff.mpr ⟨raw, inside, named⟩

/-- A merge declares one variable and nothing else exactly if its block does, beyond the keys that the text
defines. -/
theorem declaresOnly_merged_iff :
    DeclaresOnly name line existing (merged existing block) ↔ IsSole (keys existing) name line block := by
  have appended : entries (merged existing block) = entries existing ++ newEntries (keys existing) block :=
    filter_lines_merged existing block
  constructor
  · intro declares
    have covered : ∀ entry ∈ entries block, keyOf entry ∈ keys existing ∨ keyOf entry = name :=
      fun entry member => (declares.keys _).mp
        (mem_keys_merged.mpr (.inr (mem_keys_iff.mpr ⟨entry, member, rfl⟩)))
    refine ⟨covered, fun unknown => ?_⟩
    have one : newEntries (keys existing) block = [line] :=
      List.append_cancel_left (appended.symm.trans (declares.fresh unknown))
    rw [newEntries_of_covered covered unknown] at one
    exact Option.toList_eq_singleton_iff.mp one
  · intro sole
    have covered : ∀ key ∈ keys block, key ∈ keys existing ∨ key = name := by
      intro key member
      obtain ⟨entry, inside, rfl⟩ := mem_keys_iff.mp member
      exact sole.covered entry inside
    refine ⟨fun key => ?_, fun isKnown => ?_, fun unknown => ?_⟩
    · rw [mem_keys_merged]
      refine ⟨fun either => either.elim .inl (covered key), ?_⟩
      rintro (before | rfl)
      · exact .inl before
      by_cases isKnown : key ∈ keys existing
      · exact .inl isKnown
      · exact .inr (sole.mem_keys isKnown)
    · have nothing : merge? existing block = none := merge?_eq_none_iff.mpr fun key member =>
        (covered key member).elim id fun isName => isName ▸ isKnown
      rw [merged, nothing]
      rfl
    · rw [appended, newEntries_of_covered sole.covered unknown, sole.first unknown]
      rfl

/-! ## The names that can be declared -/

/-- A name that can be declared: it stays on one line and does not start a comment. -/
structure IsDeclarable (name : List Char) : Prop where
  unbroken : ∀ c ∈ name, isLineEnd c = false
  uncommented : name.head? ≠ some '#'

/-- Every key of a text can be declared. -/
theorem isDeclarable_of_mem_keys (member : name ∈ keys text) : IsDeclarable name := by
  obtain ⟨entry, inside, rfl⟩ := mem_keys_iff.mp member
  obtain ⟨isOne, entryLine⟩ := List.mem_filter.mp inside
  obtain ⟨lead, trail, split, blank, _⟩ :=
    exists_eq_append_trimWhere_append isBlank (entry.takeWhile (· != '='))
  have start : entry.takeWhile (· != '=') <+: entry := List.takeWhile_prefix _
  have inner : keyOf entry <:+: entry.takeWhile (· != '=') := infix_trim _
  refine ⟨fun c found => isLineEnd_of_mem_lines text entry isOne c
    (start.subset (inner.subset found)), fun sharp => ?_⟩
  obtain ⟨rest, whole⟩ : ∃ rest, entry = lead ++ '#' :: rest := by
    obtain ⟨more, keyed⟩ : ∃ more, keyOf entry = '#' :: more := List.head?_eq_some_iff.mp sharp
    obtain ⟨behind, joined⟩ := start
    rw [← trim, ← keyOf, keyed] at split
    refine ⟨more ++ trail ++ behind, ?_⟩
    rw [← joined, split]
    simp
  have first : (trim entry).head? = some '#' := by
    rw [whole]
    exact head?_trimWhere blank (by decide) rest
  simp [isEntry, isComment, first] at entryLine

/-! ## The block of a variable -/

/-- The line that a variable is to be declared with. -/
def lineOf (name content : List Char) : List Char := trimRight (name ++ '=' :: content)

/-- The text that a variable is declared with: a comment of lines of its own, and the line of the variable. -/
def blockOf (comment name content : List Char) : List Char := comment ++ (name ++ '=' :: content) ++ ['\n']

/-- A text without line ends in front of blanks is the visible part of one line, and the others are
blank. -/
theorem lines_append_of_blank {blanks : List Char} (plain : ∀ c ∈ line, isLineEnd c = false)
    (nonempty : blanks ≠ []) (blank : blanks.all isBlank = true) :
    ∃ first rest, Text.lines (line ++ blanks) = (line ++ first) :: rest ∧ first.all isBlank = true
      ∧ ∀ other ∈ rest, isAllBlank other = true := by
  induction line with
  | nil =>
      obtain ⟨first, rest, cut⟩ := List.exists_cons_of_ne_nil (lines_ne_nil nonempty)
      have all : ∀ other ∈ first :: rest, isAllBlank other = true := by
        intro other member
        refine List.all_eq_true.mpr fun c inside => ?_
        rw [← cut] at member
        exact List.all_eq_true.mp blank c (mem_of_mem_lines blanks other member c inside)
      exact ⟨first, rest, cut, all first (by simp), fun other member => all other (by simp [member])⟩
  | cons c line inductionHypothesis =>
      obtain ⟨first, rest, cut, both⟩ :=
        inductionHypothesis fun other member => plain other (List.mem_cons_of_mem _ member)
      refine ⟨first, rest, ?_, both⟩
      rw [List.cons_append, lines_plain (plain c (by simp)), cut]
      rfl

/-- The part of a line in front of its first equals sign is its key. -/
theorem keyOf_of_bare (bare : trim name = name) (unsigned : '=' ∉ name) (rest : List Char) :
    keyOf (name ++ '=' :: rest) = name := by
  have before : ∀ c ∈ name, (c != '=') = true := by
    intro c member
    simp only [bne_iff_ne]
    rintro rfl
    exact unsigned member
  rw [keyOf, List.takeWhile_append_of_pos before, List.takeWhile_cons_of_neg (by simp), List.append_nil,
    bare]

/-- A line that starts with a name that can be declared is an entry line. -/
theorem isEntry_of_bare (declarable : IsDeclarable name) (bare : trim name = name) (nonempty : name ≠ [])
    (rest : List Char) : isEntry (name ++ rest) = true := by
  obtain ⟨c, more, rfl⟩ := List.exists_cons_of_ne_nil nonempty
  have start : (trim (c :: more)).head? = some c := by
    rw [bare]
    rfl
  have visible : isBlank c = false := notDropped_of_head? start
  have head : (trim ([] ++ c :: (more ++ rest))).head? = some c := head?_trimWhere rfl visible _
  rw [List.nil_append] at head
  have noComment : c ≠ '#' := fun same => declarable.uncommented (congrArg some same)
  simp [isEntry, isComment, head, isAllBlank, visible, noComment]

/-- A block declares its variable and nothing else, whatever is known, if the name can be declared and stands
for itself, the content ends on its line, and the comment has no entry lines. -/
theorem isSole_block (declarable : IsDeclarable name) (bare : trim name = name) (nonempty : name ≠ [])
    (unsigned : '=' ∉ name) (unbroken : ∀ c ∈ trimRight content, isLineEnd c = false)
    (complete : completed comment = comment) (remarks : entries comment = []) :
    IsSole known name (lineOf name content) (blockOf comment name content) := by
  obtain ⟨blanks, split, blank⟩ := exists_eq_trimRightWhere_append isBlank content
  rw [← trimRight] at split
  generalize trimRight content = shown at split unbroken
  subst split
  have plain : ∀ c ∈ name ++ '=' :: shown, isLineEnd c = false := by
    simp only [List.forall_mem_append, List.forall_mem_cons]
    exact ⟨declarable.unbroken, by decide, unbroken⟩
  have behind : (blanks ++ ['\n']).all isBlank = true := by
    rw [List.all_append, blank]
    rfl
  obtain ⟨first, rest, cut, blankFirst, blankRest⟩ := lines_append_of_blank plain (by simp) behind
  have isOne : isEntry (name ++ '=' :: shown ++ first) = true := by
    rw [List.append_assoc]
    exact isEntry_of_bare declarable bare nonempty _
  have noOther : rest.filter isEntry = [] := by
    rw [List.filter_eq_nil_iff]
    intro other member
    simp [isEntry, blankRest other member]
  have only : entries (blockOf comment name (shown ++ blanks)) = [name ++ '=' :: shown ++ first] := by
    have whole : blockOf comment name (shown ++ blanks)
        = completed comment ++ (name ++ '=' :: shown ++ (blanks ++ ['\n'])) := by
      simp [blockOf, complete]
    rw [entries, whole, lines_completed_append, complete, List.filter_append, ← entries, remarks, cut,
      List.nil_append, List.filter_cons_of_pos isOne, noOther]
  have named : keyOf (name ++ '=' :: shown ++ first) = name := by
    rw [List.append_assoc]
    exact keyOf_of_bare bare unsigned _
  have trimmed : trimRight (name ++ '=' :: shown ++ first) = lineOf name (shown ++ blanks) := by
    have same : name ++ '=' :: (shown ++ blanks) = name ++ '=' :: shown ++ blanks := by simp
    rw [lineOf, same, trimRight, trimRightWhere_append blankFirst, trimRight, trimRightWhere_append blank]
  refine ⟨fun entry member => ?_, fun _ => ?_⟩
  · rw [only, List.mem_singleton] at member
    exact .inr (member ▸ named)
  · rw [only, List.map_singleton, List.find?_cons_of_pos (by rw [keyOf_trimRight, named, beq_self_eq_true]),
      trimmed]

end Scaffold.EnvLines
