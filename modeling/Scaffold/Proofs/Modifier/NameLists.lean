import Scaffold.Modifier.ImportAdd
import Scaffold.Proofs.Text.Pattern
import Scaffold.Proofs.Text.Search
import Scaffold.Proofs.Text.Trimming

/-!
# Lines that list names

A line lists names of a source if it is put together from what stands before, between and behind its braces
(`NameList.read?_eq_some_iff`).  Names that are written into a line are read from it again
(`NameList.present_spaced`), and the line lists the same sources (`NameList.IsListOf.congr`).
-/

namespace Scaffold.ImportAdd

open Scaffold.Text ImportStatement

variable {source line : List Char} {list : NameList} {names wanted : List (List Char)}

/-- The line that a list stands in. -/
def NameList.written (list : NameList) : List Char :=
  list.lead ++ '\x7b' :: (list.names ++ '\x7d' :: list.tail)

/-- A list names a source: its first braces are those around the names. -/
structure NameList.IsListOf (source : List Char) (list : NameList) : Prop where
  opening : '\x7b' ∉ list.lead
  closing : '\x7d' ∉ list.names
  leads : leadPattern.matchesAll list.lead = true
  ends : (tailPattern source).matchesAll list.tail = true

/-- A line is read as the list that stands in it. -/
theorem NameList.read?_eq_some_iff :
    NameList.read? source line = some list ↔ line = list.written ∧ list.IsListOf source := by
  constructor
  · intro found
    unfold NameList.read? at found
    dsimp only at found
    split at found
    next => cases found
    next c inner opened =>
      split at found
      next => cases found
      next d tail closed =>
        split at found
        next matched =>
          obtain rfl := Option.some.inj found
          obtain ⟨leads, ends⟩ := Bool.and_eq_true_iff.mp matched
          obtain ⟨whole, opening⟩ := append_of_dropWhile opened
          obtain ⟨rest, closing⟩ := append_of_dropWhile closed
          exact ⟨by rw [NameList.written, ← rest, ← whole], opening, closing, leads, ends⟩
        next => cases found
  · rintro ⟨rfl, listed⟩
    unfold NameList.read? NameList.written
    simp only [takeWhile_of_notMem listed.opening, dropWhile_of_notMem listed.opening,
      takeWhile_of_notMem listed.closing, dropWhile_of_notMem listed.closing, listed.leads, listed.ends]
    rfl

/-- Other names between the braces are listed for the same sources. -/
theorem NameList.IsListOf.congr (listed : list.IsListOf source) {others : List Char}
    (closing : '\x7d' ∉ others) : NameList.IsListOf source { list with names := others } :=
  ⟨listed.opening, closing, listed.leads, listed.ends⟩

/-! ## Names between braces -/

/-- A name that is read back from a list: it has visible ends and no comma. -/
structure IsName (name : List Char) : Prop where
  nonempty : name ≠ []
  trimmed : trim name = name
  whole : ',' ∉ name

/-- Names as they are written between braces. -/
def spaced (names : List (List Char)) : List Char := ' ' :: (joinWith [',', ' '] names ++ [' '])

/-- The line with given names is the line of the list with these names. -/
theorem NameList.withNames_eq (list : NameList) (names : List (List Char)) :
    list.withNames names = NameList.written { list with names := spaced names } := by
  simp [NameList.withNames, NameList.written, spaced]

/-- Blanks around a text are trimmed away. -/
theorem trim_spaces (text : List Char) : trim (' ' :: (text ++ [' '])) = trim text := by
  have first : trim (' ' :: (text ++ [' '])) = trim (text ++ [' ']) := by
    rw [trim, trimWhere, trimLeftWhere, List.dropWhile_cons_of_pos (by decide)]
    rfl
  exact first.trans (trimWhere_append (by decide))

/-- A blank before a text is trimmed away. -/
theorem trim_space (text : List Char) : trim (' ' :: text) = trim text := by
  rw [trim, trimWhere, trimLeftWhere, List.dropWhile_cons_of_pos (by decide)]
  rfl

/-- Names that were written are read back. -/
theorem trimmed_spaced (areNames : ∀ name ∈ names, IsName name) :
    ((splitAtChar ',' (spaced names)).map trim).filter (fun name => !name.isEmpty) = names := by
  induction names with
  | nil => decide
  | cons name rest inductionHypothesis =>
      obtain ⟨isName, others⟩ := List.forall_mem_cons.mp areNames
      have absent : ',' ∉ ' ' :: name := by
        rw [List.mem_cons, not_or]
        exact ⟨by decide, isName.whole⟩
      have shown : name.isEmpty = false := List.isEmpty_eq_false_iff.mpr isName.nonempty
      by_cases last : rest = []
      · subst last
        have single : ',' ∉ spaced [name] := by
          simpa [spaced, joinWith] using isName.whole
        rw [splitAtChar_of_notMem single]
        simp [spaced, joinWith, trim_spaces, isName.trimmed, shown]
      · have parted : spaced (name :: rest) = ' ' :: name ++ ',' :: spaced rest := by
          simp [spaced, joinWith_cons last]
        rw [parted, splitAtChar_append absent, List.map_cons, trim_space, isName.trimmed,
          List.filter_cons_of_pos (by simp [shown]), inductionHypothesis others]

/-- What is read from a list are names, which bring no new character with them. -/
theorem NameList.isName_present {name : List Char} (member : name ∈ list.present) :
    IsName name ∧ ∀ c ∈ name, c ∈ list.names := by
  obtain ⟨pieces, shown⟩ := List.mem_filter.mp member
  obtain ⟨piece, among, rfl⟩ := List.mem_map.mp pieces
  have inside : ∀ c ∈ trim piece, c ∈ piece := fun c part => (infix_trim piece).subset part
  obtain ⟨whole, subset⟩ := mem_splitAtChar among
  refine ⟨⟨by simpa using shown, trim_trim piece, fun comma => whole (inside _ comma)⟩, fun c part => ?_⟩
  exact subset c (inside c part)

/-- A list with names that were written has them. -/
theorem NameList.present_spaced (areNames : ∀ name ∈ names, IsName name) :
    NameList.present { list with names := spaced names } = names :=
  trimmed_spaced areNames

/-- A part of a list with visible ends and no comma stays when names are added, and nothing that stood behind it
comes before it. -/
theorem NameList.exists_spaced {part before after : List Char} {c d : Char}
    (names : list.names = before ++ (part ++ after)) (whole : ',' ∉ part) (first : part.head? = some c)
    (firstShown : isBlank c = false) (last : part.getLast? = some d) (lastShown : isBlank d = false)
    (more : List (List Char)) :
    ∃ front back, spaced (list.present ++ more) = front ++ (part ++ back)
      ∧ ∀ e ∈ front, e = ' ' ∨ e = ',' ∨ e ∈ before := by
  obtain ⟨pieces, head, tail, others, split, fronts, heads⟩ := exists_splitAtChar whole before after
  obtain ⟨lead, trail, trimmed, short⟩ :=
    exists_trimWhere first firstShown last lastShown head tail
  have shown : (trim (head ++ (part ++ tail))).isEmpty = false := by
    obtain ⟨rest, same⟩ := List.head?_eq_some_iff.mp first
    rw [trim, trimmed, same]
    simp
  obtain ⟨kept, present, isTrimmed⟩ : ∃ kept,
    (∃ left, list.present ++ more = kept ++ (lead ++ (part ++ trail)) :: left)
      ∧ ∀ name ∈ kept, ∀ e ∈ name, e ∈ before := by
    refine ⟨(pieces.map trim).filter fun name => !name.isEmpty,
      ⟨(others.map trim).filter (fun name => !name.isEmpty) ++ more, ?_⟩, fun name member e inside => ?_⟩
    · rw [NameList.present, names, split, List.map_append, List.map_cons, List.filter_append,
        List.filter_cons_of_pos (by simp [shown]), trim, trimmed]
      simp
    · obtain ⟨piece, among, rfl⟩ := List.mem_map.mp (List.mem_filter.mp member).1
      exact fronts piece among e ((infix_trim piece).subset inside)
  obtain ⟨left, present⟩ := present
  obtain ⟨front, back, joined, inside⟩ := exists_joinWith [',', ' '] kept (lead ++ (part ++ trail)) left
  refine ⟨' ' :: (front ++ lead), trail ++ (back ++ [' ']), ?_, ?_⟩
  · rw [spaced, present, joined]
    simp
  · refine List.forall_mem_cons.mpr ⟨.inl rfl, fun e member => ?_⟩
    rcases List.mem_append.mp member with here | there
    · rcases inside e here with separator | ⟨name, among, within⟩
      · simp only [List.mem_cons, List.not_mem_nil, or_false] at separator
        exact separator.symm.imp_right .inl
      · exact .inr (.inr (isTrimmed name among e within))
    · exact .inr (.inr (heads e (short.subset there)))

/-! ## Adding names -/

/-- The line in which missing names are added to a list. -/
def NameList.extended (list : NameList) (wanted : List (List Char)) : NameList :=
  { list with names := spaced (list.present ++ wanted.filter fun name => !list.present.contains name) }

section Kept

variable {P : Char → Prop} (space : P ' ') (comma : P ',')

include space comma

/-- What holds of blanks, commas and the characters of names holds of the names as they are written. -/
theorem forall_mem_spaced (inside : ∀ name ∈ names, ∀ c ∈ name, P c) : ∀ c ∈ spaced names, P c := by
  have separator : ∀ c ∈ [',', ' '], P c := by simp [comma, space]
  rw [spaced]
  refine List.forall_mem_cons.mpr ⟨space, List.forall_mem_append.mpr ⟨fun c member => ?_, by simpa using space⟩⟩
  rcases mem_joinWith member with apart | ⟨name, among, within⟩
  · exact separator c apart
  · exact inside name among c within

/-- What holds of blanks, commas, the characters of a list and those of wanted names holds of the extended list. -/
theorem NameList.forall_mem_extended (listed : ∀ c ∈ list.names, P c) (added : ∀ name ∈ wanted, ∀ c ∈ name, P c) :
    ∀ c ∈ (list.extended wanted).names, P c := by
  refine forall_mem_spaced space comma fun name member => ?_
  rcases List.mem_append.mp member with present | missing
  · exact fun c inside => listed c ((NameList.isName_present present).2 c inside)
  · exact added name (List.mem_filter.mp missing).1

end Kept

/-- A character that is no separator and in no name is not in the names as they are written. -/
theorem notMem_spaced {d : Char} (shown : ' ' ≠ d ∧ ',' ≠ d) (absent : ∀ name ∈ names, d ∉ name) : d ∉ spaced names :=
  List.forall_mem_ne'.mp
    (forall_mem_spaced shown.1 shown.2 fun name member => List.forall_mem_ne'.mpr (absent name member))

/-- A character that is no separator and in no name is not in an extended list if it is not in the list. -/
theorem NameList.notMem_extended {d : Char} (shown : ' ' ≠ d ∧ ',' ≠ d) (listed : d ∉ list.names)
    (absent : ∀ name ∈ wanted, d ∉ name) : d ∉ (list.extended wanted).names :=
  List.forall_mem_ne'.mp (NameList.forall_mem_extended shown.1 shown.2 (List.forall_mem_ne'.mpr listed)
    fun name member => List.forall_mem_ne'.mpr (absent name member))

section Showing

variable {accept : Char → Bool} (silent : ∀ c, isBlank c = true → accept c = false) (comma : accept ',' = false)

include silent comma

/-- Names as they are written show what the names show. -/
theorem filter_spaced (names : List (List Char)) :
    (spaced names).filter accept = names.flatMap (List.filter accept) := by
  have space : accept ' ' = false := silent ' ' (by decide)
  have separator : ∀ c ∈ [',', ' '], accept c = false := by simp [comma, space]
  rw [spaced, List.filter_cons_of_neg (by simp [space]), List.filter_append, filter_joinWith separator]
  simp [space]

/-- The names of a list show what it shows. -/
theorem NameList.flatMap_present (list : NameList) :
    list.present.flatMap (List.filter accept) = list.names.filter accept := by
  have shown : ∀ pieces : List (List Char),
      ((pieces.map trim).filter fun name => !name.isEmpty).flatMap (List.filter accept)
        = pieces.flatMap (List.filter accept) := by
    intro pieces
    induction pieces with
    | nil => rfl
    | cons piece rest inductionHypothesis =>
        rw [List.map_cons, List.flatMap_cons, ← filter_trim silent piece, ← inductionHypothesis]
        cases trim piece <;> rfl
  rw [NameList.present, shown, ← filter_joinWith (List.forall_mem_singleton.mpr comma : ∀ c ∈ [','], accept c = false),
    joinWith_splitAtChar]

/-- An extended list shows what the list and the missing names show. -/
theorem NameList.filter_extended (list : NameList) (wanted : List (List Char)) :
    (list.extended wanted).names.filter accept = list.names.filter accept
      ++ (wanted.filter fun name => !list.present.contains name).flatMap (List.filter accept) := by
  rw [NameList.extended, filter_spaced silent comma, List.flatMap_append, NameList.flatMap_present silent comma]

end Showing

/-- Names are added to the first line that lists names of the source, unless it has them. -/
theorem exists_of_extendFirst? {lines changed : List (List Char)}
    (found : extendFirst? source wanted lines = some changed) :
    ∃ before line after list, lines = before ++ line :: after
      ∧ (∀ other ∈ before, NameList.read? source (withoutEnd other) = none)
      ∧ NameList.read? source (withoutEnd line) = some list
      ∧ ((∀ name ∈ wanted, name ∈ list.present) ∧ changed = lines
        ∨ changed = before ++ ((list.extended wanted).written ++ endOf line) :: after) := by
  induction lines generalizing changed with
  | nil => cases found
  | cons line rest inductionHypothesis =>
      rw [extendFirst?] at found
      split at found
      next unread =>
        obtain ⟨later, extended, rfl⟩ := Option.map_eq_some_iff.mp found
        obtain ⟨before, line', after, list, rfl, others, read, ended⟩ := inductionHypothesis extended
        refine ⟨line :: before, line', after, list, rfl, List.forall_mem_cons.mpr ⟨unread, others⟩, read, ?_⟩
        exact ended.imp (.imp_right (congrArg (line :: ·))) (congrArg (line :: ·))
      next list read =>
        refine ⟨[], line, rest, list, rfl, by simp, read, ?_⟩
        dsimp only at found
        split at found
        next nothing =>
          refine .inl ⟨fun name member => ?_, (Option.some.inj found).symm⟩
          by_contra unknown
          have missing : name ∈ wanted.filter fun name => !list.present.contains name :=
            List.mem_filter.mpr ⟨member, by simpa using unknown⟩
          rw [List.isEmpty_iff.mp nothing] at missing
          cases missing
        next =>
          refine .inr ?_
          rw [← Option.some.inj found, NameList.withNames_eq]
          rfl

/-- No name is added if the first list has all of them. -/
theorem extendFirst?_of_present {lines : List (List Char)}
    (found : (lines.findSome? fun line => NameList.read? source (withoutEnd line)) = some list)
    (known : ∀ name ∈ wanted, name ∈ list.present) : extendFirst? source wanted lines = some lines := by
  induction lines with
  | nil => cases found
  | cons line rest inductionHypothesis =>
      rw [List.findSome?_cons] at found
      rw [extendFirst?]
      split
      next unread =>
        rw [unread] at found
        rw [inductionHypothesis found]
        rfl
      next first read =>
        rw [read] at found
        obtain rfl := Option.some.inj found
        have nothing : (wanted.filter fun name => !first.present.contains name) = [] := by
          rw [List.filter_eq_nil_iff]
          intro name member
          simp [known name member]
        simp only [nothing, List.isEmpty_nil, ↓reduceIte]

/-- Names are added nowhere if no line lists names of the source. -/
theorem extendFirst?_eq_none_iff {lines : List (List Char)} : extendFirst? source wanted lines = none
    ↔ ∀ line ∈ lines, NameList.read? source (withoutEnd line) = none := by
  induction lines with
  | nil => simp [extendFirst?]
  | cons line rest inductionHypothesis =>
      rw [extendFirst?, List.forall_mem_cons, ← inductionHypothesis]
      split
      next unread => simp [unread]
      next list read =>
        dsimp only
        split <;> simp [read]

end Scaffold.ImportAdd
