import Scaffold.Proofs.Modifier.NameLists
import Scaffold.Proofs.Modifier.Placing

/-!
# Adding names to a line

When names are added to a line that lists some, everything that occurred in the content still occurs
(`Occurs.extended`, `Occurs.extended_default`): an import elsewhere is untouched, one that goes through the braces
goes on through the longer list, and a clause inside the braces stays in one piece of it.

A plain content stays plain (`extendFirst?_plain`).  Every line lists the same sources as before, and the first
list of each source keeps the names that it has (`Extends.longer`).
-/

namespace Scaffold.ImportAdd

open Scaffold.Text ImportStatement

/-- A name that can be listed: nothing in it ends the list, the statement or the line. -/
structure IsListable (name : List Char) : Prop where
  isName : IsName name
  plain : ∀ c ∈ name, c ≠ '\x7d' ∧ c ≠ ';' ∧ isLineEnd c = false

/-- A source that can be named: nothing in it ends the source or the line, or belongs to a list of names. -/
def IsNamable (source : List Char) : Prop :=
  ∀ c ∈ source, isQuote c = false ∧ isLineEnd c = false ∧ c ≠ ',' ∧ c ≠ '\x7b' ∧ c ≠ '\x7d'

variable {name source content written head tail before after left right : List Char}
  {form : List Char → Prop} {atLine : Bool} {list : NameList} {wanted : List (List Char)} {c : Char}

/-- A part of a text stands before a character, behind it, or has it inside. -/
theorem split_at (whole : left ++ c :: right = before ++ (written ++ after)) :
    (∃ between, left = before ++ (written ++ between) ∧ after = between ++ c :: right)
      ∨ (∃ between, before = left ++ c :: between ∧ right = between ++ (written ++ after))
      ∨ ∃ front back, written = front ++ c :: back ∧ left = before ++ front ∧ right = back ++ after := by
  rcases List.append_eq_append_iff.mp whole with ⟨between, beforeIs, onward⟩ | ⟨between, leftIs, onward⟩
  · cases between with
    | nil =>
        rw [List.append_nil] at beforeIs
        cases written with
        | nil => exact .inl ⟨[], by simp [beforeIs], by simpa using onward.symm⟩
        | cons d written =>
            obtain ⟨rfl, rightIs⟩ := List.cons.inj onward
            exact .inr (.inr ⟨[], written, rfl, by simp [beforeIs], rightIs⟩)
    | cons d between =>
        obtain ⟨rfl, rightIs⟩ := List.cons.inj onward
        exact .inr (.inl ⟨between, beforeIs, rightIs⟩)
  · rcases List.append_eq_append_iff.mp onward with ⟨more, betweenIs, afterIs⟩ | ⟨more, writtenIs, rightIs⟩
    · exact .inl ⟨more, by rw [leftIs, betweenIs], afterIs⟩
    · cases more with
      | nil =>
          rw [List.append_nil] at writtenIs
          exact .inl ⟨[], by rw [leftIs, writtenIs, List.append_nil], rightIs.symm⟩
      | cons d more =>
          obtain ⟨rfl, backIs⟩ := List.cons.inj rightIs
          exact .inr (.inr ⟨between, more, writtenIs, leftIs, backIs⟩)

/-- What starts at the start of a line behind the opening brace starts behind the closing one. -/
theorem behind_braces {names rest between : List Char} (single : '\n' ∉ names)
    (beforeIs : before = left ++ '\x7b' :: between) (line : before = [] ∨ before.getLast? = some '\n')
    (rightIs : names ++ '\x7d' :: tail = between ++ rest) :
    ∃ more, between = names ++ '\x7d' :: more ∧ tail = more ++ rest := by
  have last : before.getLast? = some '\n' := line.resolve_left (by simp [beforeIs])
  have single' (part : List Char) (short : ∀ d ∈ part, d ∈ names) : between ≠ part := by
    rintro rfl
    rw [beforeIs, List.getLast?_append, List.getLast?_cons, Option.some_or, Option.some.injEq] at last
    cases found : between.getLast? with
    | none => rw [found] at last; exact absurd last (by decide)
    | some d =>
        rw [found, Option.getD_some] at last
        rw [last] at found
        exact single (short '\n' (List.mem_of_getLast? found))
  rcases List.append_eq_append_iff.mp rightIs with ⟨more, betweenIs, onward⟩ | ⟨more, namesIs, _⟩
  · cases more with
    | nil => exact absurd (by simpa using betweenIs) (single' names fun _ member => member)
    | cons d more =>
        obtain ⟨rfl, tailIs⟩ := List.cons.inj onward
        exact ⟨more, betweenIs, tailIs⟩
  · refine absurd rfl (single' between fun d member => ?_)
    rw [namesIs]
    exact List.mem_append_left _ member

/-- A line that lists names, parted at its braces. -/
theorem NameList.written_append (list : NameList) (head tail : List Char) :
    head ++ (list.written ++ tail)
      = (head ++ list.lead) ++ '\x7b' :: (list.names ++ '\x7d' :: (list.tail ++ tail)) := by
  simp [NameList.written]

/-- Only what stands between the braces is changed when names are added. -/
theorem NameList.extended_append (list : NameList) (wanted : List (List Char)) (head tail : List Char) :
    head ++ ((list.extended wanted).written ++ tail)
      = (head ++ list.lead) ++ '\x7b' :: ((list.extended wanted).names ++ '\x7d' :: (list.tail ++ tail)) :=
  (list.extended wanted).written_append head tail

/-- What stands before the opening brace stays. -/
theorem Occurs.before_brace (isForm : form written)
    (line : atLine = true → before = [] ∨ before.getLast? = some '\n')
    {between : List Char} (leftIs : left = before ++ (written ++ between)) (right : List Char) :
    Occurs atLine form (left ++ right) :=
  ⟨before, written, between ++ right, by simp [leftIs], isForm, line⟩

/-- What stands behind the closing brace stays. -/
theorem Occurs.behind_brace (isForm : form written) {between names : List Char}
    (line : atLine = true → ('\x7d' :: between).getLast? = some '\n')
    (tailIs : tail = between ++ (written ++ after)) :
    Occurs atLine form (left ++ '\x7b' :: (names ++ '\x7d' :: tail)) := by
  refine ⟨left ++ '\x7b' :: (names ++ '\x7d' :: between), written, after, by simp [tailIs], isForm,
    fun must => .inr ?_⟩
  rw [List.getLast?_append, List.getLast?_cons, List.getLast?_append, line must]
  rfl

/-- The last character before a text that starts a line behind the closing brace. -/
theorem getLast?_behind {names between : List Char}
    (line : before = [] ∨ before.getLast? = some '\n')
    (beforeIs : before = left ++ '\x7b' :: (names ++ '\x7d' :: between)) :
    ('\x7d' :: between).getLast? = some '\n' := by
  have last := line.resolve_left (by simp [beforeIs])
  rw [beforeIs, List.getLast?_append, List.getLast?_cons, List.getLast?_append, List.getLast?_cons] at last
  simpa [List.getLast?_cons] using last

/-- A text at the start of a line still occurs when names are added if no list starts in it. -/
theorem Occurs.extended (opening : ∀ written, form written → '\x7b' ∉ written) (single : '\n' ∉ list.names)
    (occurs : Occurs true form (head ++ (list.written ++ tail))) (wanted : List (List Char)) :
    Occurs true form (head ++ ((list.extended wanted).written ++ tail)) := by
  obtain ⟨before, written, after, whole, isForm, line⟩ := occurs
  rw [NameList.written_append] at whole
  rw [NameList.extended_append]
  rcases split_at whole with ⟨between, leftIs, _⟩ | ⟨between, beforeIs, rightIs⟩ | ⟨front, back, writtenIs, _⟩
  · exact .before_brace isForm line leftIs _
  · obtain ⟨more, rfl, tailIs⟩ := behind_braces single beforeIs (line rfl) rightIs
    exact .behind_brace isForm (fun _ => getLast?_behind (line rfl) beforeIs) tailIs
  · refine absurd ?_ (opening written isForm)
    rw [writtenIs]
    exact List.mem_append_right _ List.mem_cons_self

/-- Blanks are none of the characters around names. -/
theorem notMem_of_blank {gap : List Char} (blank : ∀ c ∈ gap, isBlank c = true) {d : Char}
    (shown : isBlank d = false) : d ∉ gap := by
  intro member
  rw [blank d member] at shown
  cases shown

/-- A quoted source has none of the characters around names. -/
theorem notMem_quoted {opening closing d : Char} (opens : isQuote opening = true)
    (closes : isQuote closing = true)
    (plain : d ∉ source) (noQuote : isQuote d = false) : d ∉ opening :: (source ++ [closing]) := by
  simp only [List.mem_cons, List.mem_append, List.not_mem_nil, or_false, not_or]
  refine ⟨?_, plain, ?_⟩
  · rintro rfl
    rw [opens] at noQuote
    cases noQuote
  · rintro rfl
    rw [closes] at noQuote
    cases noQuote

/-- The characters around names are in no source that can be named. -/
theorem IsNamable.notMem (namable : IsNamable source) : '\x7b' ∉ source ∧ '\x7d' ∉ source ∧ ',' ∉ source :=
  ⟨fun member => (namable _ member).2.2.2.1 rfl, fun member => (namable _ member).2.2.2.2 rfl,
    fun member => (namable _ member).2.2.1 rfl⟩

/-- A clause has none of the characters around names. -/
theorem FromClause.notMem {clause : List Char} (names : FromClause source clause) {d : Char}
    (plain : d ∉ source)
    (shown : isBlank d = false) (noQuote : isQuote d = false) (other : d ∉ "from".toList) : d ∉ clause := by
  obtain ⟨_, blank, opens, closes⟩ := names
  simp only [List.mem_append, not_or]
  exact ⟨other, notMem_of_blank blank shown, notMem_quoted opens closes plain noQuote⟩

/-- A clause ends in a quotation mark. -/
theorem FromClause.exists_getLast? {clause : List Char} (names : FromClause source clause) :
    ∃ c, clause.getLast? = some c ∧ isBlank c = false := by
  obtain @⟨gap, opening, closing, _, _, _, closes⟩ := names
  have shown : isBlank closing = false := isBlank_of_isClosing (by simp [isClosing, closes])
  refine ⟨closing, ?_, shown⟩
  have whole : "from".toList ++ (gap ++ opening :: (source ++ [closing]))
      = ("from".toList ++ (gap ++ opening :: source)) ++ [closing] := by simp
  rw [whole, List.getLast?_concat]

/-- A clause still occurs when names are added. -/
theorem Occurs.extended_clause (namable : IsNamable source)
    (occurs : Occurs false (FromClause source) (head ++ (list.written ++ tail))) (wanted : List (List Char)) :
    Occurs false (FromClause source) (head ++ ((list.extended wanted).written ++ tail)) := by
  obtain ⟨before, written, after, whole, isForm, line⟩ := occurs
  obtain ⟨opening, closing, comma⟩ := namable.notMem
  replace opening := isForm.notMem opening (by decide) (by decide) (by decide)
  replace closing := isForm.notMem closing (by decide) (by decide) (by decide)
  replace comma := isForm.notMem comma (by decide) (by decide) (by decide)
  obtain ⟨first, startsWith⟩ := isForm.exists_cons
  obtain ⟨c, last, shown⟩ := isForm.exists_getLast?
  rw [NameList.written_append] at whole
  rw [NameList.extended_append]
  rcases split_at whole with ⟨between, leftIs, _⟩ | ⟨between, beforeIs, rightIs⟩ | ⟨front, back, writtenIs, _⟩
  · exact .before_brace isForm line leftIs _
  · rcases split_at rightIs with ⟨rest, namesIs, _⟩ | ⟨more, _, tailIs⟩ | ⟨front, back, writtenIs, _⟩
    · obtain ⟨front, back, added, _⟩ :=
        list.exists_spaced namesIs comma (by rw [startsWith]; rfl) (by decide) last shown
          (wanted.filter fun name => !list.present.contains name)
      have names : (list.extended wanted).names = front ++ (written ++ back) := added
      rw [names]
      exact ⟨head ++ list.lead ++ '\x7b' :: front, written, back ++ '\x7d' :: (list.tail ++ tail), by simp,
        isForm, nofun⟩
    · exact .behind_brace isForm nofun tailIs
    · exact absurd (by rw [writtenIs]; simp) closing
  · exact absurd (by rw [writtenIs]; simp) opening

/-- No list starts in an import that only names a source. -/
theorem BareImport.notMem (isForm : BareImport source written) (namable : IsNamable source) :
    '\x7b' ∉ written := by
  obtain ⟨leading, _, blank, opens, closes⟩ := isForm
  simp only [List.mem_append, not_or]
  exact ⟨notMem_of_blank leading (by decide), by decide, notMem_of_blank blank (by decide),
    notMem_quoted opens closes namable.notMem.1 (by decide)⟩

/-- No list starts in an import of a source as a whole. -/
theorem WholeImport.notMem (isForm : WholeImport name source written) (plain : '\x7b' ∉ name)
    (namable : IsNamable source) : '\x7b' ∉ written := by
  obtain ⟨leading, _, blank, names⟩ := isForm
  have clause := names.notMem namable.notMem.1 (by decide) (by decide) (by decide)
  have gaps := notMem_of_blank (d := '\x7b') blank (by decide)
  simp only [List.mem_append, not_or] at gaps ⊢
  exact ⟨notMem_of_blank leading (by decide), by decide, gaps.1.1.1, by decide, gaps.1.1.2, by decide, gaps.1.2,
    plain, gaps.2, clause⟩

/-- If a list starts in an import of a default export, it starts between its name and its clause, and what stands
there can be exchanged from the brace on. -/
theorem DefaultImport.exists_of_brace {front back : List Char} (isForm : DefaultImport name source written)
    (plain : '\x7b' ∉ name) (namable : IsNamable source) (writtenIs : written = front ++ '\x7b' :: back) :
    ∃ middle clause, back = middle ++ clause ∧ FromClause source clause ∧ (∀ c ∈ middle, c ≠ ';' ∧ c ≠ '\n')
      ∧ ∀ other : List Char, (∀ c ∈ other, c ≠ ';' ∧ c ≠ '\n') →
        DefaultImport name source (front ++ '\x7b' :: (other ++ clause)) := by
  obtain @⟨lead, gap, middle, clause, leading, apart, blank, ended, ongoing, names⟩ := isForm
  have start : '\x7b' ∉ lead ++ ("import".toList ++ (gap ++ name)) := by
    simp only [List.mem_append, not_or]
    exact ⟨notMem_of_blank leading (by decide), by decide, notMem_of_blank blank (by decide), plain⟩
  have clausePlain := names.notMem namable.notMem.1 (by decide) (by decide) (by decide)
  have grouped : front ++ '\x7b' :: back
      = [] ++ (lead ++ ("import".toList ++ (gap ++ name)) ++ (middle ++ clause)) := by
    rw [← writtenIs]
    simp
  rcases split_at grouped with ⟨between, frontIs, onward⟩ | ⟨_, impossible, _⟩ | ⟨_, _, inside, _⟩
  · have rest : between ++ '\x7b' :: back = [] ++ (middle ++ clause) := onward.symm
    rcases split_at rest with
      ⟨more, _, clauseIs⟩ | ⟨_, impossible, _⟩ | ⟨before, after, middleIs, betweenIs, backIs⟩
    · exact absurd (by rw [clauseIs]; simp) clausePlain
    · simp at impossible
    · obtain rfl : between = before := by simpa using betweenIs
      rw [middleIs] at ongoing ended
      simp only [List.forall_mem_append, List.forall_mem_cons] at ongoing
      refine ⟨after, clause, backIs, names, ongoing.2.2, fun other others => ?_⟩
      have whole : front ++ '\x7b' :: (other ++ clause)
          = lead ++ ("import".toList ++ (gap ++ (name ++ ((between ++ '\x7b' :: other) ++ clause)))) := by
        rw [frontIs]
        simp
      rw [whole]
      refine .intro leading apart blank ?_ ?_ names
      · have sameHead : ((between ++ '\x7b' :: other) ++ clause).head?
            = ((between ++ '\x7b' :: after) ++ clause).head? := by
          cases between <;> rfl
        rwa [sameHead]
      · simp only [List.forall_mem_append, List.forall_mem_cons]
        exact ⟨ongoing.1, ongoing.2.1, others⟩
  · simp at impossible
  · exact absurd (by rw [inside]; simp) start

/-- An import of a default export still occurs when names are added: it may go on through the braces, or end in a
clause that is written between them. -/
theorem Occurs.extended_default (plain : '\x7b' ∉ name) (namable : IsNamable source)
    (single : '\n' ∉ list.names)
    (listable : ∀ other ∈ wanted, IsListable other)
    (occurs : Occurs true (DefaultImport name source) (head ++ (list.written ++ tail))) :
    Occurs true (DefaultImport name source) (head ++ ((list.extended wanted).written ++ tail)) := by
  obtain ⟨before, written, after, whole, isForm, line⟩ := occurs
  rw [NameList.written_append] at whole
  rw [NameList.extended_append]
  rcases split_at whole with
    ⟨between, leftIs, _⟩ | ⟨between, beforeIs, rightIs⟩ | ⟨front, back, writtenIs, leftIs, rightIs⟩
  · exact .before_brace isForm line leftIs _
  · obtain ⟨more, rfl, tailIs⟩ := behind_braces single beforeIs (line rfl) rightIs
    exact .behind_brace isForm (fun _ => getLast?_behind (line rfl) beforeIs) tailIs
  obtain ⟨middle, clause, rfl, names, ongoing, exchange⟩ := isForm.exists_of_brace plain namable writtenIs
  rw [List.append_assoc] at rightIs
  rcases split_at rightIs with ⟨rest, namesIs, _⟩ | ⟨more, middleIs, tailIs⟩ | ⟨_, _, clauseIs, _⟩
  · -- The clause is written between the braces.
    obtain ⟨first, startsWith⟩ := names.exists_cons
    obtain ⟨c, last, shown⟩ := names.exists_getLast?
    have comma := names.notMem namable.notMem.2.2 (by decide) (by decide) (by decide)
    obtain ⟨front', back', added, quiet⟩ :=
      list.exists_spaced namesIs comma (by rw [startsWith]; rfl) (by decide) last shown
        (wanted.filter fun name => !list.present.contains name)
    have extended : (list.extended wanted).names = front' ++ (clause ++ back') := added
    refine ⟨before, _, back' ++ '\x7d' :: (list.tail ++ tail), ?_, exchange front' fun c member => ?_, line⟩
    · rw [extended, leftIs]
      simp
    · rcases quiet c member with rfl | rfl | inside
      · decide
      · decide
      · exact ongoing c inside
  · -- The clause stands behind the braces.
    rw [middleIs] at ongoing
    simp only [List.forall_mem_append, List.forall_mem_cons] at ongoing
    refine ⟨before, _, after, ?_, exchange ((list.extended wanted).names ++ '\x7d' :: more) ?_, line⟩
    · rw [leftIs, tailIs]
      simp
    · simp only [List.forall_mem_append, List.forall_mem_cons]
      refine ⟨?_, ongoing.2⟩
      refine NameList.forall_mem_extended (by decide) (by decide) ongoing.1 fun other among c inside => ?_
      obtain ⟨_, semicolon, unbroken⟩ := (listable other among).plain c inside
      refine ⟨semicolon, ?_⟩
      rintro rfl
      exact absurd unbroken (by decide)
  · exact absurd (by rw [clauseIs]; simp) (names.notMem namable.notMem.2.1 (by decide) (by decide) (by decide))

/-! ## Lists of a content -/

variable {other changed : List Char} {found : NameList}

/-- A line is read as one list at most, for whatever source. -/
theorem NameList.IsListOf.read?_written_iff (listed : list.IsListOf source) :
    NameList.read? other list.written = some found ↔ found = list ∧ list.IsListOf other := by
  rw [NameList.read?_eq_some_iff]
  constructor
  · rintro ⟨same, listed'⟩
    obtain ⟨lead, behind⟩ := append_cons_inj listed.opening listed'.opening same
    obtain ⟨names, tail⟩ := append_cons_inj listed.closing listed'.closing behind
    obtain rfl : found = list := by
      cases found
      cases list
      simp_all
    exact ⟨rfl, listed'⟩
  · rintro ⟨rfl, listed'⟩
    exact ⟨rfl, listed'⟩

/-- The first list of a source is read from the lines of a content. -/
theorem firstList?_eq (source content : List Char) :
    firstList? source content = (bodies content).findSome? (NameList.read? source) := by
  rw [bodies, List.findSome?_map]
  rfl

/-- What is found in a list is found before an item, in it, or behind it. -/
theorem findSome?_append_cons {Item Found : Type} (find : Item → Option Found) (before : List Item)
    (item : Item)
    (after : List Item) : (before ++ item :: after).findSome? find
      = (before.findSome? find).or ((find item).or (after.findSome? find)) := by
  rw [List.findSome?_append, List.findSome?_cons]
  cases find item <;> rfl

/-- A line that is read as a list is what is written and its end. -/
theorem NameList.eq_written_append {line : List Char} (read : NameList.read? source (withoutEnd line) = some list) :
    line = list.written ++ endOf line := by
  rw [← (NameList.read?_eq_some_iff.mp read).1, withoutEnd_append_endOf]

/-! ## Longer lists -/

/-- Missing names stand behind those that a list has. -/
theorem NameList.present_extended (areNames : ∀ name ∈ wanted, IsName name) : (list.extended wanted).present
    = list.present ++ wanted.filter fun name => !list.present.contains name := by
  refine NameList.present_spaced fun name member => ?_
  rcases List.mem_append.mp member with known | missing
  · exact (NameList.isName_present known).1
  · exact areNames name (List.mem_filter.mp missing).1

/-- A longer list has the names that it had and those that were added. -/
theorem NameList.mem_present_extended (areNames : ∀ name ∈ wanted, IsName name) {name : List Char} :
    name ∈ (list.extended wanted).present ↔ name ∈ list.present ∨ name ∈ wanted := by
  rw [NameList.present_extended areNames, List.mem_append, List.mem_filter]
  by_cases known : name ∈ list.present <;> simp [known]

/-- A longer list lists names of the same sources. -/
theorem NameList.isListOf_extended_iff (listed : list.IsListOf source)
    (listable : ∀ name ∈ wanted, IsListable name) :
    (list.extended wanted).IsListOf other ↔ list.IsListOf other := by
  have closing : '\x7d' ∉ (list.extended wanted).names :=
    NameList.notMem_extended (by decide) listed.closing
      fun name among inside => ((listable name among).plain _ inside).1 rfl
  exact ⟨fun longer => longer.congr listed.closing, fun shorter => shorter.congr closing⟩

/-- A longer list brings no line end into its line. -/
theorem NameList.isLineEnd_extended (plain : ∀ c ∈ list.written, isLineEnd c = false)
    (listable : ∀ name ∈ wanted, IsListable name) :
    ∀ c ∈ (list.extended wanted).written, isLineEnd c = false := by
  simp only [NameList.written, List.forall_mem_append, List.forall_mem_cons] at plain ⊢
  obtain ⟨lead, opening, names, closing, tail⟩ := plain
  refine ⟨lead, opening, ?_, closing, tail⟩
  exact NameList.forall_mem_extended (by decide) (by decide) names
    fun name among c inside => ((listable name among).plain c inside).2.2

/-- What a list becomes when names are added to the content. -/
def Longer (first second : Option NameList) : Prop :=
  match first with
  | none => second = none
  | some list => ∃ more, second = some more ∧ ∀ name ∈ list.present, name ∈ more.present

/-- A list that stays has its names. -/
theorem Longer.refl (list : Option NameList) : Longer list list := by
  cases list with
  | none => rfl
  | some list => exact ⟨list, rfl, fun _ member => member⟩

/-- A list that becomes longer twice is longer. -/
theorem Longer.trans {first second third : Option NameList} (early : Longer first second)
    (late : Longer second third) : Longer first third := by
  cases first with
  | none =>
      obtain rfl : second = none := early
      exact late
  | some list =>
      obtain ⟨more, rfl, kept⟩ := early
      obtain ⟨most, rfl, kept'⟩ := late
      exact ⟨most, rfl, fun name member => kept' name (kept name member)⟩

/-- The first of two lists becomes longer if both do. -/
theorem Longer.or {first first' second second' : Option NameList} (left : Longer first first')
    (right : Longer second second') : Longer (first.or second) (first'.or second') := by
  cases first with
  | none =>
      obtain rfl : first' = none := left
      exact right
  | some list =>
      obtain ⟨more, rfl, kept⟩ := left
      exact ⟨more, rfl, kept⟩

/-- A line with a longer list is read as that list. -/
theorem NameList.longer_read? (listed : list.IsListOf source) (listable : ∀ name ∈ wanted, IsListable name)
    (other : List Char) :
    Longer (NameList.read? other list.written) (NameList.read? other (list.extended wanted).written) := by
  have listed' := (NameList.isListOf_extended_iff listed listable).mpr listed
  cases read : NameList.read? other list.written with
  | none =>
      refine Option.eq_none_iff_forall_ne_some.mpr fun found read' => ?_
      have member := (listed'.read?_written_iff.mp read').2
      rw [NameList.isListOf_extended_iff listed listable] at member
      have impossible := listed.read?_written_iff.mpr ⟨rfl, member⟩
      rw [read] at impossible
      cases impossible
  | some found =>
      obtain ⟨rfl, member⟩ := listed.read?_written_iff.mp read
      have extended := (NameList.isListOf_extended_iff listed listable).mpr member
      have areNames : ∀ name ∈ wanted, IsName name := fun name among => (listable name among).isName
      exact ⟨_, listed'.read?_written_iff.mpr ⟨rfl, extended⟩,
        fun name known => (NameList.mem_present_extended areNames).mpr (.inl known)⟩

/-! ## The content with longer lists -/

/-- A content in which names are added to at most one list. -/
inductive Extends (wanted : List (List Char)) : List Char → List Char → Prop where
  | same {content : List Char} : Extends wanted content content
  | names {source content changed head tail : List Char} {list : NameList} {before after : List (List Char)}
      (listed : list.IsListOf source) (single : '\n' ∉ list.names)
      (contentIs : content = head ++ (list.written ++ tail))
      (changedIs : changed = head ++ ((list.extended wanted).written ++ tail))
      (contentLines : bodies content = before ++ list.written :: after)
      (changedLines : bodies changed = before ++ (list.extended wanted).written :: after) :
      Extends wanted content changed

/-- The first list of each source is as long as before or longer. -/
theorem Extends.longer (more : Extends wanted content changed) (listable : ∀ name ∈ wanted, IsListable name)
    (source : List Char) : Longer (firstList? source content) (firstList? source changed) := by
  cases more with
  | same => exact .refl _
  | names listed _ _ _ contentLines changedLines =>
      rw [firstList?_eq, firstList?_eq, contentLines, changedLines, findSome?_append_cons,
        findSome?_append_cons]
      exact .or (.refl _) (.or (NameList.longer_read? listed listable source) (.refl _))

/-- Another text can stand in a plain line. -/
theorem areLines_exchange {before after : List (List Char)} {line text : List Char}
    (areLines : AreLines (before ++ line :: after)) (nonempty : text ≠ [])
    (unbroken : ∀ c ∈ text, isLineEnd c = false) : AreLines (before ++ (text ++ endOf line) :: after) := by
  obtain ⟨complete, rest⟩ := (areLines_append_iff (List.cons_ne_nil line after)).mp areLines
  refine AreLines.prepend ?_ complete
  generalize whole : line :: after = lines at rest
  cases rest with
  | nil => cases whole
  | last _ single =>
      obtain ⟨rfl, rfl⟩ := List.cons.inj whole
      rw [endOf, withoutEnd_last single, List.drop_length, List.append_nil]
      exact .last nonempty unbroken
  | cons isLine others =>
      obtain ⟨rfl, rfl⟩ := List.cons.inj whole
      obtain ⟨body, ended⟩ := isLine
      rw [endOf_line body ended]
      exact .cons (.intro unbroken ended) others

/-- A text in a plain line is what the line is without its end. -/
theorem withoutEnd_exchange {lines : List (List Char)} {line text : List Char} (areLines : AreLines lines)
    (member : line ∈ lines) (unbroken : ∀ c ∈ text, isLineEnd c = false) :
    withoutEnd (text ++ endOf line) = text := by
  rcases areLines.isLine_or member with ⟨body, ended⟩ | ⟨_, single⟩
  · rw [endOf_line body ended, withoutEnd_line unbroken ended]
  · rw [endOf, withoutEnd_last single, List.drop_length, List.append_nil, withoutEnd_last unbroken]

/-- Names are added to a line of a plain content. -/
theorem extendFirst?_plain {lines : List (List Char)} (plain : HasPlainLines content)
    (listable : ∀ name ∈ wanted, IsListable name)
    (done : extendFirst? source wanted (linesWithEnds content) = some lines) :
    Extends wanted content lines.flatten ∧ HasPlainLines lines.flatten
      ∧ ∃ list, firstList? source lines.flatten = some list ∧ ∀ name ∈ wanted, name ∈ list.present := by
  obtain ⟨before, line, after, list, whole, others, read, ended⟩ := exists_of_extendFirst? done
  obtain ⟨lineIs, listed⟩ := NameList.read?_eq_some_iff.mp read
  have contentIs : content = (before ++ line :: after).flatten := by rw [← whole, flatten_linesWithEnds]
  have unread : (before.map withoutEnd).findSome? (NameList.read? source) = none := by
    simpa [List.findSome?_eq_none_iff] using others
  have contentLines : bodies content = before.map withoutEnd ++ list.written :: after.map withoutEnd := by
    rw [bodies, whole, List.map_append, List.map_cons, lineIs]
  rcases ended with ⟨known, rfl⟩ | rfl
  · rw [flatten_linesWithEnds]
    refine ⟨.same, plain, list, ?_, known⟩
    rw [firstList?_eq, contentLines, findSome?_append_cons, unread, ← lineIs, read]
    rfl
  · have listed' := (NameList.isListOf_extended_iff listed listable).mpr listed
    have plainLine : ∀ c ∈ list.written, isLineEnd c = false := by
      rw [← lineIs]
      exact isLineEnd_withoutEnd plain (whole ▸ List.mem_append_right _ List.mem_cons_self)
    have unbroken := NameList.isLineEnd_extended plainLine listable
    have nonempty : (list.extended wanted).written ≠ [] := by simp [NameList.written]
    have areLines : AreLines (before ++ ((list.extended wanted).written ++ endOf line) :: after) :=
      areLines_exchange (whole ▸ plain) nonempty unbroken
    have changedLines : bodies (before ++ ((list.extended wanted).written ++ endOf line) :: after).flatten
        = before.map withoutEnd ++ (list.extended wanted).written :: after.map withoutEnd := by
      rw [bodies, areLines.linesWithEnds_flatten, List.map_append, List.map_cons,
        withoutEnd_exchange plain (whole ▸ List.mem_append_right _ List.mem_cons_self) unbroken]
    have single : '\n' ∉ list.names := by
      intro member
      have plainFeed := plainLine '\n' (by simp [NameList.written, member])
      exact absurd plainFeed (by decide)
    have lineWhole := NameList.eq_written_append read
    have contentWhole : content = before.flatten ++ (list.written ++ (endOf line ++ after.flatten)) := by
      rw [contentIs, List.flatten_append, List.flatten_cons]
      nth_rewrite 1 [lineWhole]
      rw [List.append_assoc]
    refine ⟨.names listed single contentWhole ?_ contentLines changedLines, areLines.hasPlainLines,
      list.extended wanted, ?_, ?_⟩
    · rw [List.flatten_append, List.flatten_cons, List.append_assoc]
    · rw [firstList?_eq, changedLines, findSome?_append_cons, unread,
        listed'.read?_written_iff.mpr ⟨rfl, listed'⟩]
      rfl
    · exact fun name member =>
        (NameList.mem_present_extended fun name among => (listable name among).isName).mpr (.inr member)

end Scaffold.ImportAdd
