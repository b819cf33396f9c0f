import Scaffold.Modifier.ImportAdd
import Scaffold.Proofs.Text.Pattern
import Scaffold.Proofs.Text.Trimming
import Scaffold.Proofs.Merge.Blocks

/-!
# Where imports are written

A content imports something if a text of some form stands in it, at the start of a line or anywhere
(`Occurs`).  What a content imports it still imports when whole lines are put into it behind a closed statement
(`Occurs.insert`): no form goes on over the end of a line whose last visible character is a quotation mark or
a semicolon.
-/

namespace Scaffold.ImportAdd

open Scaffold.Text ImportStatement
open EnvLines (completed)

/-! ## Forms -/

/-- The end of an import, which names its source. -/
inductive FromClause (source : List Char) : List Char → Prop where
  | intro {gap opening closing} (apart : gap ≠ []) (blank : ∀ c ∈ gap, isBlank c = true)
      (opens : isQuote opening = true) (closes : isQuote closing = true) :
      FromClause source ("from".toList ++ (gap ++ opening :: (source ++ [closing])))

/-- An import of a default export, and perhaps of more. -/
inductive DefaultImport (name source : List Char) : List Char → Prop where
  | intro {lead gap middle clause} (leading : ∀ c ∈ lead, isBlank c = true) (apart : gap ≠ [])
      (blank : ∀ c ∈ gap, isBlank c = true)
      (ended : isWord (name.getLast?.getD ' ') ≠ ((middle ++ clause).head?.map isWord).getD false)
      (ongoing : ∀ c ∈ middle, c ≠ ';' ∧ c ≠ '\n') (names : FromClause source clause) :
      DefaultImport name source (lead ++ ("import".toList ++ (gap ++ (name ++ (middle ++ clause)))))

/-- An import of a source as a whole. -/
inductive WholeImport (name source : List Char) : List Char → Prop where
  | intro {lead gap before behind last clause} (leading : ∀ c ∈ lead, isBlank c = true)
      (apart : gap ≠ [] ∧ before ≠ [] ∧ behind ≠ [] ∧ last ≠ [])
      (blank : ∀ c ∈ gap ++ before ++ behind ++ last, isBlank c = true) (names : FromClause source clause) :
      WholeImport name source (lead ++ ("import".toList ++ (gap ++ ("*".toList ++ (before ++ ("as".toList ++
        (behind ++ (name ++ (last ++ clause)))))))))

/-- An import that only names a source. -/
inductive BareImport (source : List Char) : List Char → Prop where
  | intro {lead gap opening closing} (leading : ∀ c ∈ lead, isBlank c = true) (apart : gap ≠ [])
      (blank : ∀ c ∈ gap, isBlank c = true) (opens : isQuote opening = true)
      (closes : isQuote closing = true) :
      BareImport source (lead ++ ("import".toList ++ (gap ++ opening :: (source ++ [closing]))))

variable {name source text rest content : List Char} {form : List Char → Prop} {pattern : Pattern}
  {atLine : Bool}

/-- What the pattern of a quoted source leaves. -/
theorem mem_quotedSource_iff : rest ∈ quotedSource source text
    ↔ ∃ opening closing, isQuote opening = true ∧ isQuote closing = true
      ∧ text = opening :: (source ++ closing :: rest) := by
  simp only [quotedSource, Pattern.mem_all_cons_iff, Pattern.mem_all_nil_iff, Pattern.mem_one_iff,
    Pattern.mem_literal_iff]
  constructor
  · rintro ⟨_, ⟨opening, opens, rfl⟩, _, rfl, _, ⟨closing, closes, rfl⟩, rfl⟩
    exact ⟨opening, closing, opens, closes, rfl⟩
  · rintro ⟨opening, closing, opens, closes, rfl⟩
    exact ⟨_, ⟨opening, opens, rfl⟩, _, rfl, _, ⟨closing, closes, rfl⟩, rfl⟩

/-- What the pattern of a clause leaves. -/
theorem mem_fromClause_iff : rest ∈ Pattern.all [.word "from", .blanks, quotedSource source] text
    ↔ ∃ written, FromClause source written ∧ text = written ++ rest := by
  simp only [Pattern.mem_all_cons_iff, Pattern.mem_all_nil_iff, Pattern.mem_word_iff, Pattern.blanks,
    Pattern.mem_some_iff, mem_quotedSource_iff]
  constructor
  · rintro ⟨_, rfl, _, ⟨gap, apart, blank, rfl⟩, _, ⟨opening, closing, opens, closes, rfl⟩, rfl⟩
    exact ⟨_, .intro apart blank opens closes, by simp⟩
  · rintro ⟨_, @⟨gap, opening, closing, apart, blank, opens, closes⟩, rfl⟩
    have whole : "from".toList ++ (gap ++ opening :: (source ++ [closing])) ++ rest
        = "from".toList ++ (gap ++ opening :: (source ++ closing :: rest)) := by simp
    exact ⟨_, whole, _, ⟨gap, apart, blank, rfl⟩, _, ⟨opening, closing, opens, closes, rfl⟩, rfl⟩

/-- A clause starts with a word. -/
theorem FromClause.exists_cons {clause : List Char} (names : FromClause source clause) :
    ∃ rest, clause = 'f' :: rest := by
  cases names
  exact ⟨_, rfl⟩

/-- What stands behind a clause does not change how it starts. -/
theorem FromClause.head?_append {clause : List Char} (names : FromClause source clause)
    (middle rest : List Char) : (middle ++ (clause ++ rest)).head? = (middle ++ clause).head? := by
  obtain ⟨more, rfl⟩ := names.exists_cons
  cases middle <;> rfl

/-- What the pattern of an import of a default export leaves. -/
theorem mem_defaultImport_iff : rest ∈ defaultImport name source text
    ↔ ∃ written, DefaultImport name source written ∧ text = written ++ rest := by
  have ends (text : List Char) := @mem_fromClause_iff source text rest
  rw [defaultImport]
  generalize [Pattern.word "from", .blanks, quotedSource source] = clause at ends ⊢
  simp only [Pattern.mem_all_cons_iff, Pattern.mem_word_iff, Pattern.mem_literal_iff, Pattern.anyBlanks,
    Pattern.blanks, Pattern.mem_some_iff, Pattern.mem_many_iff, Pattern.mem_wordEnd_iff, ends,
    Bool.and_eq_true, bne_iff_ne]
  constructor
  · rintro ⟨_, ⟨lead, leading, rfl⟩, _, rfl, _, ⟨gap, apart, blank, rfl⟩, _, rfl, _, ⟨ended, rfl⟩, _,
      ⟨middle, ongoing, rfl⟩, clause, names, rfl⟩
    rw [names.head?_append] at ended
    exact ⟨_, .intro leading apart blank ended ongoing names, by simp⟩
  · rintro ⟨_, @⟨lead, gap, middle, clause, leading, apart, blank, ended, ongoing, names⟩, rfl⟩
    have whole : lead ++ ("import".toList ++ (gap ++ (name ++ (middle ++ clause)))) ++ rest
        = lead ++ ("import".toList ++ (gap ++ (name ++ (middle ++ (clause ++ rest))))) := by simp
    rw [← names.head?_append middle rest] at ended
    exact ⟨_, ⟨lead, leading, whole⟩, _, rfl, _, ⟨gap, apart, blank, rfl⟩, _, rfl, _, ⟨ended, rfl⟩, _,
      ⟨middle, ongoing, rfl⟩, clause, names, rfl⟩

/-- What the pattern of an import of a source as a whole leaves. -/
theorem mem_wholeImport_iff : rest ∈ wholeImport name source text
    ↔ ∃ written, WholeImport name source written ∧ text = written ++ rest := by
  have ends (text : List Char) := @mem_fromClause_iff source text rest
  rw [wholeImport]
  generalize [Pattern.word "from", .blanks, quotedSource source] = clause at ends ⊢
  simp only [Pattern.mem_all_cons_iff, Pattern.mem_word_iff, Pattern.mem_literal_iff, Pattern.anyBlanks,
    Pattern.blanks, Pattern.mem_some_iff, Pattern.mem_many_iff, ends]
  constructor
  · rintro ⟨_, ⟨lead, leading, rfl⟩, _, rfl, _, ⟨gap, apart, blank, rfl⟩, _, rfl, _,
      ⟨before, apart₁, blank₁, rfl⟩, _, rfl, _, ⟨behind, apart₂, blank₂, rfl⟩, _, rfl, _,
      ⟨last, apart₃, blank₃, rfl⟩, clause, names, rfl⟩
    refine ⟨_, .intro leading ⟨apart, apart₁, apart₂, apart₃⟩ ?_ names, by simp⟩
    simp only [List.forall_mem_append]
    exact ⟨⟨⟨blank, blank₁⟩, blank₂⟩, blank₃⟩
  · rintro ⟨_, @⟨lead, gap, before, behind, last, clause, leading, apart, blank, names⟩, rfl⟩
    simp only [List.forall_mem_append] at blank
    obtain ⟨⟨⟨blank, blank₁⟩, blank₂⟩, blank₃⟩ := blank
    have whole : lead ++ ("import".toList ++ (gap ++ ("*".toList ++ (before ++ ("as".toList ++
          (behind ++ (name ++ (last ++ clause)))))))) ++ rest
        = lead ++ ("import".toList ++ (gap ++ ("*".toList ++ (before ++ ("as".toList ++
          (behind ++ (name ++ (last ++ (clause ++ rest))))))))) := by simp
    exact ⟨_, ⟨lead, leading, whole⟩, _, rfl, _, ⟨gap, apart.1, blank, rfl⟩, _, rfl, _,
      ⟨before, apart.2.1, blank₁, rfl⟩, _, rfl, _, ⟨behind, apart.2.2.1, blank₂, rfl⟩, _, rfl, _,
      ⟨last, apart.2.2.2, blank₃, rfl⟩, clause, names, rfl⟩

/-- What the pattern of an import that only names a source leaves. -/
theorem mem_bareImport_iff : rest ∈ bareImport source text
    ↔ ∃ written, BareImport source written ∧ text = written ++ rest := by
  simp only [bareImport, Pattern.mem_all_cons_iff, Pattern.mem_all_nil_iff, Pattern.mem_word_iff,
    Pattern.anyBlanks, Pattern.blanks, Pattern.mem_some_iff, Pattern.mem_many_iff, mem_quotedSource_iff]
  constructor
  · rintro ⟨_, ⟨lead, leading, rfl⟩, _, rfl, _, ⟨gap, apart, blank, rfl⟩, _,
      ⟨opening, closing, opens, closes, rfl⟩, rfl⟩
    exact ⟨_, .intro leading apart blank opens closes, by simp⟩
  · rintro ⟨_, @⟨lead, gap, opening, closing, leading, apart, blank, opens, closes⟩, rfl⟩
    have whole : lead ++ ("import".toList ++ (gap ++ opening :: (source ++ [closing]))) ++ rest
        = lead ++ ("import".toList ++ (gap ++ opening :: (source ++ closing :: rest))) := by simp
    exact ⟨_, ⟨lead, leading, whole⟩, _, rfl, _, ⟨gap, apart, blank, rfl⟩, _,
      ⟨opening, closing, opens, closes, rfl⟩, rfl⟩

/-! ## Occurrences -/

/-- A text of a form stands in a content, if it has to at the start of a line. -/
def Occurs (atLine : Bool) (form : List Char → Prop) (content : List Char) : Prop :=
  ∃ before written after, content = before ++ (written ++ after) ∧ form written
    ∧ (atLine = true → before = [] ∨ before.getLast? = some '\n')

/-- A line of a content starts with a pattern if a text of its form stands there. -/
theorem someLine_iff
    (forms : ∀ text rest, rest ∈ pattern text ↔ ∃ written, form written ∧ text = written ++ rest) :
    someLine pattern content = true ↔ Occurs true form content := by
  simp only [someLine, List.any_eq_true, Pattern.matchesStart_iff, mem_lineStarts_iff, forms]
  constructor
  · rintro ⟨_, ⟨before, rfl, starts⟩, after, written, isForm, rfl⟩
    exact ⟨before, written, after, rfl, isForm, fun _ => starts.imp_left And.left⟩
  · rintro ⟨before, written, after, rfl, isForm, starts⟩
    exact ⟨_, ⟨before, rfl, (starts rfl).imp_left fun empty => ⟨empty, trivial⟩⟩, after, written, isForm, rfl⟩

/-- A content takes something from a source if a line names only the source or a clause names it anywhere. -/
theorem mentionsSource_iff : mentionsSource source content = true
    ↔ Occurs true (BareImport source) content ∨ Occurs false (FromClause source) content := by
  rw [mentionsSource, Bool.or_eq_true, someLine_iff fun _ _ => mem_bareImport_iff]
  refine or_congr_right ?_
  simp only [List.any_eq_true, Pattern.matchesStart_iff, mem_tails_iff, mem_fromClause_iff]
  constructor
  · rintro ⟨_, ⟨before, rfl⟩, after, written, isForm, rfl⟩
    exact ⟨before, written, after, rfl, isForm, nofun⟩
  · rintro ⟨before, written, after, rfl, isForm, _⟩
    exact ⟨_, ⟨before, rfl⟩, after, written, isForm, rfl⟩

/-! ## Lines that are put in -/

/-- What a statement ends with: a quotation mark or a semicolon. -/
def isClosing (c : Char) : Bool := isQuote c || c == ';'

/-- A closing character is visible. -/
theorem isBlank_of_isClosing {c : Char} (closing : isClosing c = true) : isBlank c = false := by
  simp only [isClosing, isQuote, Bool.or_eq_true, beq_iff_eq] at closing
  rcases closing with (rfl | rfl) | rfl <;> decide

/-- A complete line closes a statement: its last visible character is a closing one. -/
def Closes (text : List Char) : Prop :=
  ∃ before c gap, text = before ++ c :: (gap ++ ['\n']) ∧ isClosing c = true
    ∧ ∀ d ∈ gap, isBlank d = true ∧ d ≠ '\n'

/-- No line of a text closes a statement if the text goes on behind it. -/
def Flows (text : List Char) : Prop :=
  ∀ before c gap after, isClosing c = true → (∀ d ∈ gap, isBlank d = true) →
    text ≠ before ++ c :: (gap ++ '\n' :: after)

variable {front back lines lead middle clause written : List Char}

/-- A single line flows. -/
theorem flows_of_notMem (single : '\n' ∉ text) : Flows text := by
  intro before c gap after _ _ whole
  rw [whole] at single
  simp at single

/-- A text flows if nothing closes in front of a part that flows. -/
theorem Flows.append_left (flows : Flows text) (quiet : ∀ c ∈ lead, isClosing c = false) :
    Flows (lead ++ text) := by
  intro before c gap after closing blank whole
  rcases List.append_eq_append_iff.mp whole with ⟨between, _, inside⟩ | ⟨between, leads, inside⟩
  · exact flows between c gap after closing blank inside
  · cases between with
    | nil => exact flows [] c gap after closing blank inside.symm
    | cons d between =>
        have member : c ∈ lead := by
          rw [leads, (List.cons.inj inside).1]
          exact List.mem_append_right _ List.mem_cons_self
        rw [quiet c member] at closing
        cases closing

/-- A quoted source flows if it is a single line. -/
theorem flows_quoted {opening closing : Char} (opens : isQuote opening = true) (closes : isQuote closing = true)
    (single : '\n' ∉ source) : Flows (opening :: (source ++ [closing])) := by
  refine flows_of_notMem ?_
  simp only [List.mem_cons, List.mem_append, List.not_mem_nil, or_false, not_or]
  refine ⟨?_, single, ?_⟩
  · rintro rfl
    exact absurd opens (by decide)
  · rintro rfl
    exact absurd closes (by decide)

/-- Nothing closes in blanks. -/
theorem quiet_of_blank {gap : List Char} (blank : ∀ c ∈ gap, isBlank c = true) :
    ∀ c ∈ gap, isClosing c = false := by
  intro c member
  by_contra closing
  rw [Bool.not_eq_false] at closing
  have shown := isBlank_of_isClosing closing
  rw [blank c member] at shown
  cases shown

/-- Whether something closes in a text can be computed. -/
theorem quiet_of_all {lead : List Char} (quiet : lead.all (fun c => !isClosing c) = true) :
    ∀ c ∈ lead, isClosing c = false := by
  simpa using quiet

/-- A clause flows if its source is a single line. -/
theorem FromClause.flows (names : FromClause source clause) (single : '\n' ∉ source) : Flows clause := by
  obtain ⟨_, blank, opens, closes⟩ := names
  exact ((flows_quoted opens closes single).append_left (quiet_of_blank blank)).append_left (quiet_of_all rfl)

/-- An import that only names a source flows. -/
theorem BareImport.flows (isForm : BareImport source text) (single : '\n' ∉ source) : Flows text := by
  obtain ⟨leading, _, blank, opens, closes⟩ := isForm
  exact (((flows_quoted opens closes single).append_left (quiet_of_blank blank)).append_left
    (quiet_of_all rfl)).append_left (quiet_of_blank leading)

/-- An import of a source as a whole flows. -/
theorem WholeImport.flows (isForm : WholeImport name source text) (quiet : ∀ c ∈ name, isClosing c = false)
    (single : '\n' ∉ source) : Flows text := by
  obtain ⟨leading, _, blank, names⟩ := isForm
  simp only [List.forall_mem_append] at blank
  obtain ⟨⟨⟨gap, before⟩, behind⟩, last⟩ := blank
  have ended := ((names.flows single).append_left (quiet_of_blank last)).append_left quiet
  have word : ∀ c ∈ "as".toList, isClosing c = false := quiet_of_all rfl
  have star : ∀ c ∈ "*".toList, isClosing c = false := quiet_of_all rfl
  have whole :=
    ((ended.append_left (quiet_of_blank behind)).append_left word).append_left (quiet_of_blank before)
  exact (((whole.append_left star).append_left (quiet_of_blank gap)).append_left
    (quiet_of_all rfl)).append_left (quiet_of_blank leading)

/-- A single line in front of a clause flows: what closes there is followed by a visible character. -/
theorem FromClause.flows_append (names : FromClause source clause) (flows : Flows clause)
    (single : '\n' ∉ middle) : Flows (middle ++ clause) := by
  obtain ⟨rest, rfl⟩ := names.exists_cons
  intro before c gap after closing blank whole
  rcases List.append_eq_append_iff.mp whole with ⟨between, _, inside⟩ | ⟨between, middles, inside⟩
  · exact flows between c gap after closing blank inside
  · cases between with
    | nil => exact flows [] c gap after closing blank inside.symm
    | cons d between =>
        obtain ⟨rfl, onward⟩ := List.cons.inj inside
        rw [middles] at single
        rcases List.append_eq_append_iff.mp onward with ⟨last, same, ends⟩ | ⟨last, same, ends⟩
        · cases last with
          | nil => exact absurd (List.cons.inj ends).1 (by decide)
          | cons e last =>
              rw [same, (List.cons.inj ends).1] at single
              simp at single
        · cases last with
          | nil => exact absurd (List.cons.inj ends).1 (by decide)
          | cons e last =>
              have member : 'f' ∈ gap := by
                rw [same, (List.cons.inj ends).1]
                exact List.mem_append_right _ List.mem_cons_self
              exact absurd (blank 'f' member) (by decide)

/-- An import of a default export flows. -/
theorem DefaultImport.flows (isForm : DefaultImport name source text)
    (quiet : ∀ c ∈ name, isClosing c = false) (single : '\n' ∉ source) : Flows text := by
  obtain ⟨leading, _, blank, _, ongoing, names⟩ := isForm
  have ended := names.flows_append (names.flows single) fun member => (ongoing '\n' member).2 rfl
  exact (((ended.append_left quiet).append_left (quiet_of_blank blank)).append_left
    (quiet_of_all rfl)).append_left (quiet_of_blank leading)

/-- A text of a form that flows does not go on over the end of a line that closes a statement. -/
theorem Closes.apart {before between more : List Char} (flows : Flows written)
    (starts : (before = [] ∨ before.getLast? = some '\n') ∨ ∃ c rest, written = c :: rest ∧ isBlank c = false)
    (closes : Closes (before ++ between)) (writtenIs : written = between ++ more) :
    between = [] ∨ more = [] := by
  obtain ⟨front, c, gap, whole, closing, blank⟩ := closes
  have flowing (ahead : List Char) : between ≠ ahead ++ c :: (gap ++ ['\n']) := by
    rintro rfl
    exact flows ahead c gap more closing (fun d member => (blank d member).1) (by simp [writtenIs])
  rcases List.append_eq_append_iff.mp whole with ⟨ahead, _, betweenIs⟩ | ⟨ahead, beforeIs, betweenIs⟩
  · exact absurd betweenIs (flowing ahead)
  cases ahead with
  | nil => exact absurd betweenIs.symm (flowing [])
  | cons d ahead =>
      obtain ⟨rfl, gapIs⟩ := List.cons.inj betweenIs
      refine or_iff_not_imp_left.mpr fun nonempty => ?_
      obtain ⟨inGap, blanks⟩ : (∀ e ∈ ahead, e ∈ gap) ∧ ∀ e ∈ between, isBlank e = true := by
        rcases List.append_eq_append_iff.mp gapIs with ⟨last, rfl, feed⟩ | ⟨last, rfl, rfl⟩
        · cases last with
          | nil =>
              rw [List.nil_append] at feed
              exact ⟨by simp, by rw [← feed]; exact List.forall_mem_singleton.mpr (by decide)⟩
          | cons e last => exact absurd (List.append_eq_nil_iff.mp (List.cons.inj feed).2.symm).2 nonempty
        · refine ⟨fun e member => List.mem_append_left _ member, fun e member => ?_⟩
          rcases List.mem_append.mp member with inside | feed
          · exact (blank e (List.mem_append_right _ inside)).1
          · rw [List.mem_singleton.mp feed]
            decide
      rcases starts with (empty | last) | ⟨e, rest, same, shown⟩
      · simp [beforeIs] at empty
      · rw [beforeIs, List.getLast?_append, List.getLast?_cons, Option.some_or, Option.some.injEq] at last
        cases found : ahead.getLast? with
        | none =>
            rw [found, Option.getD_none] at last
            rw [last] at closing
            exact absurd closing (by decide)
        | some e =>
            rw [found, Option.getD_some] at last
            exact absurd last (blank e (inGap e (List.mem_of_getLast? found))).2
      · obtain ⟨f, others, rfl⟩ := List.exists_cons_of_ne_nil nonempty
        rw [writtenIs] at same
        rw [(List.cons.inj same).1.symm, blanks f List.mem_cons_self] at shown
        cases shown

/-- What occurs in a content occurs in it when lines are put behind a part of it that is empty, that is all of
it, or that closes a statement. -/
theorem Occurs.insert (flows : ∀ written, form written → Flows written)
    (starts : atLine = true ∨ ∀ written, form written → ∃ c rest, written = c :: rest ∧ isBlank c = false)
    (place : front = [] ∨ back = [] ∨ Closes front) (ended : lines.getLast? = some '\n')
    (occurs : Occurs atLine form (front ++ back)) :
    Occurs atLine form (completed front ++ (lines ++ back)) := by
  obtain ⟨before, written, after, whole, isForm, line⟩ := occurs
  -- The text stands behind the lines, before them, or on both sides.
  have behind (between : List Char) (beforeIs : before = front ++ between)
      (backIs : back = between ++ (written ++ after)) :
      Occurs atLine form (completed front ++ (lines ++ back)) := by
    refine ⟨completed front ++ (lines ++ between), written, after, by simp [backIs], isForm,
      fun must => .inr ?_⟩
    cases between with
    | nil => rw [List.append_nil, List.getLast?_append, ended]; rfl
    | cons d between =>
        have last := (line must).resolve_left (by simp [beforeIs])
        rw [beforeIs, List.getLast?_append] at last
        rw [← List.append_assoc, List.getLast?_append]
        exact last
  have ahead (between : List Char) (frontIs : front = before ++ (written ++ between)) :
      Occurs atLine form (completed front ++ (lines ++ back)) := by
    obtain ⟨more, completes⟩ := EnvLines.prefix_completed front
    refine ⟨before, written, between ++ (more ++ (lines ++ back)), ?_, isForm, line⟩
    rw [← completes, frontIs]
    simp
  rcases List.append_eq_append_iff.mp whole with ⟨between, beforeIs, backIs⟩ | ⟨between, frontIs, onward⟩
  · exact behind between beforeIs backIs
  rcases List.append_eq_append_iff.mp onward with ⟨more, betweenIs, _⟩ | ⟨more, writtenIs, backIs⟩
  · exact ahead more (by rw [frontIs, betweenIs])
  have oneSide : between = [] ∨ more = [] := by
    rcases place with empty | empty | closes
    · exact .inl (List.append_eq_nil_iff.mp (frontIs.symm.trans empty)).2
    · exact .inr (List.append_eq_nil_iff.mp (backIs.symm.trans empty)).1
    · rw [frontIs] at closes
      have starting := starts.imp line fun visible => visible written isForm
      exact closes.apart (flows written isForm) starting writtenIs
  rcases oneSide with rfl | rfl
  · exact behind [] (by simpa using frontIs.symm) (by rw [backIs, writtenIs]; rfl)
  · exact ahead [] (by rw [frontIs, writtenIs]; simp)

end Scaffold.ImportAdd
