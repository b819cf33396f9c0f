import Scaffold.Text.Blank
import Scaffold.Text.Word
import Mathlib.Data.List.TakeWhile

/-!
# Laws of trimming

What trimming from the right removes is blank, and neither a second trimming nor a test for blanks can
tell a text from its trimmed form.  What does not belong to the class is never removed, and letters,
numerals and the underscore are not blank (`isBlank_of_isWord`).
-/

namespace Scaffold.Text

variable {drop : Char → Bool} {text rest : List Char}

/-- A trimmed text lacks only characters of the class at its end. -/
theorem exists_eq_trimRightWhere_append (drop : Char → Bool) (text : List Char) :
    ∃ dropped, text = trimRightWhere drop text ++ dropped ∧ dropped.all drop = true := by
  refine ⟨(text.reverse.takeWhile drop).reverse, ?_, ?_⟩
  · rw [trimRightWhere, ← List.reverse_append, List.takeWhile_append_dropWhile, List.reverse_reverse]
  · rw [List.all_reverse]
    exact List.all_takeWhile

/-- Trimming from the right drops everything behind a text that belongs to the class. -/
theorem trimRightWhere_append (dropped : rest.all drop = true) :
    trimRightWhere drop (text ++ rest) = trimRightWhere drop text := by
  have all : ∀ c ∈ rest.reverse, drop c = true := by simpa using dropped
  simp only [trimRightWhere, List.reverse_append]
  rw [List.dropWhile_append_of_pos all]

/-- Trimming from both ends drops everything behind a text that belongs to the class. -/
theorem trimWhere_append (dropped : rest.all drop = true) :
    trimWhere drop (text ++ rest) = trimWhere drop text := by
  unfold trimWhere trimLeftWhere
  rw [List.dropWhile_append]
  split
  · rename_i nothing
    have empty : text.dropWhile drop = [] := by simpa using nothing
    have all : ∀ c ∈ rest, drop c = true := by simpa using dropped
    rw [empty, List.dropWhile_eq_nil_iff.mpr all]
  · exact trimRightWhere_append dropped

/-- What was trimmed from the right is trimmed to the same text from both ends. -/
@[simp] theorem trim_trimRight (text : List Char) : trim (trimRight text) = trim text := by
  obtain ⟨dropped, split, blank⟩ := exists_eq_trimRightWhere_append isBlank text
  have whole : trim text = trim (trimRight text ++ dropped) := congrArg trim split
  exact (whole.trans (trimWhere_append blank)).symm

/-- A text is blank exactly if it is blank without its blank end. -/
@[simp] theorem isAllBlank_trimRight (text : List Char) :
    isAllBlank (trimRight text) = isAllBlank text := by
  obtain ⟨dropped, split, blank⟩ := exists_eq_trimRightWhere_append isBlank text
  have whole : isAllBlank text = isAllBlank (trimRight text ++ dropped) := congrArg isAllBlank split
  rw [whole]
  simp [isAllBlank, blank]

/-- Trimming brings no new character into a text. -/
theorem mem_of_mem_trimRight {c : Char} (member : c ∈ trimRight text) : c ∈ text := by
  obtain ⟨dropped, split, _⟩ := exists_eq_trimRightWhere_append isBlank text
  rw [split]
  exact List.mem_append_left _ member

/-- Characters that are not dropped are left when a text is cut at its start. -/
theorem mem_dropWhile {c : Char} (member : c ∈ text) (kept : drop c = false) :
    c ∈ text.dropWhile drop := by
  rw [← List.takeWhile_append_dropWhile (p := drop) (l := text), List.mem_append] at member
  refine member.resolve_left fun dropped => ?_
  rw [List.mem_takeWhile_imp dropped] at kept
  cases kept

/-- Characters that are not dropped are left when a text is cut at both ends. -/
theorem mem_trimWhere {c : Char} (member : c ∈ text) (kept : drop c = false) :
    c ∈ trimWhere drop text :=
  List.mem_reverse.mpr (mem_dropWhile (List.mem_reverse.mpr (mem_dropWhile member kept)) kept)

/-- A text that was trimmed from the right does not end in a character of the class. -/
theorem notDropped_of_getLast? {c : Char} (last : (trimRightWhere drop text).getLast? = some c) :
    drop c = false := by
  rw [trimRightWhere, List.getLast?_reverse] at last
  have kept := List.head?_dropWhile_not drop text.reverse
  rw [last] at kept
  exact kept

/-- A text lacks only characters of the class at its ends when it was trimmed. -/
theorem exists_eq_append_trimWhere_append (drop : Char → Bool) (text : List Char) :
    ∃ lead trail, text = lead ++ trimWhere drop text ++ trail ∧ lead.all drop = true
      ∧ trail.all drop = true := by
  obtain ⟨trail, split, dropped⟩ := exists_eq_trimRightWhere_append drop (trimLeftWhere drop text)
  refine ⟨text.takeWhile drop, trail, ?_, List.all_takeWhile, dropped⟩
  rw [List.append_assoc, trimWhere, ← split, trimLeftWhere, List.takeWhile_append_dropWhile]

/-- A text that was trimmed from both ends does not start with a character of the class. -/
theorem notDropped_of_head? {c : Char} (head : (trimWhere drop text).head? = some c) : drop c = false := by
  obtain ⟨dropped, split, _⟩ := exists_eq_trimRightWhere_append drop (trimLeftWhere drop text)
  have kept := List.head?_dropWhile_not drop text
  have first : (trimLeftWhere drop text).head? = some c := by
    rw [split, ← trimWhere, List.head?_append, head]
    rfl
  rw [← trimLeftWhere, first] at kept
  exact kept

/-- Nothing is trimmed from a text with visible ends. -/
theorem trimWhere_eq_self (head : ∀ c, text.head? = some c → drop c = false)
    (last : ∀ c, text.getLast? = some c → drop c = false) : trimWhere drop text = text := by
  have unstarted : ∀ {text : List Char}, (∀ c, text.head? = some c → drop c = false) →
      text.dropWhile drop = text := by
    intro text visible
    cases text with
    | nil => rfl
    | cons c text => exact List.dropWhile_cons_of_neg (by simp [visible c rfl])
  rw [trimWhere, trimLeftWhere, unstarted head, trimRightWhere, unstarted, List.reverse_reverse]
  intro c
  rw [List.head?_reverse]
  exact last c

/-- A trimmed text has visible ends, so a second trimming leaves it. -/
@[simp] theorem trim_trim (text : List Char) : trim (trim text) = trim text :=
  trimWhere_eq_self (fun _ => notDropped_of_head?) fun _ => notDropped_of_getLast?

/-- A text that is trimmed starts with its first character that does not belong to the class. -/
theorem head?_trimWhere {c : Char} {lead : List Char} (dropped : lead.all drop = true)
    (kept : drop c = false) (rest : List Char) : (trimWhere drop (lead ++ c :: rest)).head? = some c := by
  have start : trimLeftWhere drop (lead ++ c :: rest) = c :: rest := by
    have all : ∀ d ∈ lead, drop d = true := by simpa using dropped
    rw [trimLeftWhere, List.dropWhile_append_of_pos all, List.dropWhile_cons_of_neg (by simp [kept])]
  obtain ⟨trail, split, ended⟩ := exists_eq_trimRightWhere_append drop (c :: rest)
  rw [trimWhere, start]
  cases left : trimRightWhere drop (c :: rest) with
  | nil =>
      rw [left, List.nil_append] at split
      rw [← split] at ended
      simp [kept] at ended
  | cons d more =>
      rw [left] at split
      rw [(List.cons.inj split).1, List.head?_cons]

/-- Trimming from the right stops at the last character that does not belong to the class. -/
theorem trimRightWhere_append_of_mem {c : Char} (member : c ∈ rest) (kept : drop c = false) :
    trimRightWhere drop (text ++ rest) = text ++ trimRightWhere drop rest := by
  have visible := List.ne_nil_of_mem (mem_dropWhile (List.mem_reverse.mpr member) kept)
  rw [trimRightWhere, List.reverse_append, List.dropWhile_append, if_neg (by simpa using visible),
    List.reverse_append, List.reverse_reverse]
  rfl

/-- Trimming stops at visible characters, whatever stands before and behind them. -/
theorem exists_trimWhere {part : List Char} {c d : Char} (first : part.head? = some c)
    (firstKept : drop c = false)
    (last : part.getLast? = some d) (lastKept : drop d = false) (before after : List Char) :
    ∃ head tail, trimWhere drop (before ++ (part ++ after)) = head ++ (part ++ tail) ∧ head <:+ before := by
  obtain ⟨more, rfl⟩ := List.head?_eq_some_iff.mp first
  obtain ⟨front, split⟩ := List.getLast?_eq_some_iff.mp last
  have left : trimLeftWhere drop (before ++ (c :: more ++ after))
      = before.dropWhile drop ++ (c :: more ++ after) := by
    have stays : (c :: more ++ after).dropWhile drop = c :: more ++ after :=
      List.dropWhile_cons_of_neg (by simp [firstKept])
    rw [trimLeftWhere, List.dropWhile_append]
    split
    · next nothing => rw [List.isEmpty_iff.mp nothing, stays, List.nil_append]
    · rfl
  obtain ⟨tail, right⟩ : ∃ tail, trimRightWhere drop (d :: after) = d :: tail := by
    obtain ⟨dropped, whole, all⟩ := exists_eq_trimRightWhere_append drop (d :: after)
    cases kept : trimRightWhere drop (d :: after) with
    | nil =>
        rw [kept, List.nil_append] at whole
        rw [← whole] at all
        simp [lastKept] at all
    | cons e tail =>
        rw [kept] at whole
        exact ⟨tail, by rw [(List.cons.inj whole).1]⟩
  refine ⟨before.dropWhile drop, tail, ?_, List.dropWhile_suffix drop⟩
  have parted : c :: more ++ after = front ++ d :: after := by rw [split]; simp
  have visible : d ∈ front ++ d :: after := by simp
  rw [trimWhere, left, parted, trimRightWhere_append_of_mem visible lastKept,
    trimRightWhere_append_of_mem List.mem_cons_self lastKept, right, split]
  simp

/-- Nothing is left of a blank text. -/
theorem trim_of_isAllBlank (blank : isAllBlank text = true) : trim text = [] := by
  have dropped : text.dropWhile isBlank = [] := by
    rw [List.dropWhile_eq_nil_iff]
    simpa [isAllBlank] using blank
  rw [trim, trimWhere, trimLeftWhere, dropped]
  rfl

/-- A trimmed text is a part of the text. -/
theorem infix_trim (text : List Char) : trim text <:+: text := by
  obtain ⟨lead, trail, split, _, _⟩ := exists_eq_append_trimWhere_append isBlank text
  exact ⟨lead, trail, split.symm⟩

/-! ## Words and blanks -/

/-- Trimming leaves what a text shows if no blank shows anything. -/
theorem filter_trim {accept : Char → Bool} (silent : ∀ c, isBlank c = true → accept c = false) (text : List Char) :
    (trim text).filter accept = text.filter accept := by
  have nothing {gap : List Char} (blank : gap.all isBlank = true) : gap.filter accept = [] :=
    List.filter_eq_nil_iff.mpr fun c member => by simp [silent c (List.all_eq_true.mp blank c member)]
  obtain ⟨lead, trail, whole, first, last⟩ := exists_eq_append_trimWhere_append isBlank text
  conv => rhs; rw [whole, List.filter_append, List.filter_append, nothing first, nothing last]
  rw [List.nil_append, List.append_nil]
  rfl

/-- Characters in some ranges are not in others that lie apart from them. -/
theorem holds_of_apart {left right : CharRanges} {c : Char}
    (apart : ∀ l ∈ left, ∀ r ∈ right, l.2 < r.1 ∨ r.2 < l.1) (inside : left.holds c = true) :
    right.holds c = false := by
  obtain ⟨l, among, above, below⟩ := (CharRanges.holds_iff left c).mp inside
  rw [Bool.eq_false_iff]
  intro also
  obtain ⟨r, member, start, last⟩ := (CharRanges.holds_iff right c).mp also
  have separate := apart l among r member
  omega

/-- The letters and numerals beyond ASCII lie apart from the blanks. -/
theorem wordRanges_apart : ∀ l ∈ wordRanges, ∀ r ∈ blankRanges, l.2 < r.1 ∨ r.2 < l.1 := by
  decide +kernel

/-- Letters, numerals and the underscore are not blank. -/
theorem isBlank_of_isWord {c : Char} (word : isWord c = true) : isBlank c = false := by
  by_cases low : c.toNat < 128
  · have ascii : ∀ n < 128, isWord (Char.ofNat n) = true → isBlank (Char.ofNat n) = false := by
      decide
    have here := ascii c.toNat low
    rw [Char.ofNat_toNat] at here
    exact here word
  · rw [isWord, isAlphanumeric, if_neg low, Bool.or_eq_true] at word
    rcases word with underscore | listed
    · rw [beq_iff_eq.mp underscore]
      decide
    · exact holds_of_apart wordRanges_apart listed

end Scaffold.Text
