import Scaffold.Text.Search
import Mathlib.Data.List.Infix
import Mathlib.Data.List.TakeWhile

/-!
# Laws of searching

The place of the first separator depends on nothing behind it, and no separator stands before it.  A block
occurs in a text exactly if the text is something, the block and something.  Texts that lack a character and
what follows its first occurrence are told apart again (`append_cons_inj`).
-/

namespace Scaffold.Text

variable {separator text before after block : List Char}

/-- A text that starts with the separator is cut there. -/
theorem cutAt?_self (nonempty : separator ≠ []) (rest : List Char) :
    cutAt? separator (separator ++ rest) = some ([], rest) := by
  obtain ⟨c, more, rfl⟩ := List.exists_cons_of_ne_nil nonempty
  have starts : (c :: more).isPrefixOf (c :: (more ++ rest)) = true :=
    List.isPrefixOf_iff_prefix.mpr (List.prefix_append (c :: more) rest)
  rw [List.cons_append, cutAt?, if_pos starts]
  simp

/-- Whatever stands behind the first separator, a text is cut there. -/
theorem cutAt?_append (nonempty : separator ≠ [])
    (found : cutAt? separator text = some (before, after)) (rest : List Char) :
    cutAt? separator (before ++ separator ++ rest) = some (before, rest) := by
  induction text generalizing before with
  | nil => simp [cutAt?, nonempty] at found
  | cons c text inductionHypothesis =>
      rw [cutAt?] at found
      split at found
      next =>
        obtain ⟨rfl, -⟩ := Prod.mk.inj (Option.some.inj found)
        exact cutAt?_self nonempty rest
      next later =>
        obtain ⟨⟨front, _⟩, inner, same⟩ := Option.map_eq_some_iff.mp found
        obtain ⟨rfl, rfl⟩ := Prod.mk.inj same
        have whole := append_of_cutAt? inner
        have unstarted : ¬separator.isPrefixOf (c :: (front ++ separator ++ rest)) = true := by
          intro starts
          refine later (List.isPrefixOf_iff_prefix.mpr ?_)
          have within : c :: (front ++ separator) <+: c :: (front ++ separator ++ rest) :=
            List.cons_prefix_cons.mpr ⟨rfl, List.prefix_append ..⟩
          have short := List.prefix_of_prefix_length_le (List.isPrefixOf_iff_prefix.mp starts) within
            (by simp only [List.length_cons, List.length_append]; omega)
          rw [← whole]
          exact short.trans (List.cons_prefix_cons.mpr ⟨rfl, List.prefix_append ..⟩)
        rw [List.cons_append, List.cons_append, cutAt?, if_neg unstarted, inductionHypothesis inner]
        rfl

/-- No separator stands before the first one. -/
theorem cutAt?_before (nonempty : separator ≠ [])
    (found : cutAt? separator text = some (before, after)) : cutAt? separator before = none := by
  induction text generalizing before with
  | nil => simp [cutAt?, nonempty] at found
  | cons c text inductionHypothesis =>
      rw [cutAt?] at found
      split at found
      next =>
        obtain ⟨rfl, -⟩ := Prod.mk.inj (Option.some.inj found)
        simp [cutAt?, nonempty]
      next later =>
        obtain ⟨⟨front, _⟩, inner, same⟩ := Option.map_eq_some_iff.mp found
        obtain ⟨rfl, rfl⟩ := Prod.mk.inj same
        have whole := append_of_cutAt? inner
        have unstarted : ¬separator.isPrefixOf (c :: front) = true := by
          intro starts
          refine later (List.isPrefixOf_iff_prefix.mpr ((List.isPrefixOf_iff_prefix.mp starts).trans ?_))
          rw [← whole, List.append_assoc]
          exact List.cons_prefix_cons.mpr ⟨rfl, List.prefix_append ..⟩
        rw [cutAt?, if_neg unstarted, inductionHypothesis inner]
        rfl

/-- A text with a separator in it is cut. -/
theorem cutAt?_ne_none (before separator after : List Char) :
    cutAt? separator (before ++ separator ++ after) ≠ none := by
  induction before with
  | nil =>
      by_cases empty : separator = []
      · subst empty
        cases after <;> simp [cutAt?]
      · rw [List.nil_append, cutAt?_self empty]
        exact Option.some_ne_none _
  | cons c before inductionHypothesis =>
      rw [List.cons_append, List.cons_append, cutAt?]
      split
      · exact Option.some_ne_none _
      · simpa using inductionHypothesis

/-- The first separator starts no later than any other. -/
theorem length_le_of_cutAt? {front back : List Char}
    (found : cutAt? separator (front ++ separator ++ back) = some (before, after)) :
    before.length ≤ front.length := by
  induction front generalizing before with
  | nil =>
      by_cases empty : separator = []
      · subst empty
        cases back <;> simp [cutAt?] at found <;> simp [found]
      · rw [List.nil_append, cutAt?_self empty] at found
        simp [(Prod.mk.inj (Option.some.inj found)).1.symm]
  | cons c front inductionHypothesis =>
      rw [List.cons_append, List.cons_append, cutAt?] at found
      split at found
      · simp [(Prod.mk.inj (Option.some.inj found)).1.symm]
      · obtain ⟨⟨first, _⟩, inner, same⟩ := Option.map_eq_some_iff.mp found
        obtain ⟨rfl, rfl⟩ := Prod.mk.inj same
        simpa using inductionHypothesis inner

/-- Behind a text without the first character of the separator, a text is cut at the separator. -/
theorem cutAt?_of_notMem {c : Char} {more : List Char} (absent : c ∉ before) (rest : List Char) :
    cutAt? (c :: more) (before ++ c :: more ++ rest) = some (before, rest) := by
  induction before with
  | nil => exact cutAt?_self (List.cons_ne_nil c more) rest
  | cons d before inductionHypothesis =>
      obtain ⟨different, later⟩ := not_or.mp (List.mem_cons.not.mp absent)
      have unstarted : ¬(c :: more).isPrefixOf (d :: (before ++ c :: more ++ rest)) = true := by
        intro starts
        exact different (List.cons_prefix_cons.mp (List.isPrefixOf_iff_prefix.mp starts)).1
      rw [List.cons_append, List.cons_append, cutAt?, if_neg unstarted, inductionHypothesis later]
      rfl

/-- Behind a text without a separator of two characters, a text is cut where it would be cut on its own,
unless a separator starts at the end of the one and ends in the other. -/
theorem cutAt?_append_of_apart {c d : Char} (absent : cutAt? [c, d] text = none)
    (apart : ¬(text.getLast? = some c ∧ after.head? = some d)) :
    cutAt? [c, d] (text ++ after)
      = (cutAt? [c, d] after).map fun parts => (text ++ parts.1, parts.2) := by
  induction text with
  | nil => simp
  | cons e text inductionHypothesis =>
      rw [cutAt?] at absent
      split at absent
      · cases absent
      · next unstarted =>
        have later : cutAt? [c, d] text = none := by simpa using absent
        have unstarted' : ¬[c, d].isPrefixOf (e :: (text ++ after)) = true := by
          cases text with
          | nil =>
              rintro starts
              obtain ⟨rfl, second⟩ := List.cons_prefix_cons.mp (List.isPrefixOf_iff_prefix.mp starts)
              obtain ⟨rest, rfl⟩ : ∃ rest, after = d :: rest := second.imp fun rest same => same.symm
              exact apart ⟨rfl, rfl⟩
          | cons f text => simpa using unstarted
        have apart' : ¬(text.getLast? = some c ∧ after.head? = some d) := by
          rintro ⟨last, head⟩
          refine apart ⟨?_, head⟩
          rw [List.getLast?_cons, last]
          rfl
        rw [List.cons_append, cutAt?, if_neg unstarted', inductionHypothesis later apart']
        cases cutAt? [c, d] after <;> rfl

/-- A block occurs in a text exactly if it is a part of it. -/
theorem occursIn_eq_true_iff : occursIn block text = true ↔ block <:+: text := by
  induction text with
  | nil => rw [occursIn, List.isEmpty_iff, List.infix_nil]
  | cons c text inductionHypothesis =>
      rw [occursIn, Bool.or_eq_true, List.isPrefixOf_iff_prefix, inductionHypothesis,
        List.infix_cons_iff]

/-! ## Pieces between separators -/

variable {c : Char} {piece : List Char} {pieces : List (List Char)}

/-- There is always a piece. -/
theorem splitAtChar_ne_nil (c : Char) (text : List Char) : splitAtChar c text ≠ [] := by
  cases text with
  | nil => exact List.cons_ne_nil _ _
  | cons d text =>
      rw [splitAtChar]
      split
      · exact List.cons_ne_nil _ _
      · split <;> exact List.cons_ne_nil _ _

/-- Joining the first of several pieces with the others. -/
theorem joinWith_cons {separator : List Char} (nonempty : pieces ≠ []) (piece : List Char) :
    joinWith separator (piece :: pieces) = piece ++ separator ++ joinWith separator pieces := by
  cases pieces with
  | nil => exact absurd rfl nonempty
  | cons => rfl

/-- The first piece ends at the first separator. -/
theorem splitAtChar_append (absent : c ∉ piece) (rest : List Char) :
    splitAtChar c (piece ++ c :: rest) = piece :: splitAtChar c rest := by
  induction piece with
  | nil => simp [splitAtChar]
  | cons d piece inductionHypothesis =>
      obtain ⟨different, later⟩ := not_or.mp (List.mem_cons.not.mp absent)
      rw [List.cons_append, splitAtChar, if_neg (by simpa using Ne.symm different),
        inductionHypothesis later]

/-- A text without the separator is one piece. -/
theorem splitAtChar_of_notMem (absent : c ∉ piece) : splitAtChar c piece = [piece] := by
  induction piece with
  | nil => rfl
  | cons d piece inductionHypothesis =>
      obtain ⟨different, later⟩ := not_or.mp (List.mem_cons.not.mp absent)
      rw [splitAtChar, if_neg (by simpa using Ne.symm different), inductionHypothesis later]

/-- A piece has no separator, and its characters are characters of the text. -/
theorem mem_splitAtChar (member : piece ∈ splitAtChar c text) : c ∉ piece ∧ ∀ d ∈ piece, d ∈ text := by
  induction text generalizing piece with
  | nil =>
      obtain rfl := List.mem_singleton.mp member
      simp
  | cons d text inductionHypothesis =>
      rw [splitAtChar] at member
      split at member
      next =>
        rcases List.mem_cons.mp member with rfl | later
        · simp
        · obtain ⟨whole, subset⟩ := inductionHypothesis later
          exact ⟨whole, fun e inside => List.mem_cons_of_mem _ (subset e inside)⟩
      next different =>
        split at member
        next nothing => exact absurd nothing (splitAtChar_ne_nil c text)
        next first pieces found =>
          rw [found] at inductionHypothesis
          rcases List.mem_cons.mp member with rfl | later
          · obtain ⟨whole, subset⟩ := inductionHypothesis List.mem_cons_self
            refine ⟨?_, List.forall_mem_cons.mpr ⟨List.mem_cons_self, ?_⟩⟩
            · rw [List.mem_cons, not_or]
              exact ⟨fun same => different (beq_iff_eq.mpr same.symm), whole⟩
            · exact fun e inside => List.mem_cons_of_mem _ (subset e inside)
          · obtain ⟨whole, subset⟩ := inductionHypothesis (List.mem_cons_of_mem _ later)
            exact ⟨whole, fun e inside => List.mem_cons_of_mem _ (subset e inside)⟩

/-- A character that is no separator belongs to the first piece. -/
theorem splitAtChar_cons {d : Char} (different : d ≠ c) (found : splitAtChar c text = piece :: pieces) :
    splitAtChar c (d :: text) = (d :: piece) :: pieces := by
  rw [splitAtChar, if_neg (by simpa using different), found]

/-- A part without the separator lies in one piece, and what stands before it in the pieces stands before it in
the text. -/
theorem exists_splitAtChar {part : List Char} (absent : c ∉ part) (before after : List Char) :
    ∃ front head tail back, splitAtChar c (before ++ (part ++ after))
        = front ++ (head ++ (part ++ tail)) :: back
      ∧ (∀ piece ∈ front, ∀ d ∈ piece, d ∈ before) ∧ ∀ d ∈ head, d ∈ before := by
  induction before with
  | nil =>
      obtain ⟨tail, back, pieces⟩ := List.exists_cons_of_ne_nil (splitAtChar_ne_nil c after)
      refine ⟨[], [], tail, back, ?_, by simp, by simp⟩
      induction part with
      | nil => exact pieces
      | cons d part inductionHypothesis =>
          obtain ⟨different, later⟩ := not_or.mp (List.mem_cons.not.mp absent)
          exact splitAtChar_cons (Ne.symm different) (inductionHypothesis later)
  | cons d before inductionHypothesis =>
      obtain ⟨front, head, tail, back, pieces, fronts, heads⟩ := inductionHypothesis
      have later {e : Char} : e ∈ before → e ∈ d :: before := List.mem_cons_of_mem d
      by_cases same : d = c
      · refine ⟨[] :: front, head, tail, back, ?_, ?_, fun e inside => later (heads e inside)⟩
        · rw [List.cons_append, splitAtChar, if_pos (by simpa using same), pieces, List.cons_append]
        · exact List.forall_mem_cons.mpr ⟨by simp,
            fun piece among e inside => later (fronts piece among e inside)⟩
      · cases front with
        | nil =>
            refine ⟨[], d :: head, tail, back, splitAtChar_cons same pieces, by simp, ?_⟩
            exact List.forall_mem_cons.mpr ⟨List.mem_cons_self, fun e inside => later (heads e inside)⟩
        | cons first front =>
            obtain ⟨firsts, others⟩ := List.forall_mem_cons.mp fronts
            refine ⟨(d :: first) :: front, head, tail, back, splitAtChar_cons same pieces, ?_,
              fun e inside => later (heads e inside)⟩
            refine List.forall_mem_cons.mpr
              ⟨List.forall_mem_cons.mpr ⟨List.mem_cons_self, fun e inside => later (firsts e inside)⟩, ?_⟩
            exact fun piece among e inside => later (others piece among e inside)

/-- A piece between others that are joined, with separators behind those before it and in front of those behind. -/
theorem joinWith_append_cons (separator : List Char) (front : List (List Char)) (piece : List Char)
    (back : List (List Char)) : joinWith separator (front ++ piece :: back)
      = front.flatMap (· ++ separator) ++ (piece ++ back.flatMap (separator ++ ·)) := by
  induction front generalizing piece back with
  | nil =>
      induction back generalizing piece with
      | nil => simp [joinWith]
      | cons next back inductionHypothesis =>
          rw [List.nil_append, joinWith_cons (List.cons_ne_nil _ _)]
          rw [← List.nil_append (next :: back), inductionHypothesis]
          simp
  | cons first front inductionHypothesis =>
      rw [List.cons_append, joinWith_cons (by simp), inductionHypothesis]
      simp

/-- Pieces that are joined among others can be joined before. -/
theorem joinWith_joined (separator : List Char) (front : List (List Char)) (nonempty : pieces ≠ [])
    (back : List (List Char)) :
    joinWith separator (front ++ joinWith separator pieces :: back)
      = joinWith separator (front ++ pieces ++ back) := by
  obtain ⟨first, others, rfl⟩ := List.exists_cons_of_ne_nil nonempty
  have inner := joinWith_append_cons separator [] first others
  rw [List.nil_append] at inner
  have regrouped : front ++ first :: others ++ back = front ++ first :: (others ++ back) := by simp
  rw [regrouped, joinWith_append_cons, joinWith_append_cons, inner]
  simp

/-- What stands before a piece in joined pieces stands in the pieces before it, or in a separator. -/
theorem exists_joinWith (separator : List Char) (front : List (List Char)) (piece : List Char)
    (back : List (List Char)) :
    ∃ before after, joinWith separator (front ++ piece :: back) = before ++ (piece ++ after)
      ∧ ∀ d ∈ before, d ∈ separator ∨ ∃ other ∈ front, d ∈ other := by
  refine ⟨_, _, joinWith_append_cons separator front piece back, fun d member => ?_⟩
  obtain ⟨other, among, inside⟩ := List.mem_flatMap.mp member
  exact (List.mem_append.mp inside).symm.imp_right fun part => ⟨other, among, part⟩

/-- Pieces without the separator are read back when they were joined. -/
theorem splitAtChar_joinWith (nonempty : pieces ≠ []) (absent : ∀ piece ∈ pieces, c ∉ piece) :
    splitAtChar c (joinWith [c] pieces) = pieces := by
  induction pieces with
  | nil => exact absurd rfl nonempty
  | cons piece pieces inductionHypothesis =>
      obtain ⟨here, later⟩ := List.forall_mem_cons.mp absent
      by_cases last : pieces = []
      · subst last
        exact splitAtChar_of_notMem here
      · rw [joinWith_cons last, List.append_assoc, List.singleton_append, splitAtChar_append here,
          inductionHypothesis last later]

/-- The pieces of a text make up the text. -/
theorem joinWith_splitAtChar (c : Char) (text : List Char) : joinWith [c] (splitAtChar c text) = text := by
  induction text with
  | nil => rfl
  | cons d text inductionHypothesis =>
      rw [splitAtChar]
      split
      · next same =>
        rw [joinWith_cons (splitAtChar_ne_nil c text), inductionHypothesis, beq_iff_eq.mp same]
        rfl
      · split
        · next nothing => exact absurd nothing (splitAtChar_ne_nil c text)
        · next piece pieces found =>
          rw [found] at inductionHypothesis
          rw [← inductionHypothesis]
          cases pieces <;> rfl

/-- The characters of joined pieces are those of the pieces and the separator. -/
theorem mem_joinWith {d : Char} (member : d ∈ joinWith separator pieces) :
    d ∈ separator ∨ ∃ piece ∈ pieces, d ∈ piece := by
  induction pieces with
  | nil => cases member
  | cons piece pieces inductionHypothesis =>
      by_cases last : pieces = []
      · subst last
        exact .inr ⟨piece, List.mem_cons_self, member⟩
      · rw [joinWith_cons last, List.mem_append, List.mem_append] at member
        rcases member with (here | between) | later
        · exact .inr ⟨piece, List.mem_cons_self, here⟩
        · exact .inl between
        · rcases inductionHypothesis later with between | ⟨other, among, within⟩
          · exact .inl between
          · exact .inr ⟨other, List.mem_cons_of_mem _ among, within⟩

/-- A text shows nothing if none of its characters is shown. -/
theorem filter_of_silent {accept : Char → Bool} {text : List Char} (silent : ∀ c ∈ text, accept c = false) :
    text.filter accept = [] :=
  List.filter_eq_nil_iff.mpr fun c member => by simp [silent c member]

/-- Joined pieces show what the pieces show if the separator shows nothing. -/
theorem filter_joinWith {accept : Char → Bool} {separator : List Char} (silent : ∀ c ∈ separator, accept c = false)
    (pieces : List (List Char)) : (joinWith separator pieces).filter accept = pieces.flatMap (List.filter accept) := by
  induction pieces with
  | nil => rfl
  | cons piece rest inductionHypothesis =>
      by_cases last : rest = []
      · subst last
        simp [joinWith]
      · rw [joinWith_cons last, List.filter_append, List.filter_append, filter_of_silent silent, inductionHypothesis,
          List.append_nil, List.flatMap_cons]

/-- Pieces are joined as the library joins them. -/
theorem joinWith_eq_intercalate (separator : List Char) (pieces : List (List Char)) :
    joinWith separator pieces = separator.intercalate pieces := by
  induction pieces with
  | nil => rfl
  | cons piece pieces inductionHypothesis =>
      cases pieces with
      | nil => simp [joinWith]
      | cons next pieces =>
          rw [joinWith_cons (List.cons_ne_nil _ _), inductionHypothesis, List.intercalate_cons_cons]

/-! ## The first occurrence of a character -/

/-- A search for a character passes over a text that lacks it. -/
theorem bne_of_notMem (absent : c ∉ text) : ∀ d ∈ text, (d != c) = true := by
  intro d member
  rw [bne_iff_ne]
  rintro rfl
  exact absent member

/-- A text up to a character that it lacks. -/
theorem takeWhile_of_notMem (absent : c ∉ text) (rest : List Char) :
    (text ++ c :: rest).takeWhile (· != c) = text := by
  rw [List.takeWhile_append_of_pos (bne_of_notMem absent), List.takeWhile_cons_of_neg (by simp), List.append_nil]

/-- A text from a character on that was absent before. -/
theorem dropWhile_of_notMem (absent : c ∉ text) (rest : List Char) :
    (text ++ c :: rest).dropWhile (· != c) = c :: rest := by
  rw [List.dropWhile_append_of_pos (bne_of_notMem absent), List.dropWhile_cons_of_neg (by simp)]

/-- A text is parted at a character if it is reached. -/
theorem append_of_dropWhile {d : Char} {rest : List Char}
    (reached : text.dropWhile (· != c) = d :: rest) :
    text = text.takeWhile (· != c) ++ c :: rest ∧ c ∉ text.takeWhile (· != c) := by
  have stops := List.head?_dropWhile_not (· != c) text
  rw [reached] at stops
  obtain rfl : d = c := by simpa using stops
  refine ⟨?_, fun member => ?_⟩
  · rw [← reached, List.takeWhile_append_dropWhile]
  · have passed := List.mem_takeWhile_imp member
    simp at passed

/-- Texts are parted in one way only at a character that neither start has. -/
theorem append_cons_inj {first second left right : List Char} (absent : c ∉ first) (absent' : c ∉ second)
    (same : first ++ c :: left = second ++ c :: right) : first = second ∧ left = right := by
  have start : first = second := by
    rw [← takeWhile_of_notMem absent left, same, takeWhile_of_notMem absent' right]
  subst start
  exact ⟨rfl, (List.cons.inj (List.append_cancel_left same)).2⟩

/-- Joined pieces are parted at the first separator. -/
theorem partitionAt_joinWith (absent : c ∉ piece) (pieces : List (List Char)) :
    partitionAt c (joinWith [c] (piece :: pieces)) = (piece, joinWith [c] pieces) := by
  have passed := bne_of_notMem absent
  by_cases last : pieces = []
  · subst last
    have before : piece.takeWhile (· != c) = piece := List.takeWhile_eq_self_iff.mpr passed
    have behind : piece.dropWhile (· != c) = [] := List.dropWhile_eq_nil_iff.mpr passed
    have alone : joinWith [c] [piece] = piece := rfl
    rw [alone, partitionAt, before, behind]
    rfl
  · rw [joinWith_cons last, List.append_assoc, partitionAt, List.takeWhile_append_of_pos passed,
      List.dropWhile_append_of_pos passed]
    simp

end Scaffold.Text
