import Scaffold.Command.Words
import Scaffold.Proofs.Computation
import Scaffold.Proofs.Text.Search
import Mathlib.Algebra.Ring.Nat
import Mathlib.Tactic.Common

/-!
# Laws of command words

A word is bare if nothing in it ends it or protects anything.  Bare words with spaces between them are the words
of their line (`splitFrom_joinWith`).  Every character of a line ends up in at most one word, and what protects is
left out, so no other words are the words of their line (`splitFrom_joinWith_iff`).
-/

namespace Scaffold.Command

open Text

/-- A character that is read as it is: neither a break nor one that protects. -/
def isBare (c : Char) : Bool := !isBreak c && !isMark c && c != '\\'

/-- A word that is read as it is. -/
def IsBare (word : List Char) : Prop := word ≠ [] ∧ ∀ c ∈ word, isBare c = true

instance (word : List Char) : Decidable (IsBare word) :=
  decidable_of_iff (word ≠ [] ∧ word.all isBare = true) (and_congr_right fun _ => List.all_eq_true)

/-- A character that protects others and is no part of a word itself. -/
def protects (c : Char) : Bool := isMark c || c == '\\'

variable {place : Place} {word text rest : List Char} {words pieces : List (List Char)} {c : Char}

/-- What is read as it is neither breaks nor protects. -/
theorem isBare_eq_true_iff : isBare c = true ↔ isBreak c = false ∧ isMark c = false ∧ c ≠ '\\' := by
  simp [isBare, and_assoc]

/-! ## Bare words -/

/-- Inside a word bare characters are read as they are. -/
theorem splitFrom_word_append (bare : ∀ c ∈ text, isBare c = true) :
    splitFrom .word word (text ++ rest) = splitFrom .word (word ++ text) rest := by
  induction text generalizing word with
  | nil => rw [List.nil_append, List.append_nil]
  | cons c text inductionHypothesis =>
      obtain ⟨here, later⟩ := List.forall_mem_cons.mp bare
      obtain ⟨noBreak, noMark, noSlash⟩ := isBare_eq_true_iff.mp here
      have slash : (c == '\\') = false := beq_false_of_ne noSlash
      rw [List.cons_append, splitFrom]
      simp only [noBreak, noMark, slash, Bool.false_eq_true, if_false]
      rw [inductionHypothesis later, List.append_assoc]
      rfl

/-- A bare word is read from its first character on. -/
theorem splitFrom_between_append (bare : IsBare word) :
    splitFrom .between [] (word ++ rest) = splitFrom .word word rest := by
  obtain ⟨c, more, rfl⟩ := List.exists_cons_of_ne_nil bare.1
  obtain ⟨here, later⟩ := List.forall_mem_cons.mp bare.2
  obtain ⟨noBreak, noMark, noSlash⟩ := isBare_eq_true_iff.mp here
  have slash : (c == '\\') = false := beq_false_of_ne noSlash
  rw [List.cons_append, splitFrom]
  simp only [noBreak, noMark, slash, Bool.false_eq_true, if_false]
  exact splitFrom_word_append later

/-- Bare words with spaces between them are the words of their line; empty pieces are none. -/
theorem splitFrom_joinWith (bare : ∀ piece ∈ pieces, piece = [] ∨ IsBare piece) :
    splitFrom .between [] (joinWith [' '] pieces) = .ok (pieces.filter fun piece => !piece.isEmpty) := by
  induction pieces with
  | nil => rfl
  | cons piece pieces inductionHypothesis =>
      obtain ⟨here, later⟩ := List.forall_mem_cons.mp bare
      have onward := inductionHypothesis later
      by_cases last : pieces = []
      · subst last
        rcases here with rfl | isBare
        · rfl
        · have read : splitFrom .between [] (piece ++ []) = splitFrom .word piece [] := splitFrom_between_append isBare
          rw [List.append_nil] at read
          simp [joinWith, read, splitFrom, isBare.1]
      · rw [joinWith_cons last]
        rcases here with rfl | isBare
        · exact onward
        · rw [List.append_assoc, splitFrom_between_append isBare]
          rw [List.singleton_append, splitFrom, if_pos (by decide), onward,
            List.filter_cons_of_pos (by simpa using isBare.1)]
          rfl

/-! ## Room for words -/

/-- The characters of words and what ends each of them. -/
def room (words : List (List Char)) : Nat := (words.map fun word => word.length + 1).sum

/-- The room that the rest of a line and the word that is open leave; a quoted word still needs its mark. -/
def roomLeft : Place → List Char → List Char → Nat
  | .between, _, text => text.length + 1
  | .word, word, text => word.length + text.length + 1
  | .quoted _, word, text => word.length + text.length
  | .escaped _, word, text => word.length + text.length + 1

/-- The room that is lost in any case: a character outside of quotes that protects is in no word. -/
def roomLost : Place → List Char → Nat
  | .between, text => if text.any protects then 1 else 0
  | .word, text => if text.any protects then 1 else 0
  | _, _ => 0

/-- A character that is neither a backslash nor a mark protects nothing. -/
theorem protects_eq_false (noSlash : ¬(c == '\\') = true) (noMark : ¬isMark c = true) : protects c = false := by
  simp only [protects, noMark, noSlash, Bool.or_self]

/-- A break protects nothing. -/
theorem protects_of_isBreak (breaks : isBreak c = true) : protects c = false := by
  simp only [isBreak, Bool.or_eq_true, beq_iff_eq] at breaks
  rcases breaks with ((rfl | rfl) | rfl) | rfl <;> rfl

/-- Words take no more room than their line leaves. -/
theorem room_le (done : splitFrom place word text = .ok words) :
    room words + roomLost place text ≤ roomLeft place word text := by
  fun_induction splitFrom place word text generalizing words with
  | case1 | case2 =>
      obtain rfl := Except.ok.inj done
      simp [room, roomLeft, roomLost]
  | case3 | case4 => cases done
  | case5 word c rest breaks inductionHypothesis =>
      have onward := inductionHypothesis done
      simp only [roomLeft, roomLost, List.any_cons, protects_of_isBreak breaks, Bool.false_or,
        List.length_cons] at onward ⊢
      omega
  | case9 word c rest breaks inductionHypothesis =>
      obtain ⟨later, read, rfl⟩ := exists_of_map_eq_ok done
      have onward := inductionHypothesis read
      simp only [room, roomLeft, roomLost, List.any_cons, protects_of_isBreak breaks, Bool.false_or,
        List.length_cons, List.map_cons, List.sum_cons] at onward ⊢
      omega
  | case8 word c rest _ noSlash noMark inductionHypothesis
  | case12 word c rest _ noSlash noMark inductionHypothesis =>
      -- The character goes into the word.
      have onward := inductionHypothesis done
      simp only [roomLeft, roomLost, List.any_cons, protects_eq_false noSlash noMark, Bool.false_or,
        List.length_cons, List.length_append, List.length_nil] at onward ⊢
      omega
  | case6 | case7 | case10 | case11 =>
      -- The character protects what follows.
      rename_i inductionHypothesis
      have onward := inductionHypothesis done
      simp only [roomLeft, roomLost, List.length_cons, List.length_nil] at onward ⊢
      split <;> omega
  | case13 | case14 | case15 | case16 | case17 | case18 =>
      -- The character is protected, or the protection ends.
      rename_i inductionHypothesis
      have onward := inductionHypothesis done
      simp only [roomLeft, roomLost, List.length_cons, List.length_append, List.length_nil] at onward ⊢
      omega

/-- Where nothing protects, words are bare. -/
theorem isBare_of_splitFrom (quiet : ∀ c ∈ text, protects c = false)
    (outside : place = .between ∨ place = .word ∧ IsBare word) (done : splitFrom place word text = .ok words) :
    ∀ read ∈ words, IsBare read := by
  induction text generalizing place word words with
  | nil =>
      rcases outside with rfl | ⟨rfl, bare⟩
      · obtain rfl := Except.ok.inj done
        exact List.forall_mem_nil _
      · obtain rfl := Except.ok.inj done
        exact List.forall_mem_singleton.mpr bare
  | cons c rest inductionHypothesis =>
      obtain ⟨here, later⟩ := List.forall_mem_cons.mp quiet
      obtain ⟨noMark, noSlash⟩ := Bool.or_eq_false_iff.mp here
      rcases outside with rfl | ⟨rfl, bare⟩
      · rw [splitFrom] at done
        split at done
        · exact inductionHypothesis later (.inl rfl) done
        · next noBreak =>
          simp only [noMark, noSlash, Bool.false_eq_true, if_false] at done
          refine inductionHypothesis later (.inr ⟨rfl, by simp, ?_⟩) done
          exact List.forall_mem_singleton.mpr (by simp [isBare, noBreak, noMark, by simpa using noSlash])
      · rw [splitFrom] at done
        split at done
        · obtain ⟨others, read, rfl⟩ := exists_of_map_eq_ok done
          exact List.forall_mem_cons.mpr ⟨bare, inductionHypothesis later (.inl rfl) read⟩
        · next noBreak =>
          simp only [noMark, noSlash, Bool.false_eq_true, if_false] at done
          refine inductionHypothesis later (.inr ⟨rfl, by simp, ?_⟩) done
          refine List.forall_mem_append.mpr ⟨bare.2, ?_⟩
          exact List.forall_mem_singleton.mpr (by simp [isBare, noBreak, noMark, by simpa using noSlash])

/-- The line of words has a space between each two of them. -/
theorem length_joinWith (nonempty : words ≠ []) : (joinWith [' '] words).length + 1 = room words := by
  induction words with
  | nil => exact absurd rfl nonempty
  | cons word words inductionHypothesis =>
      by_cases last : words = []
      · subst last
        simp [joinWith, room]
      · have others := inductionHypothesis last
        rw [joinWith_cons last]
        simp only [room, List.map_cons, List.sum_cons, List.length_append, List.length_singleton] at others ⊢
        omega

/-- Words with spaces between them are the words of their line exactly if all of them are bare. -/
theorem splitFrom_joinWith_iff :
    splitFrom .between [] (joinWith [' '] words) = .ok words ↔ ∀ word ∈ words, IsBare word := by
  constructor
  · intro done
    by_cases empty : words = []
    · simp [empty]
    -- If something protected, the words would not fill their line.
    have filled := room_le done
    rw [← length_joinWith empty] at filled
    refine isBare_of_splitFrom (fun c member => ?_) (.inl rfl) done
    by_contra protecting
    have lost : (joinWith [' '] words).any protects = true :=
      List.any_eq_true.mpr ⟨c, member, by simpa using protecting⟩
    simp only [roomLost, roomLeft, lost, if_true] at filled
    omega
  · intro bare
    rw [splitFrom_joinWith fun word member => .inr (bare word member), List.filter_eq_self.mpr]
    exact fun word member => by simpa using (bare word member).1

end Scaffold.Command
