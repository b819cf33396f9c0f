import Scaffold.Json.Printer
import Scaffold.Json.Reader
import Scaffold.Proofs.Decimal.Digits
import Scaffold.Proofs.Text.Trimming

/-!
# Characters of documents

A text may be blank and yet hold characters that JSON does not skip between tokens.  None of them starts a
token, so a blank text is no document (`parse_ne_ok_of_isAllBlank`).  A printed value holds no carriage
return: texts escape it and nothing else writes it (`notMem_print`).
-/

namespace Scaffold

/-! ## Blank texts -/

namespace Json

open Decimal

variable {first : Char} {text : List Char} {value : Value}

/-- No word starts with a blank. -/
theorem find?_words_of_isBlank (blank : Text.isBlank first = true) (rest : List Char) :
    (words.find? fun word => word.1.isPrefixOf (first :: rest)) = none := by
  have visible : (words.all fun word => word.1.head?.any fun c => !Text.isBlank c) = true := by
    decide
  rw [List.find?_eq_none]
  intro word member starts
  have head := List.all_eq_true.mp visible word member
  obtain ⟨tail, split⟩ := List.isPrefixOf_iff_prefix.mp starts
  cases named : word.1 with
  | nil => simp [named] at head
  | cons c others =>
      rw [named] at head split
      obtain rfl : c = first := (List.cons.inj split).1
      simp [blank] at head

/-- A digit is not blank. -/
theorem isDigit_of_isBlank (blank : Text.isBlank first = true) : isDigit first = false := by
  have apart : ∀ left ∈ Text.blankRanges, ∀ right ∈ [(0x30, 0x39)],
      left.2 < right.1 ∨ right.2 < left.1 := by decide
  have outside := Text.holds_of_apart apart blank
  simp only [Text.CharRanges.holds, List.any_cons, List.any_nil, Bool.or_false] at outside
  exact outside

/-- No number starts with a blank. -/
theorem readNumber_of_isBlank (blank : Text.isBlank first = true) (rest : List Char) :
    readNumber false (first :: rest) = none := by
  have whole : readWhole (first :: rest) = ([], first :: rest) := by
    rw [readWhole.eq_def]
    split
    next same =>
      rw [(List.cons.inj same).1] at blank
      exact absurd blank (by decide)
    next => simp [takeDigits, isDigit_of_isBlank blank]
  simp [readNumber, whole]

/-- No token starts with a blank. -/
theorem readToken_of_isBlank (blank : Text.isBlank first = true) (rest : List Char) :
    readToken first rest = (.unknown, []) := by
  have noMinus : (first == '-') = false := by
    rw [beq_eq_false_iff_ne]
    rintro rfl
    exact absurd blank (by decide)
  rw [readToken.eq_def]
  split
  all_goals try (exact absurd blank (by decide))
  simp [find?_words_of_isBlank blank, noMinus, readNumber_of_isBlank blank]

/-- A blank text is no document. -/
theorem parse_ne_ok_of_isAllBlank (blank : Text.isAllBlank text = true) : parse text ≠ .ok value := by
  have all : ∀ c ∈ text, Text.isBlank c = true := List.all_eq_true.mp blank
  unfold parse
  split
  next => rintro ⟨⟩
  next =>
    rw [tokens]
    split
    next => rintro ⟨⟩
    next first rest split =>
      have inside : first ∈ text :=
        (List.dropWhile_sublist isSpace).subset (split ▸ List.mem_cons_self)
      rw [readToken_of_isBlank (all first inside)]
      rintro ⟨⟩

end Json

/-! ## Printed values -/

namespace Decimal

/-- A carriage return is no digit of a number. -/
theorem notMem_natText (number : Nat) : '\r' ∉ natText number :=
  fun member => absurd (isDigit_of_mem_natText member) (by decide)

/-- An integer is written without carriage returns. -/
theorem notMem_intText (number : Int) : '\r' ∉ (intText number).toList := by
  cases number <;> simp [intText, notMem_natText]

/-- The digits of a coefficient are written without carriage returns. -/
theorem notMem_trimmedDigits (coefficient : Nat) : '\r' ∉ trimmedDigits coefficient := by
  unfold trimmedDigits
  dsimp only
  split
  · decide
  · intro member
    exact notMem_natText coefficient
      (List.mem_reverse.mp ((List.dropWhile_sublist _).mem (List.mem_reverse.mp member)))

/-- A number is written without carriage returns. -/
theorem FloatNotation.notMem_magnitude (style : FloatNotation) (rank : Nat) :
    '\r' ∉ style.magnitude rank := by
  have digits := notMem_trimmedDigits (shortest rank).coefficient
  unfold FloatNotation.magnitude
  dsimp only
  generalize trimmedDigits (shortest rank).coefficient = significant at digits ⊢
  split
  · decide
  have front : ∀ count, '\r' ∉ significant.take count := fun _ => mt List.mem_of_mem_take digits
  have back : ∀ count, '\r' ∉ significant.drop count := fun _ => mt List.mem_of_mem_drop digits
  split
  · unfold positional
    dsimp only
    split
    · simp [digits]
    · split <;> simp [digits, front, back]
  · unfold scientific
    dsimp only
    split <;> split <;> simp [front, List.drop_one ▸ back 1, notMem_natText]

/-- A number, or what is no number, is written without carriage returns. -/
theorem FloatNotation.notMem_write (value : Binary64) :
    '\r' ∉ (FloatNotation.json.write value).toList := by
  cases value with
  | nan => decide
  | infinite negative => cases negative <;> decide
  | finite negative rank =>
      have magnitude := FloatNotation.json.notMem_magnitude rank
      cases negative <;> simp [FloatNotation.write, magnitude]

end Decimal

namespace Json

/-- The escaped form of a character is written without carriage returns. -/
theorem notMem_escapeChar (c : Char) : '\r' ∉ escapeChar c := by
  have codes : ∀ code < 0x20, '\r' ∉ Text.hexDigits 4 code := by decide
  fun_cases escapeChar c with
  | case8 _ _ _ _ _ _ _ control =>
      rw [List.mem_append, not_or]
      exact ⟨by decide, codes _ control⟩
  | case9 _ _ _ other =>
      intro member
      rw [List.mem_singleton] at member
      exact other (beq_iff_eq.mpr member.symm)
  | _ => decide

/-- A text is written without carriage returns. -/
theorem notMem_printText (text : String) : '\r' ∉ printText text := by
  simp [printText, notMem_escapeChar]

/-- A scalar is written without carriage returns. -/
theorem notMem_printScalar (content : Scalar) : '\r' ∉ printScalar content := by
  cases content with
  | null => decide
  | bool value => cases value <;> decide
  | int value => exact Decimal.notMem_intText value
  | float value => exact Decimal.FloatNotation.notMem_write value
  | text name => exact notMem_printText name
  | torn value => exact notMem_printText (value.filled '\ufffd')
  | moment value => exact notMem_printText value.text

/-- A key is written without carriage returns. -/
theorem notMem_printKey (key : Scalar) : '\r' ∉ printKey key := by
  unfold printKey
  split <;> exact notMem_printText _

/-- A line starts without carriage returns. -/
theorem notMem_newLine (layout : Layout) (depth : Nat) : '\r' ∉ layout.newLine depth := by
  unfold Layout.newLine
  split <;> simp

variable {layout : Layout}

mutual

/-- A value is written without carriage returns. -/
theorem notMem_print (items : '\r' ∉ layout.itemSeparator) (keys : '\r' ∉ layout.keySeparator)
    (depth : Nat) (value : Value) : '\r' ∉ print layout depth value := by
  match value with
  | .scalar content => exact notMem_printScalar content
  | .list [] => simp [print]
  | .list (item :: rest) =>
      simp [print, notMem_newLine, notMem_print items keys (depth + 1) item,
        notMem_printItems items keys (depth + 1) rest]
  | .mapping [] => simp [print]
  | .mapping ((key, value) :: rest) =>
      simp [print, keys, notMem_newLine, notMem_printKey, notMem_print items keys (depth + 1) value,
        notMem_printEntries items keys (depth + 1) rest]

/-- Items are written without carriage returns. -/
theorem notMem_printItems (items : '\r' ∉ layout.itemSeparator)
    (keys : '\r' ∉ layout.keySeparator) (depth : Nat) (values : List Value) :
    '\r' ∉ printItems layout depth values := by
  match values with
  | [] => exact List.not_mem_nil
  | item :: rest =>
      simp [printItems, items, notMem_newLine, notMem_print items keys depth item,
        notMem_printItems items keys depth rest]

/-- Entries are written without carriage returns. -/
theorem notMem_printEntries (items : '\r' ∉ layout.itemSeparator)
    (keys : '\r' ∉ layout.keySeparator) (depth : Nat) (entries : List (Scalar × Value)) :
    '\r' ∉ printEntries layout depth entries := by
  match entries with
  | [] => exact List.not_mem_nil
  | (key, value) :: rest =>
      simp [printEntries, items, keys, notMem_newLine, notMem_printKey,
        notMem_print items keys depth value, notMem_printEntries items keys depth rest]

end

end Json

end Scaffold
