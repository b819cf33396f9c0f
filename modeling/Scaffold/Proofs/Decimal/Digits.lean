import Scaffold.Decimal.Text
import Mathlib.Algebra.Ring.Nat
import Mathlib.Data.List.TakeWhile
import Mathlib.Tactic.Common

/-!
# Digits and their values

The digits of a number have the number as their value, and cutting off trailing zeros divides by a power
of ten.
-/

namespace Scaffold.Decimal

/-- The value of digits as the standard library has it. -/
theorem digitsValue_eq (digits : List Char) : digitsValue digits = Nat.ofDigitChars 10 digits 0 := rfl

/-- Digits behind others multiply their value. -/
theorem digitsValue_append (first second : List Char) :
    digitsValue (first ++ second)
      = digitsValue first * 10 ^ second.length + digitsValue second := by
  simp only [digitsValue_eq, Nat.ofDigitChars_append]
  rw [Nat.ofDigitChars_eq_ofDigitChars_zero, Nat.mul_comm]

/-- Zeros are worth nothing. -/
@[simp] theorem digitsValue_replicate (count : Nat) : digitsValue (List.replicate count '0') = 0 := by
  simp [digitsValue_eq]

/-- The digits of a number have its value. -/
@[simp] theorem digitsValue_natText (number : Nat) : digitsValue (natText number) = number :=
  Nat.ofDigitChars_ten_toDigits

/-- The digits of a number are digits. -/
theorem isDigit_of_mem_natText {number : Nat} {digit : Char} (member : digit ∈ natText number) :
    isDigit digit = true := Nat.isDigit_of_mem_toDigits (by decide) (by decide) member

/-- A number has digits. -/
theorem natText_ne_nil (number : Nat) : natText number ≠ [] := Nat.toDigits_ne_nil

/-- Digits write a number below the power of ten of their count. -/
theorem digitsValue_lt {digits : List Char} (ascii : ∀ digit ∈ digits, isDigit digit) :
    digitsValue digits < 10 ^ digits.length := by
  induction digits with
  | nil => simp [digitsValue]
  | cons digit rest inductionHypothesis =>
      obtain ⟨here, others⟩ := List.forall_mem_cons.mp ascii
      have below := inductionHypothesis others
      have isDigit : digit.toNat ≤ 57 := by
        simp only [isDigit, Bool.and_eq_true, decide_eq_true_eq] at here
        exact here.2
      have value : digitsValue [digit] = digit.toNat - 48 := by simp [digitsValue]
      rw [← List.singleton_append, digitsValue_append, value, List.length_append, List.length_singleton,
        Nat.add_comm 1, Nat.pow_succ]
      have bound : (digit.toNat - 48) * 10 ^ rest.length ≤ 9 * 10 ^ rest.length :=
        Nat.mul_le_mul_right _ (by omega)
      omega

/-- The count of the digits of a positive number is found from the powers of ten. -/
theorem length_natText_le_iff {number count : Nat} (positive : 0 < count) :
    (natText number).length ≤ count ↔ number < 10 ^ count :=
  Nat.length_toDigits_le_iff (by decide) positive

/-- A positive number is at least the power of ten of its further digits. -/
theorem pow_le_of_length_natText {number : Nat} (positive : 0 < number) :
    10 ^ ((natText number).length - 1) ≤ number := by
  by_contra below
  rw [Nat.not_le] at below
  by_cases single : (natText number).length - 1 = 0
  · rw [single, Nat.pow_zero] at below
    omega
  · have short := (length_natText_le_iff (Nat.pos_of_ne_zero single)).mpr below
    have nonempty := List.length_pos_iff.mpr (natText_ne_nil number)
    omega

/-- The digits of a positive number do not start with zero. -/
theorem head_natText_ne_zero {number : Nat} (positive : 0 < number) :
    (natText number).head? ≠ some '0' := by
  intro zero
  obtain ⟨rest, split⟩ : ∃ rest, natText number = '0' :: rest := by
    cases digits : natText number with
    | nil => exact absurd digits (natText_ne_nil number)
    | cons first rest =>
        rw [digits] at zero
        exact ⟨rest, by rw [Option.some.inj zero]⟩
  have ascii : ∀ digit ∈ rest, isDigit digit := fun digit member =>
    isDigit_of_mem_natText (split ▸ List.mem_cons_of_mem _ member : digit ∈ natText number)
  have value : digitsValue rest = number := by
    have whole := digitsValue_natText number
    rw [split, ← List.singleton_append, digitsValue_append] at whole
    simpa [digitsValue] using whole
  have small := value ▸ digitsValue_lt ascii
  have large := pow_le_of_length_natText positive
  rw [split, List.length_cons, Nat.add_sub_cancel] at large
  omega

/-- The digits of a positive number are those without trailing zeros, and zeros. -/
theorem natText_eq_trimmedDigits_append {number : Nat} (positive : 0 < number) :
    ∃ zeros, natText number = trimmedDigits number ++ List.replicate zeros '0' := by
  have split : (natText number).reverse.takeWhile (· == '0')
      ++ (natText number).reverse.dropWhile (· == '0') = (natText number).reverse :=
    List.takeWhile_append_dropWhile
  have zeros : (natText number).reverse.takeWhile (· == '0')
      = List.replicate ((natText number).reverse.takeWhile (· == '0')).length '0' :=
    List.eq_replicate_of_mem fun digit member => by simpa using List.mem_takeWhile_imp member
  have whole : natText number = ((natText number).reverse.dropWhile (· == '0')).reverse
      ++ List.replicate ((natText number).reverse.takeWhile (· == '0')).length '0' := by
    rw [← List.reverse_replicate, ← zeros, ← List.reverse_append, split, List.reverse_reverse]
  refine ⟨((natText number).reverse.takeWhile (· == '0')).length, ?_⟩
  unfold trimmedDigits
  dsimp only
  split
  next empty =>
    -- All digits would be zeros, the first one too.
    rw [List.isEmpty_iff.mp empty, List.reverse_nil, List.nil_append] at whole
    have first := head_natText_ne_zero positive
    rw [whole, List.head?_replicate] at first
    split at first
    next none => rw [none] at whole; exact absurd whole (natText_ne_nil number)
    next => exact absurd rfl first
  next => exact whole

/-- What is left of the digits of a positive number: digits, of which the first is not zero. -/
theorem trimmedDigits_spec {number : Nat} (positive : 0 < number) :
    ∃ first rest, trimmedDigits number = first :: rest ∧ first ≠ '0'
      ∧ ∀ digit ∈ first :: rest, isDigit digit := by
  obtain ⟨zeros, split⟩ := natText_eq_trimmedDigits_append positive
  have start := head_natText_ne_zero positive
  have ascii : ∀ digit ∈ trimmedDigits number, isDigit digit := fun digit member =>
    isDigit_of_mem_natText (split ▸ List.mem_append_left _ member : digit ∈ natText number)
  cases trimmed : trimmedDigits number with
  | nil =>
      rw [trimmed, List.nil_append] at split
      cases zeros with
      | zero => exact absurd split (natText_ne_nil number)
      | succ zeros =>
          rw [split, List.replicate_succ] at start
          exact absurd rfl start
  | cons first rest =>
      rw [split, trimmed] at start
      exact ⟨first, rest, rfl, fun zero => start (by rw [zero]; rfl), trimmed ▸ ascii⟩

/-- A positive number is the value of what is left of its digits, times the power of ten that was cut
off. -/
theorem eq_digitsValue_trimmedDigits {number : Nat} (positive : 0 < number) :
    ∃ zeros, number = digitsValue (trimmedDigits number) * 10 ^ zeros
      ∧ (natText number).length = (trimmedDigits number).length + zeros := by
  obtain ⟨zeros, split⟩ := natText_eq_trimmedDigits_append positive
  refine ⟨zeros, ?_, by rw [split, List.length_append, List.length_replicate]⟩
  have value := digitsValue_natText number
  rw [split, digitsValue_append, digitsValue_replicate, List.length_replicate, Nat.add_zero] at value
  exact value.symm

end Scaffold.Decimal
